/-!
# Behaviours

The library calls code that is not its own, and that code may keep a state of its own. All that can
be said about it is what it answered: so a behaviour is a function from the exchanges so far to the
next answer. A machine with a hidden state is one such function: the past alone settles the state,
and the state settles the answer.
-/

namespace NativeTransfer

/-- One party to a sequence of exchanges. -/
structure Behaviour (α β : Type) where
  /-- The exchanges so far, the oldest first. -/
  past : List (α × β) := []
  answer : List (α × β) → α → β

namespace Behaviour

variable {α β σ : Type}

/-- The answer to what comes next. -/
def next (b : Behaviour α β) (a : α) : β := b.answer b.past a

/-- The same party, one exchange later. -/
def after (b : Behaviour α β) (a : α) : Behaviour α β :=
  { b with past := b.past ++ [(a, b.next a)] }

/-- The state that a machine is in after some inputs. -/
def reached (move : σ → α → σ) (start : σ) (past : List (α × β)) : σ :=
  past.foldl (fun s e ↦ move s e.1) start

/-- The behaviour of a machine that moves with every input, and replies from the state before it. -/
def ofMachine (move : σ → α → σ) (reply : σ → α → β) (start : σ) : Behaviour α β where
  answer past a := reply (reached move start past) a

@[simp] theorem past_after (b : Behaviour α β) (a : α) :
    (b.after a).past = b.past ++ [(a, b.next a)] := rfl

@[simp] theorem answer_after (b : Behaviour α β) (a : α) : (b.after a).answer = b.answer := rfl

theorem reached_concat (move : σ → α → σ) (start : σ) (past : List (α × β)) (e : α × β) :
    reached move start (past ++ [e]) = move (reached move start past) e.1 := by
  rw [reached, List.foldl_append]; rfl

end Behaviour

end NativeTransfer
