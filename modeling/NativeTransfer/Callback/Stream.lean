import NativeTransfer.Callback.Behaviour
import NativeTransfer.Callback.Note

/-!
# Sinks and sources

A sink takes as much of an offer as it likes, so writing a chunk means offering what is left of it
until nothing is. An interrupted offer is made again at once. A sink interrupts only finitely often
in a row: what becomes of an offer is a finite chain of interruptions with a settlement at its end,
and with that the loop ends because every settlement that keeps it going takes at least one octet.
-/

namespace NativeTransfer

/-- How a call into the caller's code ends. -/
inductive Outcome (α : Type)
  | done (a : α)
  /-- It gave up, perhaps with a text. -/
  | panicked (message : Option String)

/-! ## Sinks -/

/-- How an offer is settled. -/
inductive Settlement
  /-- So many octets were taken, or all if there were fewer. -/
  | took (n : Nat)
  | failed
  | panicked (message : Option String)

/-- What becomes of an offer. -/
inductive Reception
  | settled (notes : List Note) (s : Settlement)
  /-- The sink was interrupted, and the same octets are offered again. -/
  | interrupted (notes : List Note) (again : Reception)

namespace Reception

/-- What the interruptions lead to. -/
def settlement : Reception → Settlement
  | settled _ s => s
  | interrupted _ r => r.settlement

def notes : Reception → List Note
  | settled ns _ => ns
  | interrupted ns r => ns ++ r.notes

/-- How many octets were taken. -/
def taken (r : Reception) : Nat :=
  match r.settlement with
  | .took n => n
  | _ => 0

end Reception

/-- Where octets go. -/
abbrev Sink := Behaviour Bytes Reception

/-- What has come of writing a chunk. -/
structure Written where
  /-- Whether all of it was taken. -/
  outcome : Outcome Bool
  sink : Sink
  notes : List Note

namespace Sink

/-- All that a sink has taken so far. -/
def accepted (s : Sink) : Bytes := s.past.flatMap fun e ↦ e.1.take e.2.taken

/-- Offers a chunk until all of it is taken, or the sink takes nothing or fails. -/
def writeAll (s : Sink) (chunk : Bytes) : Written :=
  match chunk with
  | [] => ⟨.done true, s, []⟩
  | x :: xs =>
    let r := s.next (x :: xs)
    let s := s.after (x :: xs)
    match r.settlement with
    | .took 0 => ⟨.done false, s, r.notes⟩
    | .took (n + 1) =>
      let rest := writeAll s (xs.drop n)
      { rest with notes := r.notes ++ rest.notes }
    | .failed => ⟨.done false, s, r.notes⟩
    | .panicked m => ⟨.panicked m, s, r.notes⟩
termination_by chunk.length
decreasing_by
  rw [List.length_drop, List.length_cons]
  omega

@[simp] theorem accepted_after (s : Sink) (chunk : Bytes) :
    accepted (s.after chunk) = s.accepted ++ chunk.take (s.next chunk).taken := by
  simp [accepted]

end Sink

/-! ## Sources -/

/-- What a source answers when it is asked for octets. -/
inductive Supply
  /-- It put octets into the buffer and claims a number of them. -/
  | gave (notes : List Note) (bytes : Bytes) (count : UInt64)
  | failed (notes : List Note)
  | panicked (notes : List Note) (message : Option String)

def Supply.notes : Supply → List Note
  | gave ns _ _ => ns
  | failed ns => ns
  | panicked ns _ => ns

/-- Where octets come from: it is asked with the room that there is. -/
abbrev Source := Behaviour Nat Supply

end NativeTransfer
