import NativeTransfer.Api
import NativeTransfer.Config.Basic
import NativeTransfer.Callback.Slot
import NativeTransfer.Ledger.Basic
import NativeTransfer.Registry
import NativeTransfer.Trace

/-!
# The state

Everything that an operation can see or change: the engine, the wrappers and the registry between
the two, the machine, what is settled once for the whole process, and the events so far. An
operation is a step from one such state to the next. One that fails keeps what it had done by then,
since a call that reached the engine cannot be taken back.

## Failing and undoing

The state lies below the failure, not above it: an attempt that fails still has a state that it
leaves behind. So nothing is rolled back by itself. Where a failed operation is to leave something
as it was, it says so with `orUndo`, and what it undoes is an operation like any other, which is
seen in the events.

## Counts

Wrappers and allocations are numbered by counts that only grow, so a number means the same thing
throughout a run, also after what it stands for is gone. `repeats` and `strays` are kept for the
theory: no operation looks at them, and that both stay as they are at the beginning is proved of
every run.
-/

namespace NativeTransfer

/-! ## Wrappers -/

/-- The number of a wrapper. Numbers are never given twice. -/
abbrev WrapperId := Nat

/-- A wrapper of a handle. -/
structure Wrapper where
  /-- The live handle; none after it was released. -/
  handle : Option Nat := none
  slots : Slots := {}
  ledger : Ledger := []
  api : Api := .inProcess

/-- The address that leads the engine's calls to a wrapper: its handle's, or null. -/
def Wrapper.context (w : Wrapper) : Address :=
  match w.handle with
  | some h => .handle h
  | none => .null

/-! ## What is settled once -/

/-- What is settled once for a process, as far as it is settled yet. -/
structure Settled where
  config : Option Config := none
  /-- The certificate bundle for new handles, if there is one. -/
  bundle : Option (Option Path) := none
  /-- The way to the engine that is taken where none is given. -/
  native : Option Api := none
  /-- Whether the engine was initialised and not cleaned up since. -/
  initialized : Bool := false
  /-- Whether the engine is linked in. -/
  linked : Bool := false

/-! ## The state -/

/-- All that there is to see and to change. -/
structure State where
  engine : Engine := {}
  policy : Policy := {}
  host : Host
  registry : Registry WrapperId := {}
  wrappers : List (WrapperId × Wrapper) := []
  /-- How many wrappers there have been. -/
  opened : Nat := 0
  /-- How many allocations there have been. -/
  serials : Nat := 0
  /-- What was recorded in a ledger that had its address already. There is to be none. -/
  repeats : List (WrapperId × Allocation) := []
  /-- How often something was called that does not take the call. There is to be no such call. -/
  strays : Nat := 0
  settled : Settled := {}
  /-- The events so far, the oldest first. -/
  trace : List Event := []

/-- An operation that does not fail. -/
abbrev Act := StateM State

/-- An operation that may fail. -/
abbrev Attempt := ExceptT Error Act

namespace State

/-- A wrapper by its number. One that is gone is like one without a handle. -/
def wrapper (s : State) (id : WrapperId) : Wrapper := (s.wrappers.lookup id).getD {}

/-- Whether a wrapper is still there. -/
def isAlive (s : State) (id : WrapperId) : Bool := (s.wrappers.lookup id).isSome

/-- Changes a wrapper, if it is still there. -/
def modifyWrapper (s : State) (id : WrapperId) (f : Wrapper → Wrapper) : State :=
  { s with wrappers := Pairs.adjust id f s.wrappers }

/-- The wrapper that an address leads to. -/
def served (s : State) (a : Address) : Option WrapperId := s.registry.lookup s.isAlive a

/-- Whether any wrapper's ledger holds an allocation. -/
def holds (s : State) (a : Allocation) : Bool := s.wrappers.any fun x ↦ x.2.ledger.contains a

/-- How many ledger entries hold an allocation. -/
def holders (s : State) (a : Allocation) : Nat := (s.wrappers.flatMap (·.2.ledger)).count a

@[simp] theorem isAlive_modifyWrapper (s : State) (id : WrapperId) (f : Wrapper → Wrapper) :
    (s.modifyWrapper id f).isAlive = s.isAlive := by
  funext j
  rw [isAlive, isAlive, modifyWrapper, Pairs.lookup_adjust]
  split <;> simp

theorem wrapper_modifyWrapper (s : State) {id : WrapperId} (h : s.isAlive id = true)
    (f : Wrapper → Wrapper) (j : WrapperId) :
    (s.modifyWrapper id f).wrapper j = if j = id then f (s.wrapper j) else s.wrapper j := by
  rw [wrapper, wrapper, modifyWrapper, Pairs.lookup_adjust]
  by_cases hj : j = id
  · subst hj
    obtain ⟨a, ha⟩ := Option.isSome_iff_exists.1 h
    simp [ha]
  · rw [if_neg hj, if_neg hj]

theorem wrapper_congr {s t : State} (hw : t.wrappers = s.wrappers) (j : WrapperId) :
    t.wrapper j = s.wrapper j := by
  rw [wrapper, wrapper, hw]

theorem holds_of_mem (s : State) {id : WrapperId} {a : Allocation} (h : a ∈ (s.wrapper id).ledger) :
    s.holds a = true := by
  rw [wrapper] at h
  cases hl : s.wrappers.lookup id with
  | none =>
    rw [hl] at h
    exact absurd h List.not_mem_nil
  | some x =>
    rw [hl, Option.getD_some] at h
    obtain ⟨front, back, hw, -⟩ := List.lookup_eq_some_iff.1 hl
    rw [holds, hw, List.any_append, List.any_cons, List.contains_iff_mem.2 h]
    simp

end State

/-! ## First operations -/

/-- Lets something happen. -/
def emit (e : Event) : Act Unit := modify fun s ↦ { s with trace := s.trace ++ [e] }

/-- Reports a record. -/
def report (level : Level) (message : String) (fields : List (String × Field)) : Act Unit :=
  emit (.log ⟨level, message, fields⟩)

/-- A number for an allocation. -/
def newSerial : Act Nat := modifyGet fun s ↦ (s.serials, { s with serials := s.serials + 1 })

/-- An attempt whose failure is looked at. -/
def observed {α : Type} (attempt : Attempt α) : Attempt (Except Error α) := ExceptT.lift attempt.run

/-- An attempt that is undone in part if it fails. -/
def orUndo {α : Type} (attempt : Attempt α) (undo : Act Unit) : Attempt α :=
  tryCatch attempt fun e ↦ do
    undo
    throw e

end NativeTransfer
