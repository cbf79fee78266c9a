import NativeTransfer.Engine.Address

/-!
# Ledgers

A ledger records, in order, every allocation that the engine may still read on behalf of one
wrapper. Releasing always takes a tail away, so a mark taken earlier undoes exactly what came after
it.

## Numbers and addresses

An entry carries a number of its own, so two copies of one text are two entries. Lookups go by
address all the same, because an address is all that the engine knows: a buffer that is recorded
already is not recorded again, whatever its entry looks like.

## Holders

Two ledgers may hold one allocation, and only the last to let go of it frees it. Who else holds it
is not for a ledger to know, so `orphans` is given the question as a function.
-/

namespace NativeTransfer

/-- Memory that the engine holds an address of. Each has a number of its own. -/
inductive Allocation
  /-- A copy of a text with a NUL behind it. -/
  | text (serial : Nat) (s : String)
  /-- A list of the engine; the empty list is none. -/
  | list (serial : Nat) (head : Option Nat)
  /-- A buffer of the caller's. -/
  | buffer (serial : Nat) (bytes : Bytes)
  deriving DecidableEq

/-- The kinds of allocation. -/
inductive AllocationKind
  | text
  | list
  | buffer
  deriving DecidableEq

def AllocationKind.name : AllocationKind → String
  | .text => "text"
  | .list => "list"
  | .buffer => "buffer"

namespace Allocation

def kind : Allocation → AllocationKind
  | .text _ _ => .text
  | .list _ _ => .list
  | .buffer _ _ => .buffer

/-- The address that the engine was given. -/
def address : Allocation → Address
  | .text n s => .copy n s
  | .list _ head => Address.ofList? head
  | .buffer n b => .buffer n b

/-- Whether a duplicated handle may go on using it. The engine copies texts for a duplicate, and
nothing else. -/
def isShareable (a : Allocation) : Bool := a.kind ≠ .text

/-- The list of the engine that goes with an allocation, if any. -/
def nativeList? : Allocation → Option Nat
  | .list _ head => head
  | _ => none

end Allocation

/-- The allocations of one wrapper, in the order in which they were recorded. -/
abbrev Ledger := List Allocation

namespace Ledger

/-- Records an allocation behind all others. -/
def record (l : Ledger) (a : Allocation) : Ledger := l ++ [a]

/-- A mark for a later release. -/
def position (l : Ledger) : Nat := l.length

/-- The entries before a mark. -/
def before (l : Ledger) (mark : Nat) : Ledger := l.take mark

/-- The entries from a mark on. -/
def since (l : Ledger) (mark : Nat) : Ledger := l.drop mark

/-- Whether an allocation at an address is recorded. -/
def covers (l : Ledger) (a : Address) : Bool := l.any (·.address = a)

/-- The entries that a duplicated handle still uses. -/
def shared (l : Ledger) : Ledger := l.filter (·.isShareable)

/-- Of the entries that go, one after the other, those that nobody holds any more when they go. -/
def orphans (held : Allocation → Bool) : Ledger → Ledger
  | [] => []
  | a :: rest => if held a || rest.contains a then orphans held rest else a :: orphans held rest

@[simp] theorem before_append_since (l : Ledger) (mark : Nat) :
    l.before mark ++ l.since mark = l := List.take_append_drop mark l

theorem mem_orphans {held : Allocation → Bool} {gone : Ledger} {a : Allocation} :
    a ∈ orphans held gone ↔ a ∈ gone ∧ held a = false := by
  induction gone with
  | nil => simp [orphans]
  | cons b rest ih =>
    by_cases h : held b = true ∨ b ∈ rest
    · simp only [orphans, List.contains_eq_mem, Bool.or_eq_true, decide_eq_true_eq, if_pos h, ih,
        List.mem_cons]
      refine ⟨fun ⟨hm, hh⟩ ↦ ⟨.inr hm, hh⟩, ?_⟩
      rintro ⟨rfl | hm, hh⟩
      · rcases h with h | h
        · rw [h] at hh; cases hh
        · exact ⟨h, hh⟩
      · exact ⟨hm, hh⟩
    · simp only [orphans, List.contains_eq_mem, Bool.or_eq_true, decide_eq_true_eq, if_neg h,
        List.mem_cons, ih]
      rw [not_or] at h
      constructor
      · rintro (rfl | ⟨hm, hh⟩)
        · exact ⟨.inl rfl, by simpa using h.1⟩
        · exact ⟨.inr hm, hh⟩
      · rintro ⟨rfl | hm, hh⟩
        · exact .inl rfl
        · exact .inr ⟨hm, hh⟩

end Ledger

end NativeTransfer
