import NativeTransfer.Ledger.Basic

/-!
# The places of a ledger

A ledger keeps every entry in a place of its own. To release an entry is to empty its place first
and to give up the allocation after that, and the row of places is cut when all have gone that were
to go. Between two releases no place is empty, and nothing is left of a ledger but its entries.
-/

namespace NativeTransfer

/-- The places of a ledger, in order. From an empty one an entry has gone. -/
abbrev Places := List (Option Allocation)

namespace Places

/-- A mark for a later release. -/
def position (p : Places) : Nat := p.length

/-- How many entries there are. -/
def live (p : Places) : Nat := p.countP (·.isSome)

/-- The entries, in order. -/
def entries (p : Places) : Ledger := p.filterMap id

/-- Whether an allocation at an address is recorded. -/
def covers (p : Places) (a : Address) : Bool := p.entries.covers a

/-- What is in a place. -/
def content? (p : Places) (k : Nat) : Option Allocation := p[k]?.join

/-- Takes out what is in a place. -/
def vacate (p : Places) (k : Nat) : Places := p.set k none

end Places

end NativeTransfer
