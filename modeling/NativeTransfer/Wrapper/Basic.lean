import NativeTransfer.Text.Utf8
import NativeTransfer.State.Native

/-!
# Wrappers and their ledgers

A list of the engine is freed when its last holder goes. Holders are ledger entries, of any wrapper;
an entry leaves its ledger before anything is freed, so nothing is freed twice.

## The order of a release

`releaseSince` cuts the ledger first, and only then asks who still holds what was cut off. A list
that stands twice among the entries that go is an orphan once, with the last of them, which is for
`Ledger.orphans` to see. A list that cannot be freed is reported and forgotten; trying again later
would need somebody to remember it.

## Texts

A text crosses as a copy that ends at its first NUL, so one with a NUL inside would arrive cut
short. It is refused before anything is recorded, and the refusal names the place.
-/

namespace NativeTransfer.Wrapper

variable (id : WrapperId)

/-- The live handle. -/
def liveHandle : Attempt Nat := do
  match ((← get).wrapper id).handle with
  | some h => return h
  | none => throw .noHandle

/-- The way to the engine. -/
def getApi : Act Api := return ((← get).wrapper id).api

def getSlots : Act Slots := return ((← get).wrapper id).slots

def getLedger : Act Ledger := return ((← get).wrapper id).ledger

def modifySlots (f : Slots → Slots) : Act Unit :=
  modify (·.modifyWrapper id fun w ↦ { w with slots := f w.slots })

def modifyLedger (f : Ledger → Ledger) : Act Unit :=
  modify (·.modifyWrapper id fun w ↦ { w with ledger := f w.ledger })

/-! ## Releasing -/

/-- Frees a list that nobody holds any more. A failure is only reported: there is nobody left to
whom it would matter. -/
def freeNativeList (api : Api) (head : Option Nat) : Act Unit := do
  match head with
  | none => return
  | some n =>
    match ← (api.freeList n).run with
    | .ok _ => return
    | .error e => report .warn "failed to free native list" [("error", .text e.message)]

/-- Frees the lists of some allocations, one after the other. -/
def freeNativeLists (api : Api) : List Allocation → Act Unit
  | [] => return
  | a :: rest => do
    freeNativeList api a.nativeList?
    freeNativeLists api rest

/-- Records an allocation. Whoever does so sees to it that the ledger has nothing at its address,
and it is noted where that was not so. -/
def record (a : Allocation) : Act Unit := do
  if (← getLedger id).covers a.address then
    modify fun w ↦ { w with repeats := w.repeats ++ [(id, a)] }
  modifyLedger id (·.record a)

/-- Records several allocations, one after the other. -/
def recordEach : List Allocation → Act Unit
  | [] => return
  | a :: rest => do
    record id a
    recordEach rest

/-- Releases the entries from a mark on, and tells how many they were. -/
def releaseSince (mark : Nat) : Act Nat := do
  let gone := (← getLedger id).since mark
  modifyLedger id (·.before mark)
  let w ← get
  freeNativeLists (← getApi id) (Ledger.orphans w.holds gone)
  return gone.length

/-- Releases all entries. -/
def releaseAll : Act Nat := releaseSince id 0

/-! ## Texts that cross over -/

/-- The place of the first NUL in a text, if there is one. -/
def interiorNul? (s : String) : Option Nat :=
  let b := Text.utf8 s
  let n := b.untilNul.length
  if n < b.length then some n else none

/-- Refuses a text that a NUL would cut short. -/
def checkText (s : String) : Attempt Unit :=
  match interiorNul? s with
  | some n => throw (.interiorNul n)
  | none => return

/-- Records a copy of a text, and tells its address. -/
def recordText (s : String) : Attempt Address := do
  checkText s
  let a := Allocation.text (← newSerial) s
  record id a
  return a.address

end NativeTransfer.Wrapper
