import NativeTransfer.Ledger.Places
import NativeTransfer.Pairs
import NativeTransfer.Wrapper.Basic

/-!
# Ledgers by themselves

Some ledgers and named allocations, without wrappers, over an engine that frees the lists among
them. Every allocation has a count of those that hold it: names outside, and places in ledgers.
Whoever gets hold of it as well counts one more, whoever gives it up counts one less, and the last
of them frees its list.
-/

namespace NativeTransfer.Script

/-- What an allocation is made of. -/
inductive Content
  | text (s : String)
  | buffer (bytes : Bytes)
  | list (items : List String)

/-- Builds a list on the engine, as far as the engine takes its items. -/
def build (head : Option Nat) : List String → Act (Option Nat)
  | [] => return head
  | item :: rest => do
    match ← (Api.inProcess.append head item).run with
    | .ok (some n) => build (some n) rest
    | _ => return head

def allocation : Content → Act Allocation
  | .text s => return .text (← newSerial) s
  | .buffer b => return .buffer (← newSerial) b
  | .list items => return .list (← newSerial) (← build none items)

/-- Some ledgers, and the state with the engine behind them. -/
structure Ledgers where
  /-- The allocations that are kept outside, by name. -/
  outside : List (String × Allocation) := []
  /-- The ledgers by number. One that is not there is empty. -/
  rows : List (Nat × Places) := []
  /-- How many hold an allocation, for all that were ever made. -/
  counts : List (Allocation × Nat) := []
  state : State

namespace Ledgers

section

variable (s : Ledgers)

/-! ## What there is -/

/-- The allocation of a name. -/
def named? (name : String) : Option Allocation := s.outside.lookup name

/-- The names, in order. -/
def names : List String := (s.outside.map (·.1)).mergeSort

/-- The places of a ledger. -/
def places (i : Nat) : Places := (s.rows.lookup i).getD []

/-- How many hold an allocation. -/
def count (a : Allocation) : Nat := (s.counts.lookup a).getD 0

/-- How many names outside stand for an allocation. -/
def outsiders (a : Allocation) : Nat := (s.outside.map (·.2)).count a

/-- How many ledger entries hold an allocation. -/
def recorded (a : Allocation) : Nat := (s.rows.flatMap (·.2)).count (some a)

/-- The names in order, each with how many besides the names hold its allocation. -/
def references : List (String × Nat) :=
  s.names.map fun n ↦ (n, ((s.named? n).map fun a ↦ s.count a - s.outsiders a).getD 0)

/-! ## Holding and giving up -/

def setPlaces (i : Nat) (p : Places) : Ledgers := { s with rows := Pairs.put i p s.rows }

def setCount (a : Allocation) (n : Nat) : Ledgers := { s with counts := Pairs.put a n s.counts }

/-- One holder more. -/
def retain (a : Allocation) : Ledgers := s.setCount a (s.count a + 1)

/-- One holder less. The last one frees the list. -/
def release (a : Allocation) : Ledgers :=
  let left := s.setCount a (s.count a - 1)
  if s.count a = 1 then
    { left with state := ((Wrapper.freeNativeList .inProcess a.nativeList?).run left.state).2 }
  else left

/-- Gives up an allocation if there is one. -/
def releaseAny : Option Allocation → Ledgers
  | none => s
  | some a => s.release a

/-- Gives a name to an allocation that is held already, and gives up the one that had the name. -/
def keep (name : String) (a : Allocation) : Ledgers :=
  let left := { s with outside := Pairs.put name a s.outside }
  left.releaseAny (s.named? name)

/-- Makes an allocation and keeps it under a name. -/
def make (name : String) (c : Content) : Ledgers :=
  let (a, w) := (allocation c).run s.state
  let made := { s with state := w }
  (made.setCount a 1).keep name a

/-- Keeps the allocation of a name under another name as well. -/
def keepAlso (name other : String) : Ledgers :=
  match s.named? name with
  | none => s
  | some a => (s.retain a).keep other a

/-- Gives up a name. -/
def forget (name : String) : Ledgers :=
  let left := { s with outside := Pairs.without name s.outside }
  left.releaseAny (s.named? name)

/-! ## What a ledger does -/

/-- Puts an allocation that is held already behind all others, and tells where. -/
def append (i : Nat) (a : Allocation) : Nat × Ledgers :=
  let p := s.places i ++ [some a]
  (p.length - 1, s.setPlaces i p)

end

/-- Empties some places of a ledger, one after the other, and gives up what was in each of them.
Tells in how many there was anything. -/
def vacate (i : Nat) : Ledgers → List Nat → Nat × Ledgers
  | s, [] => (0, s)
  | s, k :: ks =>
    match (s.places i).content? k with
    | none => vacate i s ks
    | some a =>
      let (n, t) := vacate i ((s.setPlaces i ((s.places i).vacate k)).release a) ks
      (n + 1, t)

section

variable (s : Ledgers)

/-- Releases the entries of a ledger from a mark on, and tells how many they were. -/
def truncateFrom (i mark : Nat) : Nat × Ledgers :=
  let length := (s.places i).length
  if length ≤ mark then (0, s)
  else
    let (n, t) := vacate i s (List.range' mark (length - mark))
    (n, t.setPlaces i ((t.places i).take mark))

/-- Releases all entries of a ledger. -/
def releaseAll (i : Nat) : Nat × Ledgers := s.truncateFrom i 0

/-- Records the allocation of a name, and tells where. -/
def record (i : Nat) (name : String) : Option Nat × Ledgers :=
  match s.named? name with
  | none => (none, s)
  | some a =>
    let (k, t) := (s.retain a).append i a
    (some k, t)

/-- Copies what a ledger may share, and records it in another. -/
def share (source target : Nat) : List Allocation × Ledgers :=
  let shared := (s.places source).entries.shared
  (shared, shared.foldl (fun t a ↦ (t.append target a).2) (shared.foldl retain s))

/-- Gives up every name in order, and then every ledger. -/
def finish : Ledgers :=
  let left := s.names.foldl forget s
  (left.rows.map (·.1)).mergeSort.foldl (fun t i ↦ (t.releaseAll i).2) left

end

/-! ## Sequences -/

/-- A step on some ledgers. -/
abbrev Run := StateM Ledgers

/-- Runs a step, and tells what happened. -/
def watch {α : Type} (r : Run α) : Run (α × List Event) := do
  let before := (← get).state.trace.length
  let a ← r
  return (a, (← get).state.trace.drop before)

end Ledgers

/-- What may be done with ledgers and what they are to hold. -/
inductive Dealing
  | make (name : String) (c : Content)
  | keepAlso (name other : String)
  | forget (name : String)
  | record (i : Nat) (name : String)
  | truncateFrom (i mark : Nat)
  | releaseAll (i : Nat)
  | share (source target : Nat)

namespace Ledgers

/-- The ledgers after one dealing. -/
def deal (s : Ledgers) : Dealing → Ledgers
  | .make name c => s.make name c
  | .keepAlso name other => s.keepAlso name other
  | .forget name => s.forget name
  | .record i name => (s.record i name).2
  | .truncateFrom i mark => (s.truncateFrom i mark).2
  | .releaseAll i => (s.releaseAll i).2
  | .share source target => (s.share source target).2

/-- The ledgers after several dealings. -/
def after (s : Ledgers) (ds : List Dealing) : Ledgers := ds.foldl deal s

end Ledgers

end NativeTransfer.Script
