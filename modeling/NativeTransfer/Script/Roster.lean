import NativeTransfer.Registry

/-!
# The registry by itself

A registry, and the wrappers that are kept under names. A wrapper ends when its name is given up or
given to another, and from then on the registry's entries for it lead nowhere.
-/

namespace NativeTransfer.Script

/-- A wrapper that is nothing but its name. Its number tells it from an earlier one of that name. -/
structure Member where
  number : Nat
  name : String

structure Roster where
  registry : Registry Member := {}
  kept : List Member := []
  /-- How many wrappers there have been. -/
  made : Nat := 0

namespace Roster

variable (r : Roster)

def isAlive (m : Member) : Bool := r.kept.any (·.number = m.number)

/-- The wrapper that is kept under a name. -/
def named? (name : String) : Option Member := r.kept.find? (·.name = name)

/-- Gives up a name. -/
def drop (name : String) : Roster := { r with kept := r.kept.filter (·.name ≠ name) }

/-- A new wrapper under a name. -/
def make (name : String) : Roster :=
  { r.drop name with kept := ⟨r.made, name⟩ :: (r.drop name).kept, made := r.made + 1 }

/-- Enters the wrapper of a name, if there is one. -/
def register (a : Address) (name : String) : Roster :=
  match r.named? name with
  | some m => { r with registry := r.registry.register a m }
  | none => r

def unregister (a : Address) : Roster := { r with registry := r.registry.unregister a }

/-- The name of the wrapper at an address. -/
def lookup (a : Address) : Option String := (r.registry.lookup r.isAlive a).map (·.name)

end Roster

end NativeTransfer.Script
