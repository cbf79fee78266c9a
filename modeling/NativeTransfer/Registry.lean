import NativeTransfer.Engine.Address
import NativeTransfer.Pairs

/-!
# The registry

The engine hands back nothing but an address, and this table leads from the address to the wrapper
that serves it. The table does not keep a wrapper alive: an entry whose wrapper is gone counts as an
entry, and is not found.

There is one entry for an address at most, and entering another replaces it. An entry is made when a
handle is given out and taken away before the handle is given back, so that an address that the
engine uses again finds the table free. Whether a wrapper is alive is asked at the time of the
lookup, with a function, since the table is the same for whatever it leads to.
-/

namespace NativeTransfer

/-- A table from addresses to the wrappers that serve them. -/
structure Registry (α : Type) where
  entries : List (Address × α) := []

namespace Registry

variable {α : Type}

/-- The wrapper of an entry, whether it is still there or not. -/
def get? (r : Registry α) (a : Address) : Option α := r.entries.lookup a

/-- Enters a wrapper and replaces what was entered there before. -/
def register (r : Registry α) (a : Address) (w : α) : Registry α :=
  ⟨Pairs.put a w r.entries⟩

/-- Takes an entry out, if there is one. -/
def unregister (r : Registry α) (a : Address) : Registry α := ⟨Pairs.without a r.entries⟩

/-- The wrapper at an address, if it is still there. -/
def lookup (r : Registry α) (alive : α → Bool) (a : Address) : Option α := (r.get? a).filter alive

/-- How many entries there are. -/
def size (r : Registry α) : Nat := r.entries.length

@[simp] theorem get?_register (r : Registry α) (a b : Address) (w : α) :
    (r.register a w).get? b = if b = a then some w else r.get? b := Pairs.lookup_put a b w r.entries

@[simp] theorem get?_unregister (r : Registry α) (a b : Address) :
    (r.unregister a).get? b = if b = a then none else r.get? b := Pairs.lookup_without a b r.entries

end Registry

end NativeTransfer
