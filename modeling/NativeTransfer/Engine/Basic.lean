import NativeTransfer.Engine.Address
import NativeTransfer.Engine.Method
import NativeTransfer.Pairs

/-!
# The engine's state

The engine remembers, for every live handle, the arguments that it accepted; for every string list
it ever built, the items and whether it was freed; and which of the strings that it handed out are
still out. Lists are never forgotten, so that an address of one stays meaningful after it was freed.

## Option tables

A table is a list of pairs with one pair for each option that was ever accepted. Setting an option
again changes its pair in place, so the order is that in which options were first set. An address
that is stored stays stored when the memory behind it is released, so it can be said of an engine
that it still points into memory that is gone.

## Numbers

Handles are given out by the policy, since a real engine may give an address out again after it was
cleaned up. Lists and strings are numbered here, and no list has the number zero.
-/

namespace NativeTransfer

/-! ## Option tables -/

/-- The accepted arguments of one handle. -/
abbrev Settings := List (OptionCode × Argument)

namespace Settings

/-- The argument of an option, if one was accepted. -/
def get? : Settings → OptionCode → Option Argument
  | [], _ => none
  | (o', a) :: rest, o => if o' = o then some a else get? rest o

def put : Settings → OptionCode → Argument → Settings
  | [], o, a => [(o, a)]
  | (o', a') :: rest, o, a => if o' = o then (o, a) :: rest else (o', a') :: put rest o a

@[simp] theorem get?_put (s : Settings) (o o' : OptionCode) (a : Argument) :
    (s.put o a).get? o' = if o = o' then some a else s.get? o' := by
  induction s with
  | nil => rfl
  | cons e rest ih =>
    rcases e with ⟨p, b⟩
    by_cases hp : p = o
    · subst hp
      by_cases h : p = o' <;> simp [put, get?, h]
    · by_cases h : p = o'
      · subst h
        simp [put, get?, hp, Ne.symm hp]
      · simp [put, get?, hp, h, ih]

/-- The table in the order of the option numbers. -/
def sorted (s : Settings) : Settings := s.mergeSort fun a b ↦ a.1.value ≤ b.1.value

end Settings

/-! ## String lists -/

/-- A string list of the engine. A node may be without data. -/
structure StringList where
  items : List (Option Bytes)
  freed : Bool := false
  deriving DecidableEq

/-! ## The engine -/

/-- The engine. -/
structure Engine where
  /-- The live handles. -/
  handles : List (Nat × Settings) := []
  /-- How many handles were made. -/
  created : Nat := 0
  /-- Every list that was built; the first is number one. -/
  lists : List StringList := []
  /-- The strings that are still out. -/
  replies : List Nat := []
  /-- How many strings were handed out. -/
  replied : Nat := 0
  /-- How many calls were attempted. -/
  calls : Nat := 0
  /-- How many of them were to append to a list. -/
  appends : Nat := 0
  deriving DecidableEq

namespace Engine

/-- The option table of a live handle. -/
def settings? (e : Engine) (h : Nat) : Option Settings := e.handles.lookup h

/-- Whether a handle is live. -/
def isLive (e : Engine) (h : Nat) : Bool := (e.settings? h).isSome

/-- The accepted argument of an option of a handle. -/
def setting? (e : Engine) (h : Nat) (o : OptionCode) : Option Argument :=
  (e.settings? h).bind (·.get? o)

/-- Changes the option table of a handle, if it is live. -/
def modifySettings (e : Engine) (h : Nat) (f : Settings → Settings) : Engine :=
  { e with handles := Pairs.adjust h f e.handles }

/-- A list by its number. -/
def list? (e : Engine) (n : Nat) : Option StringList :=
  match n with
  | 0 => none
  | n + 1 => e.lists[n]?

/-- The items of a list. -/
def items (e : Engine) (n : Nat) : List (Option Bytes) := ((e.list? n).map (·.items)).getD []

/-- The numbers of the lists that were not freed. -/
def liveLists (e : Engine) : List Nat :=
  (e.lists.zipIdx 1).filterMap fun x ↦ if x.1.freed then none else some x.2

/-- Changes a list. -/
def modifyList (e : Engine) (n : Nat) (f : StringList → StringList) : Engine :=
  match n with
  | 0 => e
  | n + 1 => { e with lists := e.lists.modify n f }

/-- A new list, and its number. -/
def newList (e : Engine) (items : List (Option Bytes)) : Engine × Nat :=
  ({ e with lists := e.lists ++ [{ items }] }, e.lists.length + 1)

/-- A new string for the caller, and its address. -/
def newReply (e : Engine) : Engine × Address :=
  ({ e with replies := e.replied :: e.replies, replied := e.replied + 1 }, .reply e.replied)

/-! ### What changes is seen where it was changed -/

@[simp] theorem settings?_modifySettings (e : Engine) (h g : Nat) (f : Settings → Settings) :
    (e.modifySettings h f).settings? g =
      if g = h then (e.settings? g).map f else e.settings? g := Pairs.lookup_adjust h g f e.handles

/-- A new list is found under its number, and every other number leads where it led. -/
theorem list?_newList (e : Engine) (items : List (Option Bytes)) (n : Nat) :
    (e.newList items).1.list? n =
      if n = (e.newList items).2 then some { items } else e.list? n := by
  cases n with
  | zero => rfl
  | succ n =>
    simp only [newList, list?, Nat.add_right_cancel_iff]
    by_cases hn : n = e.lists.length
    · subst hn
      simp
    · rw [if_neg hn, List.getElem?_append]
      split
      · rfl
      · -- Beyond the end there is nothing, before and after.
        rw [List.getElem?_eq_none (by rw [List.length_singleton]; omega),
          List.getElem?_eq_none (by omega)]

@[simp] theorem list?_modifyList (e : Engine) (n m : Nat) (f : StringList → StringList) :
    (e.modifyList n f).list? m = if m = n then (e.list? m).map f else e.list? m := by
  cases n with
  | zero => cases m <;> simp [modifyList, list?]
  | succ n =>
    cases m with
    | zero => rfl
    | succ m =>
      simp only [modifyList, list?, List.getElem?_modify, Nat.add_right_cancel_iff]
      by_cases h : n = m
      · subst h
        simp
      · simp [h, Ne.symm h]

end Engine

end NativeTransfer
