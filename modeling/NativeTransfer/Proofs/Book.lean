import NativeTransfer.Proofs.Drift

/-!
# Books

What the engine was told of a handle can be read off the trace: options that it accepted, and
handles that began afresh or as copies of others. A book is one way of reading it, and what a
transformer does to a book is one lemma for all books.

## Reading events

A book keeps a value for every handle, and each event changes the values of at most one handle. An
event that settles nothing changes no value, so two states with the same settling events have the
same books (`book_congr`). That is why a state may drift without a word about any book, and why the
lemmas are about transformers only: a handle that begins is blank, a copy inherits, and an accepted
argument is entered. Nothing here depends on what the values are.
-/

namespace NativeTransfer

/-- A way of keeping track of a handle. -/
structure Book (α : Type) where
  /-- What is known of a handle of which nothing is set. -/
  blank : α
  /-- What a copy of a handle takes over. -/
  inherit : α → α
  /-- What an accepted argument adds. -/
  enter : OptionCode → Argument → α → α

namespace Book

variable {α : Type} (b : Book α)

/-- What an event changes. -/
def turn (f : Nat → α) : Event → Nat → α
  | .native _ (.init (some h)), g => if g = h then b.blank else f g
  | .native _ (.duphandle d (some h)), g => if g = h then b.inherit (f d) else f g
  | .native _ (.reset h), g => if g = h then b.blank else f g
  | .native _ (.setopt _ h o x code), g => if g = h ∧ code = 0 then b.enter o x (f h) else f g
  | _, g => f g

/-- What is known of every handle after some events. -/
def read (events : List Event) : Nat → α := events.foldl b.turn fun _ ↦ b.blank

/-- An event that settles nothing is of no interest to any book. -/
theorem turn_of_settles {e : Event} (he : e.settles = false) (f : Nat → α) : b.turn f e = f := by
  funext g
  rw [turn.eq_def]
  split
  · cases he
  · cases he
  · cases he
  · -- An option that was refused is turned down by the book as well.
    next code =>
    rw [if_neg fun hc ↦ ?_]
    rw [Event.settles, hc.2] at he
    cases he
  · rfl

theorem read_filter (events : List Event) (f : Nat → α) :
    (events.filter Event.settles).foldl b.turn f = events.foldl b.turn f := by
  induction events generalizing f with
  | nil => rfl
  | cons e events ih =>
    by_cases he : e.settles = true
    · rw [List.filter_cons_of_pos he, List.foldl_cons, List.foldl_cons, ih]
    · rw [List.filter_cons_of_neg he, List.foldl_cons, ih,
        turn_of_settles b (Bool.eq_false_iff.2 he)]

end Book

namespace State

variable {α : Type} (b : Book α) {s t : State}

/-- What a book knows in a state. -/
def book (s : State) : Nat → α := b.read s.trace

theorem book_congr (h : t.settling = s.settling) : t.book b = s.book b := by
  rw [book, book, Book.read, Book.read, ← Book.read_filter, ← Book.read_filter b s.trace]
  exact congrArg (List.foldl b.turn fun _ ↦ b.blank) h

theorem book_told (tables : List (Nat × Settings)) (r : Route) (c : NativeCall) :
    (s.told tables r c).book b = b.turn (s.book b) (.native r c) := by
  rw [book, book, Book.read, Book.read, told, List.foldl_append]
  rfl

theorem book_store (id : WrapperId) (h g : Nat) (o : OptionCode) (x : Argument) :
    (s.store id h o x).book b g = if g = h then b.enter o x (s.book b h) else s.book b g := by
  rw [store, book_told]
  by_cases hg : g = h
  · rw [if_pos hg]
    exact if_pos ⟨hg, rfl⟩
  · rw [if_neg hg]
    exact if_neg fun hc ↦ hg hc.1

/-- Several arguments are entered one after the other. -/
theorem book_storeAll (id : WrapperId) (h g : Nat) (xs : List (OptionCode × Argument)) :
    (s.storeAll id h xs).book b g =
      if g = h then xs.foldl (fun a x ↦ b.enter x.1 x.2 a) (s.book b h) else s.book b g := by
  induction xs generalizing s with
  | nil =>
    by_cases hg : g = h
    · rw [if_pos hg, hg]
      rfl
    · rw [if_neg hg]
      rfl
  | cons x xs ih =>
    refine ih.trans ?_
    rw [book_store, book_store, if_pos rfl]
    by_cases hg : g = h
    · rw [if_pos hg, if_pos hg]
      rfl
    · rw [if_neg hg, if_neg hg, if_neg hg]

theorem book_begin (r : Route) (h g : Nat) :
    (s.begin r h).book b g = if g = h then b.blank else s.book b g := by
  rw [begin, book_told]
  rfl

theorem book_copy (r : Route) (d h g : Nat) :
    (s.copy r d h).book b g = if g = h then b.inherit (s.book b d) else s.book b g := by
  rw [copy, book_told]
  rfl

theorem book_clear (r : Route) (h g : Nat) :
    (s.clear r h).book b g = if g = h then b.blank else s.book b g := by
  rw [clear, book_told]
  rfl

theorem book_close (r : Route) (h g : Nat) : (s.close r h).book b g = s.book b g := by
  rw [close, book_told]
  rfl

end State

end NativeTransfer
