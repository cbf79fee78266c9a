import Mathlib.Tactic.Common
import NativeTransfer.Proofs.Calling
import NativeTransfer.Proofs.Attempt

/-!
# What a state is made of, and what merely drifts

Most of what an operation does to a state is of no consequence to the wrappers: calls are counted,
records are reported, lists are built and taken down again. `State.Drift` says that nothing else has
happened between two states. Whatever does have a consequence is said as an equation on states, by a
few transformers, and a specification reads: from such a transform of the first state, the last one
drifts.

The trace is kept in `Drift` as far as it tells what a handle has been given. Those events settle
something; all others do not.

## Loose lists

`Drift` has a list of numbers of lists of which nothing is said. Every other list that was there is
there as it was, and of lists that are new nothing is said in any case. So an operation that builds
a list and takes it down again drifts with nothing loose, and one that frees what a ledger had
drifts with the lists of that ledger.

## Transformers

A handle that begins, a copy, an argument that is stored, a handle that is cleared or closed: each
is a function on states, and drifting from a state stays drifting if the same transformer is applied
on either side. So specifications compose by rewriting the transformers into one another.
-/

namespace NativeTransfer

/-- Whether an event tells of an option that was accepted, or of a table that was begun afresh. -/
def Event.settles : Event → Bool
  | .native _ (.init (some _)) => true
  | .native _ (.duphandle _ (some _)) => true
  | .native _ (.reset _) => true
  | .native _ (.setopt _ _ _ _ code) => code = 0
  | _ => false

/-- The method by which an argument crosses. -/
def Method.storing (o : OptionCode) : Argument → Method
  | .integer _ => if o.isWide then .setOffset else .setLong
  | .pointer _ => .setPointer
  | .function _ => .setFunction

namespace State

/-! ## Transformers -/

/-- The events that settled something. -/
def settling (s : State) : List Event := s.trace.filter Event.settles

/-- What no operation changes: how the engine decides, and how many calls went astray. -/
def constants (s : State) : Policy × Nat := (s.policy, s.strays)

/-- The numbers of the wrappers that are there. -/
def ids (s : State) : List WrapperId := s.wrappers.map Prod.fst

/-- A call that reached the engine, and the tables that it left there. -/
def told (s : State) (tables : List (Nat × Settings)) (r : Route) (c : NativeCall) : State :=
  { s with engine.handles := tables, trace := s.trace ++ [.native r c] }

/-- An argument that the engine accepted for an option, on behalf of a wrapper. -/
def store (s : State) (id : WrapperId) (h : Nat) (o : OptionCode) (x : Argument) : State :=
  s.told (Pairs.adjust h (·.put o x) s.engine.handles) (s.wrapper id).api.route
    (.setopt (Method.storing o x) h o x 0)

/-- Several arguments, one after the other. -/
def storeAll (s : State) (id : WrapperId) (h : Nat) (xs : List (OptionCode × Argument)) : State :=
  xs.foldl (fun s x ↦ s.store id h x.1 x.2) s

/-- A handle that the engine made, with nothing set. -/
def begin (s : State) (r : Route) (h : Nat) : State :=
  s.told (Pairs.put h [] s.engine.handles) r (.init (some h))

/-- A handle that the engine made, with all that is set for another. -/
def copy (s : State) (r : Route) (g h : Nat) : State :=
  s.told (Pairs.put h ((s.engine.settings? g).getD []) s.engine.handles) r (.duphandle g (some h))

/-- A handle of which the engine set every option back. -/
def clear (s : State) (r : Route) (h : Nat) : State :=
  s.told (Pairs.adjust h (fun _ ↦ []) s.engine.handles) r (.reset h)

/-- A handle that the engine let go. -/
def close (s : State) (r : Route) (h : Nat) : State :=
  s.told (Pairs.without h s.engine.handles) r (.cleanup h)

/-- Allocations recorded behind all others. -/
def recordAll (s : State) (id : WrapperId) (as : List Allocation) : State :=
  s.modifyWrapper id fun w ↦ { w with ledger := w.ledger ++ as }

/-- A ledger with its entries before a mark only. -/
def cut (s : State) (id : WrapperId) (mark : Nat) : State :=
  s.modifyWrapper id fun w ↦ { w with ledger := w.ledger.before mark }

/-- Changed slots. -/
def withSlots (s : State) (id : WrapperId) (f : Slots → Slots) : State :=
  s.modifyWrapper id fun w ↦ { w with slots := f w.slots }

/-! ## Drifting -/

/-- Nothing of consequence has happened from one state to the other, except that of the lists
numbered `loose` nothing is said. -/
structure Drift (loose : List Nat) (s t : State) : Prop where
  handles : t.engine.handles = s.engine.handles
  lists : ∀ n ∉ loose, ∀ l, s.engine.list? n = some l → t.engine.list? n = some l
  wrappers : t.wrappers = s.wrappers
  registry : t.registry = s.registry
  opened : t.opened = s.opened
  policy : t.policy = s.policy
  strays : t.strays = s.strays
  serials : s.serials ≤ t.serials
  settling : t.settling = s.settling

namespace Drift

variable {s t u : State} {loose : List Nat}

theorem refl (s : State) : Drift [] s s :=
  ⟨rfl, fun _ _ _ h ↦ h, rfl, rfl, rfl, rfl, rfl, Nat.le_refl _, rfl⟩

theorem repeats (s : State) (rs : List (WrapperId × Allocation)) :
    Drift [] s { s with repeats := rs } :=
  ⟨rfl, fun _ _ _ h ↦ h, rfl, rfl, rfl, rfl, rfl, Nat.le_refl _, rfl⟩

theorem trans {loose' : List Nat} (h : Drift loose s t) (h' : Drift loose' t u) :
    Drift (loose ++ loose') s u where
  handles := h'.handles.trans h.handles
  lists n hn l hl := by
    rw [List.mem_append, not_or] at hn
    exact h'.lists n hn.2 l (h.lists n hn.1 l hl)
  wrappers := h'.wrappers.trans h.wrappers
  registry := h'.registry.trans h.registry
  opened := h'.opened.trans h.opened
  policy := h'.policy.trans h.policy
  strays := h'.strays.trans h.strays
  serials := Nat.le_trans h.serials h'.serials
  settling := h'.settling.trans h.settling

theorem mono {loose' : List Nat} (h : Drift loose s t) (hsub : loose ⊆ loose') : Drift loose' s t :=
  { h with lists := fun n hn ↦ h.lists n fun hm ↦ hn (hsub hm) }

theorem tighten (h : Drift loose s t) (hnew : ∀ n ∈ loose, s.engine.list? n = none) :
    Drift [] s t where
  __ := h
  lists n _ l hl := h.lists n (fun hm ↦ by rw [hnew n hm] at hl; cases hl) l hl

theorem list?_eq_none (h : Drift [] s t) {n : Nat} (hn : t.engine.list? n = none) :
    s.engine.list? n = none := by
  cases hl : s.engine.list? n with
  | none => rfl
  | some l => exact absurd ((h.lists n List.not_mem_nil l hl).symm.trans hn) nofun

theorem wrapper (h : Drift loose s t) (j : WrapperId) : t.wrapper j = s.wrapper j := by
  rw [State.wrapper, State.wrapper, h.wrappers]

theorem isAlive (h : Drift loose s t) : t.isAlive = s.isAlive := by
  funext j
  rw [State.isAlive, State.isAlive, h.wrappers]

theorem ids (h : Drift loose s t) : t.ids = s.ids := by rw [State.ids, State.ids, h.wrappers]

theorem constants (h : Drift loose s t) : t.constants = s.constants := Prod.ext h.policy h.strays

theorem settings? (h : Drift loose s t) (g : Nat) :
    t.engine.settings? g = s.engine.settings? g := by
  rw [Engine.settings?, Engine.settings?, h.handles]

theorem setting? (h : Drift loose s t) (g : Nat) (o : OptionCode) :
    t.engine.setting? g o = s.engine.setting? g o := by
  rw [Engine.setting?, Engine.setting?, h.settings?]

theorem isLive (h : Drift loose s t) (g : Nat) : t.engine.isLive g = s.engine.isLive g := by
  rw [Engine.isLive, Engine.isLive, h.settings?]

theorem modifyWrapper (h : Drift loose s t) (id : WrapperId) (f : Wrapper → Wrapper) :
    Drift loose (s.modifyWrapper id f) (t.modifyWrapper id f) :=
  { h with wrappers := by rw [State.modifyWrapper, State.modifyWrapper, h.wrappers] }

theorem told (h : Drift loose s t) {tables tables' : List (Nat × Settings)}
    (ht : tables' = tables) (r : Route) (c : NativeCall) :
    Drift loose (s.told tables r c) (t.told tables' r c) :=
  { h with
    handles := ht
    settling := by
      rw [State.settling, State.settling, State.told, State.told, List.filter_append,
        List.filter_append, ← State.settling, ← State.settling, h.settling] }

theorem store (h : Drift loose s t) (id : WrapperId) (g : Nat) (o : OptionCode) (x : Argument) :
    Drift loose (s.store id g o x) (t.store id g o x) := by
  rw [State.store, State.store, h.wrapper, h.handles]
  exact h.told rfl _ _

theorem storeAll (id : WrapperId) (g : Nat) (xs : List (OptionCode × Argument)) :
    ∀ {s t : State}, Drift loose s t → Drift loose (s.storeAll id g xs) (t.storeAll id g xs) := by
  induction xs with
  | nil => exact fun h ↦ h
  | cons x xs ih => exact fun h ↦ ih (h.store id g x.1 x.2)

theorem begin (h : Drift loose s t) (r : Route) (g : Nat) :
    Drift loose (s.begin r g) (t.begin r g) := h.told (by rw [h.handles]) _ _

theorem copy (h : Drift loose s t) (r : Route) (g d : Nat) :
    Drift loose (s.copy r g d) (t.copy r g d) := h.told (by rw [h.handles, h.settings?]) _ _

theorem clear (h : Drift loose s t) (r : Route) (g : Nat) :
    Drift loose (s.clear r g) (t.clear r g) := h.told (by rw [h.handles]) _ _

theorem close (h : Drift loose s t) (r : Route) (g : Nat) :
    Drift loose (s.close r g) (t.close r g) := h.told (by rw [h.handles]) _ _

end Drift

/-! ## What the transformers change -/

section

variable (s : State) (id j : WrapperId) (h g : Nat) (o o' : OptionCode) (x : Argument)
  (as : List Allocation) (f : Slots → Slots)

@[simp] theorem ids_modifyWrapper (f : Wrapper → Wrapper) : (s.modifyWrapper id f).ids = s.ids := by
  rw [ids, ids, modifyWrapper, Pairs.adjust, List.map_map]
  refine List.map_congr_left fun y _ ↦ ?_
  by_cases hy : y.1 = id
  · simp [hy]
  · simp [hy]

theorem isAlive_iff {s : State} {id : WrapperId} : s.isAlive id = true ↔ id ∈ s.ids := by
  rw [isAlive, ids, List.lookup_isSome_iff, List.mem_map]
  constructor
  · rintro ⟨x, hx, he⟩
    exact ⟨x, hx, (eq_of_beq he).symm⟩
  · rintro ⟨x, hx, rfl⟩
    exact ⟨x, hx, beq_self_eq_true _⟩

theorem isAlive_of_handle {s : State} {id : WrapperId} {h : Nat}
    (hh : (s.wrapper id).handle = some h) : s.isAlive id = true := by
  rw [isAlive]
  by_contra hn
  rw [wrapper, Option.not_isSome_iff_eq_none.1 hn] at hh
  exact absurd hh (by simp)

/-- What a change does to its own wrapper is seen there, and nowhere else. -/
theorem wrapper_modifyWrapper_eq (f : Wrapper → Wrapper) :
    (s.modifyWrapper id f).wrapper j =
      if j = id ∧ s.isAlive id = true then f (s.wrapper j) else s.wrapper j := by
  by_cases ha : s.isAlive id = true
  · simp only [wrapper_modifyWrapper s ha, ha, and_true]
  · rw [if_neg fun hc ↦ ha hc.2, modifyWrapper, wrapper, wrapper, Pairs.lookup_adjust]
    split
    · -- There is nothing under the number that could be changed.
      next hj =>
      subst hj
      rw [isAlive, Bool.not_eq_true, Option.isSome_eq_false_iff, Option.isNone_iff_eq_none] at ha
      rw [ha]
      rfl
    · rfl

theorem proj_modifyWrapper {γ : Type} (p : Wrapper → γ) {f : Wrapper → Wrapper}
    (hf : ∀ w, p (f w) = p w) : p ((s.modifyWrapper id f).wrapper j) = p (s.wrapper j) := by
  rw [wrapper_modifyWrapper_eq]
  split
  · exact hf _
  · rfl

theorem settings?_begin (r : Route) :
    (s.begin r h).engine.settings? g = if g = h then some [] else s.engine.settings? g :=
  Pairs.lookup_put h g _ _

theorem settings?_copy (r : Route) (d : Nat) :
    (s.copy r h d).engine.settings? g =
      if g = d then some ((s.engine.settings? h).getD []) else s.engine.settings? g :=
  Pairs.lookup_put d g _ _

theorem settings?_clear (r : Route) :
    (s.clear r h).engine.settings? g =
      if g = h then (s.engine.settings? g).map fun _ ↦ [] else s.engine.settings? g :=
  Pairs.lookup_adjust h g (fun _ ↦ []) s.engine.handles

theorem settings?_close (r : Route) :
    (s.close r h).engine.settings? g = if g = h then none else s.engine.settings? g :=
  Pairs.lookup_without h g _

@[simp] theorem wrapper_store : (s.store id h o x).wrapper j = s.wrapper j := rfl

theorem settings?_store : (s.store id h o x).engine.settings? g =
    if g = h then (s.engine.settings? g).map (·.put o x) else s.engine.settings? g :=
  Engine.settings?_modifySettings _ _ _ _

theorem setting?_store {s : State} (hl : s.engine.isLive h = true) :
    (s.store id h o x).engine.setting? g o' =
      if g = h ∧ o' = o then some x else s.engine.setting? g o' := by
  rw [Engine.setting?, Engine.setting?, settings?_store]
  by_cases hg : g = h
  · subst hg
    obtain ⟨l, hl⟩ := Option.isSome_iff_exists.1 hl
    rw [if_pos rfl, hl, Option.map_some, Option.bind_some, Option.bind_some, Settings.get?_put]
    by_cases ho : o' = o
    · rw [if_pos ho.symm, if_pos ⟨rfl, ho⟩]
    · rw [if_neg (Ne.symm ho), if_neg fun hc ↦ ho hc.2]
  · rw [if_neg hg, if_neg fun hc ↦ hg hc.1]

theorem setting?_store_of_ne {s : State} (hne : g = h → o' ≠ o) :
    (s.store id h o x).engine.setting? g o' = s.engine.setting? g o' := by
  rw [Engine.setting?, Engine.setting?, settings?_store]
  by_cases hg : g = h
  · rw [if_pos hg]
    cases s.engine.settings? g with
    | none => rfl
    | some l =>
      rw [Option.map_some, Option.bind_some, Option.bind_some, Settings.get?_put,
        if_neg (Ne.symm (hne hg))]
  · rw [if_neg hg]

@[simp] theorem isLive_store : (s.store id h o x).engine.isLive g = s.engine.isLive g := by
  rw [Engine.isLive, Engine.isLive, settings?_store]
  split
  · exact Option.isSome_map
  · rfl

theorem isLive_clear (r : Route) :
    (s.clear r h).engine.isLive g = s.engine.isLive g := by
  rw [Engine.isLive, Engine.isLive, settings?_clear]
  split
  · exact Option.isSome_map
  · rfl

section

variable (xs : List (OptionCode × Argument))

theorem storeAll_append (ys : List (OptionCode × Argument)) :
    s.storeAll id h (xs ++ ys) = (s.storeAll id h xs).storeAll id h ys := List.foldl_append

theorem proj_storeAll {γ : Type} (p : State → γ) (hp : ∀ s o x, p (s.store id h o x) = p s) :
    p (s.storeAll id h xs) = p s := by
  induction xs generalizing s with
  | nil => rfl
  | cons x xs ih => exact (ih _).trans (hp s x.1 x.2)

@[simp] theorem wrapper_storeAll : (s.storeAll id h xs).wrapper j = s.wrapper j :=
  proj_storeAll s id h xs (·.wrapper j) fun _ _ _ ↦ rfl

@[simp] theorem ids_storeAll : (s.storeAll id h xs).ids = s.ids :=
  proj_storeAll s id h xs (·.ids) fun _ _ _ ↦ rfl

@[simp] theorem wrappers_storeAll : (s.storeAll id h xs).wrappers = s.wrappers :=
  proj_storeAll s id h xs (·.wrappers) fun _ _ _ ↦ rfl

@[simp] theorem opened_storeAll : (s.storeAll id h xs).opened = s.opened :=
  proj_storeAll s id h xs (·.opened) fun _ _ _ ↦ rfl

@[simp] theorem constants_storeAll : (s.storeAll id h xs).constants = s.constants :=
  proj_storeAll s id h xs (·.constants) fun _ _ _ ↦ rfl

@[simp] theorem isAlive_storeAll : (s.storeAll id h xs).isAlive = s.isAlive :=
  proj_storeAll s id h xs (·.isAlive) fun _ _ _ ↦ rfl

@[simp] theorem list?_storeAll (n : Nat) :
    (s.storeAll id h xs).engine.list? n = s.engine.list? n :=
  proj_storeAll s id h xs (·.engine.list? n) fun _ _ _ ↦ rfl

@[simp] theorem isLive_storeAll : (s.storeAll id h xs).engine.isLive g = s.engine.isLive g :=
  proj_storeAll s id h xs (·.engine.isLive g) fun s o x ↦ isLive_store s id h g o x

theorem setting?_storeAll_of_ne {s : State} (hne : g = h → ∀ y ∈ xs, o' ≠ y.1) :
    (s.storeAll id h xs).engine.setting? g o' = s.engine.setting? g o' := by
  induction xs generalizing s with
  | nil => rfl
  | cons x xs ih =>
    refine (ih fun hg y hy ↦ hne hg y (List.mem_cons_of_mem _ hy)).trans ?_
    exact setting?_store_of_ne _ _ _ _ _ _ fun hg ↦ hne hg x List.mem_cons_self

/-- What is stored afterwards was stored before or is among the new arguments. -/
theorem setting?_storeAll_cases {s : State} {y : Argument} (hl : s.engine.isLive h = true)
    (hy : (s.storeAll id h xs).engine.setting? h o' = some y) :
    (o', y) ∈ xs ∨ s.engine.setting? h o' = some y := by
  induction xs generalizing s with
  | nil => exact .inr hy
  | cons x xs ih =>
    rcases ih ((isLive_store ..).trans hl) hy with hm | hs
    · exact .inl (List.mem_cons_of_mem _ hm)
    · rw [setting?_store _ _ _ _ _ _ hl] at hs
      split at hs
      · next hc =>
        left
        rw [hc.2, ← Option.some.inj hs]
        exact List.mem_cons_self
      · exact .inr hs

/-- Where no two entries disagree, an argument that was there or is among the new ones is there
afterwards. -/
theorem setting?_storeAll {s : State} {y : Argument} (hl : s.engine.isLive h = true)
    (hxs : ∀ z ∈ xs, z.1 = o' → z.2 = y)
    (hy : s.engine.setting? h o' = some y ∨ (o', y) ∈ xs) :
    (s.storeAll id h xs).engine.setting? h o' = some y := by
  induction xs generalizing s with
  | nil => exact hy.resolve_right List.not_mem_nil
  | cons x xs ih =>
    refine ih ((isLive_store ..).trans hl) (fun z hz ↦ hxs z (List.mem_cons_of_mem _ hz)) ?_
    by_cases hx : x.1 = o'
    · -- From here on the argument is there, whatever was there before.
      left
      rw [setting?_store _ _ _ _ _ _ hl, if_pos ⟨rfl, hx.symm⟩, hxs x List.mem_cons_self hx]
    · rw [setting?_store_of_ne _ _ _ _ _ _ fun _ ↦ Ne.symm hx]
      refine hy.imp_right fun hm ↦ ?_
      rcases List.mem_cons.1 hm with rfl | hm
      · exact absurd rfl hx
      · exact hm

end

end

end State

end NativeTransfer
