import NativeTransfer.Proofs.Registration

/-!
# Wrappers without a handle

A wrapper without a handle has nothing else either, and it never gets a handle again. It is not in
the registry, so no callback can leave anything in its slots, and every step that is about another
wrapper leaves it as it was. Its number is not given again, so this goes for wrappers that are gone
as well.

## Who can still change it

A wrapper without a handle could be changed by a callback, by a step of its own, or by one that
takes its number. A callback is called only for a wrapper that is served, and it is served by its
handle (`Spares`). Its own steps need the handle and fail without one, and those that do not need it
find nothing to give up. And numbers are used up one by one, so no new wrapper has its number
(`Effect.opened_le`). `Effect.wrapper_cases` puts the three together for every step.
-/

namespace NativeTransfer

open State Wrapper

/-- A wrapper that has nothing left. -/
structure Wrapper.Bare (w : Wrapper) : Prop where
  handle : w.handle = none
  ledger : w.ledger = []
  slots : w.slots = {}

namespace State

/-- Wrappers that are not served are as they were, and served are those that were. -/
structure Spares (s t : State) : Prop where
  served : t.served = s.served
  wrapper : ∀ j, (∀ a, s.served a ≠ some j) → t.wrapper j = s.wrapper j

theorem Spares.of_same {s t : State} (hw : t.wrappers = s.wrappers)
    (hr : t.registry = s.registry) : s.Spares t := by
  have halive : t.isAlive = s.isAlive := by
    funext j
    rw [isAlive, isAlive, hw]
  refine ⟨?_, fun j _ ↦ wrapper_congr hw j⟩
  funext a
  rw [State.served, State.served, hr, halive]

/-- Callbacks are called for wrappers that are served, and for no others. -/
theorem stirred_spares : Stirred Spares where
  refl _ := .of_same rfl rfl
  trans _ _ _ h h' := by
    refine ⟨h'.served.trans h.served, fun j hj ↦ (h'.wrapper j ?_).trans (h.wrapper j hj)⟩
    rw [h.served]
    exact hj
  engine _ _ _ _ := .of_same rfl rfl
  event _ _ _ := .of_same rfl rfl
  settled _ _ _ := .of_same rfl rfl
  slots s id a x ha _ := by
    refine ⟨?_, fun j hj ↦ ?_⟩
    · funext b
      rw [served, served, withSlots, isAlive_modifyWrapper]
      rfl
    · rw [withSlots, wrapper_modifyWrapper_eq, if_neg]
      rintro ⟨rfl, -⟩
      exact hj a ha

end State

theorem Step.spares_of_pass {x : Step} (hx : x.isRequest = true) (s : State) :
    s.Spares (x.pass s).after := by
  refine Step.pass_of_leads (P := fun _ t ↦ s.Spares t)
    (Step.request stirred_spares hx (fun id i _ h t ↦ ?_) s)
  exact (drifts_getList h i t).mono (fun _ _ ht ↦ .of_same ht.wrappers ht.registry)
    fun _ _ ht ↦ .of_same ht.wrappers ht.registry

section

variable {s t : State} {x : Step} {r : Except Error WrapperId} {id j : WrapperId} {h : Nat}

theorem wrapper_modifyWrapper_of_ne (s : State) (hj : j ≠ id) (f : Wrapper → Wrapper) :
    (s.modifyWrapper id f).wrapper j = s.wrapper j := by
  rw [wrapper_modifyWrapper_eq, if_neg fun hc ↦ hj hc.1]

theorem wrapper_unlink_of_ne (s : State) (hj : j ≠ id) (closed : Bool) :
    (s.unlink id h closed).wrapper j = s.wrapper j := by
  have hw := wrapper_modifyWrapper_of_ne s hj ({ · with handle := none })
  cases closed with
  | false => exact hw
  | true => exact hw

theorem State.Ended.wrapper_of_ne (hu : s.Ended id t) (hj : j ≠ id) :
    t.wrapper j = s.wrapper j := by
  cases hu with
  | unserved => exact wrapper_modifyWrapper_of_ne s hj _
  | served closed =>
    exact (wrapper_modifyWrapper_of_ne _ hj _).trans (wrapper_unlink_of_ne s hj closed)

theorem Wrapper.Touched.wrapper_of_ne {o : OptionCode} {f : Slots → Slots} {as : List Allocation}
    {xs : List (OptionCode × Argument)} (ht : Touched s id h o f as xs t) (hj : j ≠ id) :
    t.wrapper j = s.wrapper j := by
  rw [ht.drift.wrapper, wrapper_storeAll]
  exact (wrapper_modifyWrapper_of_ne _ hj _).trans (wrapper_modifyWrapper_of_ne s hj _)

/-- A step leaves a wrapper what handle it had, and bare if it was; or it leaves it bare; or with a
handle, and it has one then that had one before or is new. -/
theorem Effect.wrapper_cases (hc : s.Coherent) (hr : s.Registered) (he : Effect s x r t)
    (hreq : x.isRequest = true → s.Spares t) (j : WrapperId) :
    ((t.wrapper j).handle = (s.wrapper j).handle ∧ ((s.wrapper j).Bare → (t.wrapper j).Bare)) ∨
      (t.wrapper j).Bare ∨
      (t.wrapper j).handle.isSome = true ∧
        ((s.wrapper j).handle.isSome = true ∨ j = s.opened) := by
  have hbare : ({} : Wrapper).Bare := ⟨rfl, rfl, rfl⟩
  have hhad {w : Wrapper} {h : Nat} (hw : w.handle = some h) : w.handle.isSome = true := by
    rw [hw]
    rfl
  have hsame {w w' : Wrapper} (hw : w' = w) : w'.handle = w.handle ∧ (w.Bare → w'.Bare) := by
    rw [hw]
    exact ⟨rfl, id⟩
  have hn := hc.numbered
  cases he with
  | request hx hd =>
    cases hh : (s.wrapper j).handle with
    | none =>
      -- The registry knows of it by its handle alone, so no callback can be called for it.
      have hw : t.wrapper j = s.wrapper j := by
        refine (hreq hx).wrapper j fun a ha ↦ ?_
        obtain ⟨g, -, hg⟩ := (hr.get?_iff a j).1 (Option.filter_eq_some_iff.1 ha).1
        rw [hh] at hg
        cases hg
      rw [← hh]
      exact .inl (hsame hw)
    | some h =>
      obtain ⟨y, -, hw⟩ := hd.wrapper j
      refine .inr (.inr ⟨?_, .inl rfl⟩)
      rw [hw]
      exact hhad hh
  | failed hd => exact .inl (hsame (hd.wrapper j))
  | @set id h _ _ _ _ hh ha =>
    by_cases hj : j = id
    · subst hj
      exact .inr (.inr ⟨hhad (ha.handle hh), .inl (hhad hh)⟩)
    · obtain ⟨f, as, xs, ht⟩ := ha.touched
      exact .inl (hsame (ht.wrapper_of_ne hj))
  | @made api h _ _ hd =>
    rw [hd.wrapper]
    by_cases hj : j = s.opened
    · subst hj
      rw [wrapper_make hn]
      exact .inr (.inr ⟨rfl, .inr rfl⟩)
    · exact .inl (hsame ((wrapper_adopt_told hn _ _ _ h api j).trans (if_neg hj)))
  | @bundled api h _ _ _ _ ha =>
    by_cases hj : j = s.opened
    · subst hj
      have hh : ((s.make h api).wrapper s.opened).handle = some h := by rw [wrapper_make hn]
      exact .inr (.inr ⟨hhad (ha.handle hh), .inr rfl⟩)
    · obtain ⟨f, as, xs, ht⟩ := ha.touched
      refine .inl (hsame ((ht.wrapper_of_ne hj).trans ?_))
      exact (wrapper_adopt_told hn _ _ _ h api j).trans (if_neg hj)
  | @twinned id g h _ _ _ hd =>
    rw [hd.wrapper, wrapper_storeAll]
    by_cases hj : j = s.opened
    · subst hj
      rw [wrapper_twin hn]
      exact .inr (.inr ⟨rfl, .inr rfl⟩)
    · exact .inl (hsame (wrapper_twin_of_ne hn id g h hj))
  | @undone id g h _ done closed _ _ _ _ _ _ hd =>
    rw [hd.wrapper]
    by_cases hj : j = s.opened
    · subst hj
      rw [wrapper_remove_self]
      exact .inr (.inl hbare)
    · refine .inl (hsame ((wrapper_remove_of_ne _ hj).trans ?_))
      refine (wrapper_modifyWrapper_of_ne _ hj _).trans ?_
      refine (wrapper_unlink_of_ne _ hj closed).trans ?_
      rw [wrapper_storeAll]
      exact wrapper_twin_of_ne hn id g h hj
  | @wiped id h _ _ hh _ hd =>
    rw [hd.wrapper]
    by_cases hj : j = id
    · subst hj
      exact .inr (.inr ⟨hhad ((handle_empty (s.clear _ h) j j).trans hh), .inl (hhad hh)⟩)
    · exact .inl (hsame (wrapper_modifyWrapper_of_ne _ hj _))
  | @released id mark _ _ _ hd =>
    refine .inl ⟨(Steady.of_cut hd).handle, fun hbare ↦ ?_⟩
    rw [hd.wrapper, cut, wrapper_modifyWrapper_eq]
    split
    · refine ⟨hbare.handle, ?_, hbare.slots⟩
      rw [hbare.ledger]
      exact List.take_nil
    · exact hbare
  | @cleaned id u _ _ hu _ hd =>
    rw [hd.wrapper]
    by_cases hj : j = id
    · subst hj
      exact .inr (.inl ⟨hu.spec.1, hu.spec.2.1, hu.slots⟩)
    · exact .inl (hsame (hu.wrapper_of_ne hj))
  | @dropped id u _ _ hu _ hd =>
    rw [hd.wrapper]
    by_cases hj : j = id
    · subst hj
      rw [wrapper_remove_self]
      exact .inr (.inl hbare)
    · exact .inl (hsame ((wrapper_remove_of_ne u hj).trans (hu.wrapper_of_ne hj)))

/-- Numbers of wrappers are used up one by one. -/
theorem Effect.opened_le (hn : s.Numbered) (he : Effect s x r t) : s.opened ≤ t.opened := by
  cases he with
  | request _ hd => exact Nat.le_of_eq hd.drift.opened.symm
  | failed hd => exact Nat.le_of_eq hd.opened.symm
  | set _ ha =>
    obtain ⟨f, as, xs, ht⟩ := ha.touched
    exact Nat.le_of_eq ht.opened.symm
  | made _ hd =>
    rw [hd.opened]
    exact Nat.le_succ _
  | bundled _ ha =>
    obtain ⟨f, as, xs, ht⟩ := ha.touched
    rw [ht.opened]
    exact Nat.le_succ _
  | twinned _ _ hd =>
    rw [hd.opened, opened_storeAll]
    exact Nat.le_succ _
  | @undone id g h _ done closed _ _ _ _ _ _ hd =>
    rw [hd.opened, (ids_undone hn id g h done closed).2]
    exact Nat.le_succ _
  | wiped _ _ hd => exact Nat.le_of_eq hd.opened.symm
  | released _ hd => exact Nat.le_of_eq hd.opened.symm
  | cleaned hu _ hd => exact Nat.le_of_eq (hd.opened.trans hu.spec.2.2.2).symm
  | dropped hu _ hd => exact Nat.le_of_eq (hd.opened.trans hu.spec.2.2.2).symm

/-! ## Runs -/

theorem State.Registered.start (policy : Policy) (host : Host) (settled : Settled) :
    (State.start policy host settled).Registered := by
  refine ⟨List.nodup_nil, fun a id ↦ iff_of_false nofun ?_⟩
  rintro ⟨h, -, hh⟩
  cases hh

/-- Wrappers without a handle are bare. -/
def State.Tidy (s : State) : Prop := ∀ j, (s.wrapper j).handle = none → (s.wrapper j).Bare

theorem tidy_step (hc : s.Coherent) (hr : s.Registered) (he : Effect s x r t)
    (hreq : x.isRequest = true → s.Spares t) (hs : s.Tidy) : t.Tidy := by
  intro j hnone
  rcases he.wrapper_cases hc hr hreq j with ⟨hsame, hkept⟩ | hbare | ⟨hsome, -⟩
  · exact hkept (hs j (hsame.symm.trans hnone))
  · exact hbare
  · rw [hnone] at hsome
    cases hsome

theorem spent_step (hc : s.Coherent) (hr : s.Registered) (he : Effect s x r t)
    (hreq : x.isRequest = true → s.Spares t) (hj : j < s.opened)
    (hnone : (s.wrapper j).handle = none) : (t.wrapper j).handle = none := by
  rcases he.wrapper_cases hc hr hreq j with ⟨hsame, -⟩ | hbare | ⟨-, hsome | rfl⟩
  · exact hsame.trans hnone
  · exact hbare.handle
  · rw [hnone] at hsome
    cases hsome
  · exact absurd hj (Nat.lt_irrefl _)

namespace State.Orderly

variable {xs : List Step}

theorem tidy (hc : s.Coherent) (hr : s.Registered) (hs : s.Tidy) (ho : s.Orderly xs) :
    (s.after xs).Tidy := by
  have hall := ho.preserved hc (P := fun t ↦ t.Registered ∧ t.Tidy)
    (Q := fun p ↦ p.step.isRequest = true → p.before.Spares p.after) ⟨hr, hs⟩
    (fun hcoh he hreq ih ↦ ⟨registered_step hcoh he ih.1, tidy_step hcoh ih.1 he hreq ih.2⟩)
  refine (hall fun p hp hreq ↦ ?_).2
  obtain ⟨ys, y, zs, rfl, rfl⟩ := exists_of_mem_passages hp
  exact Step.spares_of_pass hreq _

theorem spent (hc : s.Coherent) (hr : s.Registered) (ho : s.Orderly xs) (hj : j < s.opened)
    (hnone : (s.wrapper j).handle = none) : ((s.after xs).wrapper j).handle = none := by
  have hall := ho.preserved hc (P := fun t ↦ t.Registered ∧ j < t.opened ∧
      (t.wrapper j).handle = none)
    (Q := fun p ↦ p.step.isRequest = true → p.before.Spares p.after) ⟨hr, hj, hnone⟩
    (fun hcoh he hreq ih ↦ ⟨registered_step hcoh he ih.1,
      Nat.lt_of_lt_of_le ih.2.1 (he.opened_le hcoh.numbered),
      spent_step hcoh ih.1 he hreq ih.2.1 ih.2.2⟩)
  refine (hall fun p hp hreq ↦ ?_).2.2
  obtain ⟨ys, y, zs, rfl, rfl⟩ := exists_of_mem_passages hp
  exact Step.spares_of_pass hreq _

end State.Orderly

end

end NativeTransfer
