import Mathlib.Data.List.Induction
import NativeTransfer.Proofs.Frame

/-!
# Coherent states

In every state that a run comes to, wrappers have live handles of their own, the lists that a ledger
records are there and were not freed, and a list is recorded as one and the same allocation wherever
it is recorded. From this it follows that a step leaves every wrapper alone but its own, and it is
preserved by every step, if handles are never given while they are in use.

## Why each part is needed

Wrappers have numbers of their own, and none is given twice. A live handle belongs to one wrapper,
so what is stored for it is of no concern to any other. A list that a ledger records is there and
was not freed, and it is one and the same allocation wherever it is recorded; hence a wrapper that
gives up its ledger frees no list that another one still records.

## Runs

Preservation is by cases on `Effect`, with one lemma for each transformer. All of it rests on one
thing that the library cannot see to: that the engine gives no handle out while it is in use.
`State.Orderly` asks for that of every step of a run, and `State.Orderly.preserved` is the induction
that all invariants of runs go through. The numbering alone needs no such thing.
-/

namespace NativeTransfer

open State Wrapper

namespace State

/-- Wrappers share nothing but the lists that they mean to share. -/
structure Coherent (s : State) : Prop where
  numbered : s.Numbered
  live : ∀ j h, (s.wrapper j).handle = some h → s.engine.isLive h = true
  apart : ∀ i j h, (s.wrapper i).handle = some h → (s.wrapper j).handle = some h → i = j
  intact : ∀ j, ∀ a ∈ (s.wrapper j).ledger, ∀ n, a.nativeList? = some n →
    ∃ l, s.engine.list? n = some l ∧ l.freed = false
  single : ∀ i j, ∀ a ∈ (s.wrapper i).ledger, ∀ b ∈ (s.wrapper j).ledger, ∀ n,
    a.nativeList? = some n → b.nativeList? = some n → a = b

theorem wrapper_of_notMem {s : State} {j : WrapperId} (hj : j ∉ s.ids) : s.wrapper j = {} := by
  rw [← isAlive_iff, isAlive, Bool.not_eq_true, Option.isSome_eq_false_iff,
    Option.isNone_iff_eq_none] at hj
  rw [wrapper, hj, Option.getD_none]

theorem mem_ids_of_handle {s : State} {j : WrapperId} {h : Nat}
    (hh : (s.wrapper j).handle = some h) : j ∈ s.ids := isAlive_iff.1 (isAlive_of_handle hh)

namespace Coherent

variable {s t : State}

theorem handle_ne (hc : Coherent s) {h : Nat} (hnew : s.engine.settings? h = none)
    (j : WrapperId) : (s.wrapper j).handle ≠ some h := by
  intro hh
  have hlive := hc.live j h hh
  rw [Engine.isLive, hnew] at hlive
  cases hlive

theorem notMem_loose (hc : Coherent s) {id j : WrapperId} {loose : List Nat}
    (hown : OwnLists s id loose) (hj : j ≠ id) :
    ∀ a ∈ (s.wrapper j).ledger, ∀ n, a.nativeList? = some n → n ∉ loose := by
  intro a ha n hn hmem
  obtain ⟨b, hb, hbn, hnot⟩ := hown n hmem
  have heq := hc.single j id a ha b hb n hn hbn
  exact hnot j hj (heq ▸ ha)

theorem opened_ne (hc : Coherent s) {j : WrapperId} (hj : j ∈ s.ids) : j ≠ s.opened :=
  Nat.ne_of_lt (hc.numbered.below j hj)

/-- What is to be shown of a state in which all wrappers but one are as they were. -/
theorem of_keeps (hc : Coherent s) (hn : t.Numbered) (id : WrapperId)
    (hk : ∀ j ∈ t.ids, j ≠ id → Keeps s t j)
    (hlive : ∀ h, (t.wrapper id).handle = some h →
      t.engine.isLive h = true ∧ ∀ j ∈ t.ids, j ≠ id → (s.wrapper j).handle ≠ some h)
    (hledger : ∀ a ∈ (t.wrapper id).ledger, ∀ n, a.nativeList? = some n →
      (∃ l, t.engine.list? n = some l ∧ l.freed = false) ∧
      (∀ j ∈ t.ids, j ≠ id → ∀ b ∈ (s.wrapper j).ledger, b.nativeList? = some n → b = a) ∧
      ∀ b ∈ (t.wrapper id).ledger, b.nativeList? = some n → b = a) : Coherent t := by
  have hmem {j : WrapperId} {a : Allocation} (ha : a ∈ (t.wrapper j).ledger) : j ∈ t.ids := by
    by_contra hj
    rw [wrapper_of_notMem hj] at ha
    exact absurd ha List.not_mem_nil
  -- A law speaks of one wrapper or of two, and each of them may be the one that has changed.
  refine ⟨hn, fun j h hh ↦ ?_, fun i j h hi hj ↦ ?_, fun j a ha n han ↦ ?_, ?_⟩
  · by_cases hj : j = id
    · subst hj
      exact (hlive h hh).1
    · have hkj := hk j (mem_ids_of_handle hh) hj
      rw [hkj.handle] at hh
      rw [Engine.isLive, hkj.table h hh]
      exact hc.live j h hh
  · by_cases hi' : i = id
    · by_cases hj' : j = id
      · rw [hi', hj']
      · have hkj := hk j (mem_ids_of_handle hj) hj'
        subst hi'
        exact absurd (hkj.handle ▸ hj) ((hlive h hi).2 j (mem_ids_of_handle hj) hj')
    · have hki := hk i (mem_ids_of_handle hi) hi'
      by_cases hj' : j = id
      · subst hj'
        exact absurd (hki.handle ▸ hi) ((hlive h hj).2 i (mem_ids_of_handle hi) hi')
      · have hkj := hk j (mem_ids_of_handle hj) hj'
        exact hc.apart i j h (hki.handle ▸ hi) (hkj.handle ▸ hj)
  · by_cases hj : j = id
    · subst hj
      exact (hledger a ha n han).1
    · have hkj := hk j (hmem ha) hj
      rw [hkj.ledger] at ha
      obtain ⟨l, hl, hfreed⟩ := hc.intact j a ha n han
      exact ⟨l, hkj.lists a ha n han l hl, hfreed⟩
  · intro i j a ha b hb n han hbn
    by_cases hi : i = id
    · subst hi
      by_cases hj : j = i
      · subst hj
        exact ((hledger a ha n han).2.2 b hb hbn).symm
      · have hb' := (hk j (hmem hb) hj).ledger ▸ hb
        exact ((hledger a ha n han).2.1 j (hmem hb) hj b hb' hbn).symm
    · have ha' := (hk i (hmem ha) hi).ledger ▸ ha
      by_cases hj : j = id
      · subst hj
        exact (hledger b hb n hbn).2.1 i (hmem ha) hi a ha' han
      · exact hc.single i j a ha' b ((hk j (hmem hb) hj).ledger ▸ hb) n han hbn

end Coherent

end State

/-! ## What setting an option leaves alone -/

namespace Wrapper.Touched

variable {s t : State} {id : WrapperId} {h : Nat} {o : OptionCode} {f : Slots → Slots}
  {as : List Allocation} {xs : List (OptionCode × Argument)}

theorem keeps (ht : Touched s id h o f as xs t) {j : WrapperId} (hj : j ≠ id)
    (hne : (s.wrapper j).handle ≠ some h) : Keeps s t j := by
  have hk := (Keeps.modifyWrapper (s := s) hj fun w ↦ { w with slots := f w.slots }).trans
    (Keeps.modifyWrapper hj fun w ↦ { w with ledger := w.ledger ++ as })
  refine (hk.trans (Keeps.storeAll ?_ id xs)).trans (.of_drift_nil ht.drift)
  rw [hk.handle]
  exact hne

theorem ids (ht : Touched s id h o f as xs t) : t.ids = s.ids := by
  rw [ht.drift.ids, ids_storeAll, recordAll, ids_modifyWrapper, withSlots, ids_modifyWrapper]

theorem opened (ht : Touched s id h o f as xs t) : t.opened = s.opened := by
  rw [ht.drift.opened, opened_storeAll]
  rfl

theorem isLive (ht : Touched s id h o f as xs t) (g : Nat) :
    t.engine.isLive g = s.engine.isLive g := by
  rw [ht.drift.isLive, isLive_storeAll]
  rfl

theorem list? (ht : Touched s id h o f as xs t) {n : Nat} {l : StringList}
    (hl : s.engine.list? n = some l) : t.engine.list? n = some l := by
  refine ht.drift.lists n List.not_mem_nil l ?_
  rw [list?_storeAll]
  exact hl

theorem constants (ht : Touched s id h o f as xs t) : t.constants = s.constants := by
  rw [ht.drift.constants, constants_storeAll]
  rfl

theorem wrapper (ht : Touched s id h o f as xs t) (ha : s.isAlive id = true) :
    t.wrapper id =
      { s.wrapper id with
        slots := f (s.wrapper id).slots
        ledger := (s.wrapper id).ledger ++ as } := by
  rw [ht.drift.wrapper, wrapper_storeAll, recordAll, withSlots, modifyWrapper_modifyWrapper,
    wrapper_modifyWrapper s ha, if_pos rfl]

theorem setting? (ht : Touched s id h o f as xs t) {o' : OptionCode} (hne : o' ≠ o)
    (hm : o'.HoldsMemory) : t.engine.setting? h o' = s.engine.setting? h o' := by
  rw [ht.drift.setting?, setting?_storeAll_of_ne]
  · rfl
  · rintro - x hx rfl
    rcases ht.options x hx with he | he
    · exact hne he
    · exact he hm

end Wrapper.Touched

theorem Wrapper.AfterSetopt.handle {s t : State} {id : WrapperId} {h : Nat} {o : OptionCode}
    {v : Value} {r : Except Error Unit} (hh : (s.wrapper id).handle = some h)
    (ha : AfterSetopt s id h o v r t) : (t.wrapper id).handle = some h := by
  obtain ⟨f, as, xs, ht⟩ := ha.touched
  rw [ht.wrapper (isAlive_of_handle hh)]
  exact hh

/-! ## What a step leaves alone -/

section

variable {s t : State} {x : Step} {r : Except Error WrapperId} {j : WrapperId}

theorem State.Ended.keeps {id : WrapperId} (hc : s.Coherent) (hu : s.Ended id t) (hj : j ≠ id) :
    Keeps s t j := by
  cases hu with
  | unserved => exact .empty hj
  | served closed hh =>
    refine (Keeps.unlink (fun hh' ↦ hj (hc.apart j id _ hh' hh)) hj closed).trans ?_
    exact .empty hj

theorem State.Coherent.keeps_make (hc : s.Coherent) {h : Nat} (hnew : s.engine.settings? h = none)
    (api : Api) (hj : j ≠ s.opened) : Keeps s (s.make h api) j :=
  (Keeps.begin (hc.handle_ne hnew j) _).trans
    (.adopt (hc.numbered.told _ _ _) hj h api)

theorem State.Coherent.keeps_twin (hc : s.Coherent) {h : Nat} (hnew : s.engine.settings? h = none)
    (id : WrapperId) (g : Nat) (hj : j ≠ s.opened) : Keeps s (s.twin id g h) j :=
  ((Keeps.copy (hc.handle_ne hnew j) _ g).trans (.adopt (hc.numbered.told _ _ _) hj h _)).trans
    (.modifyWrapper hj _)

/-- Whatever a twin records its source records too, so nothing is freed with it. -/
theorem State.Coherent.loose_twin (hc : s.Coherent) {id : WrapperId} {g h : Nat} {loose : List Nat}
    {done : List (OptionCode × Argument)} (hnew : s.engine.settings? h = none)
    (hh : (s.wrapper id).handle = some g)
    (hown : OwnLists ((s.twin id g h).storeAll s.opened h done) s.opened loose) : loose = [] := by
  refine List.eq_nil_iff_forall_not_mem.2 fun n hn ↦ ?_
  obtain ⟨a, ha, -, hnot⟩ := hown n hn
  have hne : id ≠ s.opened := hc.opened_ne (mem_ids_of_handle hh)
  have hk := hc.keeps_twin hnew id g hne
  rw [wrapper_storeAll, wrapper_twin hc.numbered] at ha
  refine hnot id hne ?_
  rw [wrapper_storeAll, hk.ledger]
  exact List.mem_of_mem_filter ha

/-- A step leaves every wrapper alone but its own. -/
theorem Effect.keeps (hc : s.Coherent) (he : Effect s x r t) (hj : x.makes = true → j ≠ s.opened)
    (hx : x.target? ≠ some j) : Keeps s t j := by
  cases he with
  | request _ hd => exact .of_stir hd
  | failed hd => exact .of_drift_nil hd
  | @set id h _ _ _ _ hh ha =>
    have hne : j ≠ id := fun he ↦ hx (by rw [he]; rfl)
    obtain ⟨f, as, xs, ht⟩ := ha.touched
    exact ht.keeps hne fun hh' ↦ hne (hc.apart j id h hh' hh)
  | made hnew hd => exact (hc.keeps_make hnew _ (hj rfl)).trans (.of_drift_nil hd)
  | @bundled api h _ _ _ hnew ha =>
    have hk := hc.keeps_make hnew api (hj rfl)
    obtain ⟨f, as, xs, ht⟩ := ha.touched
    refine hk.trans (ht.keeps (hj rfl) ?_)
    rw [hk.handle]
    exact hc.handle_ne hnew j
  | @twinned id g h _ hh hnew hd =>
    have hk := hc.keeps_twin hnew id g (hj rfl)
    refine hk.trans ((Keeps.storeAll ?_ _ _).trans (.of_drift_nil hd))
    rw [hk.handle]
    exact hc.handle_ne hnew j
  | @undone id g h loose done closed _ _ hh hnew hpre hown hd =>
    obtain rfl := hc.loose_twin hnew hh hown
    have hne : (s.wrapper j).handle ≠ some h := hc.handle_ne hnew j
    have hnew' := hj rfl
    have hk := hc.keeps_twin hnew id g hnew'
    have hk' := hk.trans (Keeps.storeAll (h := h) (hk.handle ▸ hne) s.opened done)
    have hk'' := (hk'.trans (.unlink (hk'.handle ▸ hne) hnew' closed)).trans (.empty hnew')
    exact (hk''.trans (.remove hnew')).trans (.of_drift_nil hd)
  | @wiped id h loose _ hh hown hd =>
    have hne : j ≠ id := fun he ↦ hx (by rw [he]; rfl)
    have hk : Keeps s ((s.clear (s.wrapper id).api.route h).empty id) j :=
      (Keeps.clear (fun hh' ↦ hne (hc.apart j id h hh' hh)) _).trans (.empty hne)
    refine hk.trans (.of_drift hd ?_)
    rw [hk.ledger]
    exact hc.notMem_loose hown hne
  | @released id mark loose _ ho hd =>
    have hne : j ≠ id := fun he ↦ hx (by rw [he]; rfl)
    have hk : Keeps s (s.cut id mark) j := .modifyWrapper hne _
    refine hk.trans (.of_drift hd ?_)
    rw [hk.ledger]
    exact hc.notMem_loose ho.ownLists hne
  | @cleaned id u loose _ hu hown hd =>
    have hne : j ≠ id := fun he ↦ hx (by rw [he]; rfl)
    have hk := hu.keeps hc hne
    refine hk.trans (.of_drift hd ?_)
    rw [hk.ledger]
    exact hc.notMem_loose hown hne
  | @dropped id u loose _ hu hown hd =>
    have hne : j ≠ id := fun he ↦ hx (by rw [he]; rfl)
    have hk := (hu.keeps hc hne).trans (.remove hne)
    refine hk.trans (.of_drift hd ?_)
    rw [hk.ledger]
    exact hc.notMem_loose hown hne

/-! ## Coherence is preserved -/

theorem State.Numbered.of_ids (hn : s.Numbered) (hids : t.ids = s.ids) (ho : t.opened = s.opened) :
    t.Numbered where
  nodup := by
    rw [hids]
    exact hn.nodup
  below := by
    rw [hids, ho]
    exact hn.below

theorem State.Coherent.of_keeps_all (hc : s.Coherent) (hn : t.Numbered)
    (hk : ∀ j ∈ t.ids, Keeps s t j) : t.Coherent := by
  refine hc.of_keeps hn t.opened (fun j hj _ ↦ hk j hj) ?_ ?_
  · intro h hh
    rw [wrapper_of_notMem hn.notMem] at hh
    cases hh
  · intro a ha
    rw [wrapper_of_notMem hn.notMem] at ha
    exact absurd ha List.not_mem_nil

theorem State.Coherent.of_touched (hc : s.Coherent) {id : WrapperId} {h : Nat} {o : OptionCode}
    {f : Slots → Slots} {as : List Allocation} {xs : List (OptionCode × Argument)}
    (hh : (s.wrapper id).handle = some h) (ht : Touched s id h o f as xs t) : t.Coherent := by
  have hw := ht.wrapper (isAlive_of_handle hh)
  have hids := ht.ids
  refine hc.of_keeps (hc.numbered.of_ids hids ht.opened) id (fun j _ hne ↦ ?_) ?_ ?_
  · exact ht.keeps hne fun hh' ↦ hne (hc.apart j id h hh' hh)
  · intro g hg
    rw [hw] at hg
    refine ⟨?_, fun j _ hne hh' ↦ hne (hc.apart j id g hh' hg)⟩
    rw [ht.isLive]
    exact hc.live id g hg
  · -- A list among what is new was none before, so nothing old can record it.
    have hold {j : WrapperId} {b : Allocation} {n : Nat} (hb : b ∈ (s.wrapper j).ledger)
        (hbn : b.nativeList? = some n) : s.engine.list? n ≠ none := by
      obtain ⟨l, hl, -⟩ := hc.intact j b hb n hbn
      rw [hl]
      exact nofun
    rw [hw]
    intro a ha n han
    rcases List.mem_append.1 ha with ha | ha
    · obtain ⟨l, hl, hfreed⟩ := hc.intact id a ha n han
      refine ⟨⟨l, ht.list? hl, hfreed⟩, fun j _ _ b hb hbn ↦ hc.single j id b hb a ha n hbn han, ?_⟩
      intro b hb hbn
      rcases List.mem_append.1 hb with hb | hb
      · exact hc.single id id b hb a ha n hbn han
      · exact absurd (ht.lists b hb n hbn).1 (hold ha han)
    · obtain ⟨hnone, hintact, hsame⟩ := ht.lists a ha n han
      refine ⟨hintact, fun j _ _ b hb hbn ↦ absurd hnone (hold hb hbn), fun b hb hbn ↦ ?_⟩
      rcases List.mem_append.1 hb with hb | hb
      · exact absurd hnone (hold hb hbn)
      · exact hsame b hb hbn

theorem State.Coherent.make (hc : s.Coherent) {h : Nat} (hnew : s.engine.settings? h = none)
    (api : Api) : (s.make h api).Coherent := by
  have hw := wrapper_make hc.numbered h api
  refine hc.of_keeps ((hc.numbered.told _ _ _).adopt h api) s.opened
    (fun j _ hne ↦ hc.keeps_make hnew api hne) ?_ ?_
  · intro g hg
    rw [hw] at hg
    obtain rfl := Option.some.inj hg
    refine ⟨?_, fun j _ _ ↦ hc.handle_ne hnew j⟩
    have hset := settings?_begin s h h api.route
    rw [if_pos rfl] at hset
    exact congrArg Option.isSome hset
  · intro a ha
    rw [hw] at ha
    exact absurd ha List.not_mem_nil

theorem State.Numbered.twin (hn : s.Numbered) (id : WrapperId) (g h : Nat) :
    (s.twin id g h).Numbered :=
  ((hn.told _ _ _).adopt h _).of_ids (ids_modifyWrapper _ _ _) rfl

theorem State.Coherent.twin (hc : s.Coherent) {id : WrapperId} {g h : Nat}
    (hnew : s.engine.settings? h = none) (hid : id ∈ s.ids) : (s.twin id g h).Coherent := by
  have hw := wrapper_twin hc.numbered id g h
  refine hc.of_keeps (hc.numbered.twin id g h) s.opened
    (fun j _ hne ↦ hc.keeps_twin hnew id g hne) ?_ ?_
  · intro g' hg
    rw [hw] at hg
    obtain rfl := Option.some.inj hg
    refine ⟨?_, fun j _ _ ↦ hc.handle_ne hnew j⟩
    have hset := settings?_copy s g h (s.wrapper id).api.route h
    rw [if_pos rfl] at hset
    exact congrArg Option.isSome hset
  · rw [hw]
    intro a ha n han
    have ha' : a ∈ (s.wrapper id).ledger := List.mem_of_mem_filter ha
    have hk := hc.keeps_twin hnew id g (hc.opened_ne hid)
    obtain ⟨l, hl, hfreed⟩ := hc.intact id a ha' n han
    refine ⟨⟨l, hk.lists a ha' n han l hl, hfreed⟩, fun j _ _ b hb hbn ↦ ?_, fun b hb hbn ↦ ?_⟩
    · exact hc.single j id b hb a ha' n hbn han
    · exact hc.single id id b (List.mem_of_mem_filter hb) a ha' n hbn han

theorem setting?_twin (hc : s.Coherent) {id : WrapperId} {g h : Nat}
    (hg : (s.wrapper id).handle = some g) (o : OptionCode) :
    (s.twin id g h).engine.setting? h o = s.engine.setting? g o := by
  have htable : (s.twin id g h).engine.settings? h = some ((s.engine.settings? g).getD []) :=
    (settings?_copy s g h (s.wrapper id).api.route h).trans (if_pos rfl)
  obtain ⟨l, hl⟩ := Option.isSome_iff_exists.1 (hc.live id g hg)
  rw [Engine.setting?, Engine.setting?, htable, hl]
  rfl

/-- The engine's talk does not matter to coherence. -/
theorem State.Coherent.congr (hc : s.Coherent) (hw : t.wrappers = s.wrappers)
    (ho : t.opened = s.opened) (hlive : ∀ g, t.engine.isLive g = s.engine.isLive g)
    (hl : ∀ j, ∀ a ∈ (s.wrapper j).ledger, ∀ n, a.nativeList? = some n →
      ∀ l, s.engine.list? n = some l → t.engine.list? n = some l) : t.Coherent := by
  have hwrapper := wrapper_congr hw
  refine ⟨hc.numbered.of_ids (by rw [ids, ids, hw]) ho, fun j h hh ↦ ?_, ?_, ?_, ?_⟩
  · rw [hwrapper] at hh
    rw [hlive]
    exact hc.live j h hh
  · intro i j h hi hj
    rw [hwrapper] at hi hj
    exact hc.apart i j h hi hj
  · intro j a ha n han
    rw [hwrapper] at ha
    obtain ⟨l, hl', hfreed⟩ := hc.intact j a ha n han
    exact ⟨l, hl j a ha n han l hl', hfreed⟩
  · intro i j a ha b hb
    rw [hwrapper] at ha hb
    exact hc.single i j a ha b hb

theorem State.Coherent.drift (hc : s.Coherent) (hd : Drift [] s t) : t.Coherent :=
  hc.congr hd.wrappers hd.opened hd.isLive fun _ _ _ n _ l ↦ hd.lists n List.not_mem_nil l

theorem State.Coherent.storeAll (hc : s.Coherent) (id : WrapperId) (h : Nat)
    (xs : List (OptionCode × Argument)) : (s.storeAll id h xs).Coherent :=
  hc.congr (wrappers_storeAll ..) (opened_storeAll ..) (fun g ↦ isLive_storeAll s id h g xs)
    fun _ _ _ _ _ _ hl ↦ by rw [list?_storeAll]; exact hl

theorem State.Coherent.of_given_up (hc : s.Coherent) (hn : t.Numbered) {id : WrapperId}
    (hk : ∀ j ∈ t.ids, j ≠ id → Keeps s t j) (hledger : (t.wrapper id).ledger = [])
    (hlive : ∀ h, (t.wrapper id).handle = some h →
      (s.wrapper id).handle = some h ∧ t.engine.isLive h = true) : t.Coherent := by
  refine hc.of_keeps hn id hk (fun h hh ↦ ?_) ?_
  · obtain ⟨hs, ht⟩ := hlive h hh
    exact ⟨ht, fun j _ hne hh' ↦ hne (hc.apart j id h hh' hs)⟩
  · rw [hledger]
    exact nofun

theorem ledger_cut_self (s : State) (id : WrapperId) (mark : Nat) :
    ((s.cut id mark).wrapper id).ledger = (s.wrapper id).ledger.before mark := by
  rw [cut, wrapper_modifyWrapper_eq]
  split
  · rfl
  · next hnot =>
    rw [wrapper_of_notMem fun hm ↦ hnot ⟨rfl, isAlive_iff.2 hm⟩]
    exact List.take_nil.symm

theorem mem_ledger_of_cut {id j : WrapperId} {mark : Nat} {a : Allocation}
    (ha : a ∈ ((s.cut id mark).wrapper j).ledger) : a ∈ (s.wrapper j).ledger := by
  by_cases hj : j = id
  · rw [hj, ledger_cut_self] at ha
    exact hj ▸ List.mem_of_mem_take ha
  · exact ledger_cut_of_ne s hj mark ▸ ha

theorem State.Coherent.notMem_orphaned (hc : s.Coherent) {id j : WrapperId} {mark n : Nat}
    {loose : List Nat} (ho : Orphaned s id mark loose) {a : Allocation}
    (ha : a ∈ ((s.cut id mark).wrapper j).ledger) (han : a.nativeList? = some n) : n ∉ loose := by
  intro hn
  obtain ⟨b, hb, hbn, hnot⟩ := ho n hn
  exact hnot j (hc.single j id a (mem_ledger_of_cut ha) b hb n han hbn ▸ ha)

/-- A wrapper whose ledger is cut loses no list that somebody still has. -/
theorem State.Coherent.of_cut (hc : s.Coherent) (hn : t.Numbered) {id : WrapperId} {mark : Nat}
    {loose : List Nat} (ho : Orphaned s id mark loose) (hd : Drift loose (s.cut id mark) t) :
    t.Coherent := by
  refine ⟨hn, fun j h hh ↦ ?_, fun i j h hi hj ↦ ?_, fun j a ha n han ↦ ?_, ?_⟩
  · rw [hd.isLive]
    exact hc.live j h ((Steady.of_cut hd).handle.symm.trans hh)
  · have hsame (k : WrapperId) := (Steady.of_cut (j := k) hd).handle
    exact hc.apart i j h ((hsame i).symm.trans hi) ((hsame j).symm.trans hj)
  · rw [hd.wrapper] at ha
    obtain ⟨l, hl, hfreed⟩ := hc.intact j a (mem_ledger_of_cut ha) n han
    exact ⟨l, hd.lists n (hc.notMem_orphaned ho ha han) l hl, hfreed⟩
  · intro i j a ha b hb
    rw [hd.wrapper] at ha hb
    exact hc.single i j a (mem_ledger_of_cut ha) b (mem_ledger_of_cut hb)

theorem wrapper_empty (s : State) (id : WrapperId) :
    ((s.empty id).wrapper id).ledger = [] ∧ ((s.empty id).wrapper id).slots = {} := by
  rw [State.empty, wrapper_modifyWrapper_eq]
  by_cases ha : id = id ∧ s.isAlive id = true
  · rw [if_pos ha]
    exact ⟨rfl, rfl⟩
  · rw [if_neg ha, wrapper_of_notMem fun hm ↦ ha ⟨rfl, isAlive_iff.2 hm⟩]
    exact ⟨rfl, rfl⟩

theorem handle_empty (s : State) (id j : WrapperId) :
    ((s.empty id).wrapper j).handle = (s.wrapper j).handle := by
  refine proj_modifyWrapper s id j Wrapper.handle ?_
  exact fun _ ↦ rfl

theorem State.Ended.slots {id : WrapperId} (hu : s.Ended id t) : (t.wrapper id).slots = {} := by
  cases hu with
  | unserved => exact (wrapper_empty _ id).2
  | served => exact (wrapper_empty _ id).2

/-- A wrapper that ended has neither a handle nor a ledger. -/
theorem State.Ended.spec {id : WrapperId} (hu : s.Ended id t) :
    (t.wrapper id).handle = none ∧ (t.wrapper id).ledger = [] ∧ t.ids = s.ids ∧
      t.opened = s.opened := by
  cases hu with
  | unserved hh =>
    exact ⟨(handle_empty ..).trans hh, (wrapper_empty s id).1, ids_modifyWrapper .., rfl⟩
  | @served h closed hh =>
    have hids : (s.unlink id h closed).ids = s.ids := by
      cases closed with
      | false => exact ids_modifyWrapper s id ({ · with handle := none })
      | true => exact ids_modifyWrapper s id ({ · with handle := none })
    have hnone : ((s.unlink id h closed).wrapper id).handle = none := by
      have hw : (s.modifyWrapper id ({ · with handle := none })).wrapper id =
          { s.wrapper id with handle := none } := by
        rw [wrapper_modifyWrapper s (isAlive_of_handle hh), if_pos rfl]
      cases closed with
      | false => exact congrArg Wrapper.handle hw
      | true => exact congrArg Wrapper.handle hw
    refine ⟨(handle_empty ..).trans hnone, (wrapper_empty _ id).1,
      (ids_modifyWrapper ..).trans hids, ?_⟩
    cases closed with
    | false => rfl
    | true => rfl

theorem ids_remove (s : State) (id : WrapperId) : (s.remove id).ids = s.ids.filter (· ≠ id) := by
  rw [ids, ids, State.remove, Pairs.without, List.filter_map]
  rfl

theorem wrapper_remove_self (s : State) (id : WrapperId) : (s.remove id).wrapper id = {} := by
  refine wrapper_of_notMem ?_
  rw [ids_remove, List.mem_filter]
  exact fun hm ↦ absurd rfl (of_decide_eq_true hm.2)

theorem State.Numbered.remove (hn : s.Numbered) (id : WrapperId) : (s.remove id).Numbered where
  nodup := by
    rw [ids_remove]
    exact hn.nodup.filter _
  below j hj := by
    rw [ids_remove] at hj
    exact hn.below j (List.mem_of_mem_filter hj)

/-- A twin that was undone has used a number up, and that is all there is of it among the
wrappers. -/
theorem ids_undone (hn : s.Numbered) (id : WrapperId) (g h : Nat)
    (done : List (OptionCode × Argument)) (closed : Bool) :
    (((((s.twin id g h).storeAll s.opened h done).unlink s.opened h closed).empty
      s.opened).remove s.opened).ids = s.ids ∧
    (((((s.twin id g h).storeAll s.opened h done).unlink s.opened h closed).empty
      s.opened).remove s.opened).opened = s.opened + 1 := by
  have hh : (((s.twin id g h).storeAll s.opened h done).wrapper s.opened).handle = some h := by
    rw [wrapper_storeAll, wrapper_twin hn]
  obtain ⟨-, -, hids, hopened⟩ := (Ended.served closed hh).spec
  have htwin : (s.twin id g h).ids = s.ids ++ [s.opened] :=
    (ids_modifyWrapper _ _ _).trans (ids_adopt (s.copy _ g h) h _)
  constructor
  · rw [ids_remove, hids, ids_storeAll, htwin, List.filter_append, List.filter_eq_self.2,
      List.filter_eq_nil_iff.2, List.append_nil]
    · simp
    · intro j hj
      exact decide_eq_true fun he ↦ hn.notMem (he ▸ hj)
  · refine hopened.trans ?_
    rw [opened_storeAll]
    rfl

theorem State.Numbered.undone (hn : s.Numbered) (id : WrapperId) (g h : Nat)
    (done : List (OptionCode × Argument)) (closed : Bool) :
    (((((s.twin id g h).storeAll s.opened h done).unlink s.opened h closed).empty
      s.opened).remove s.opened).Numbered := by
  obtain ⟨hids, hopened⟩ := ids_undone hn id g h done closed
  refine ⟨?_, fun j hj ↦ ?_⟩
  · rw [hids]
    exact hn.nodup
  · rw [hids] at hj
    rw [hopened]
    exact Nat.lt_succ_of_lt (hn.below j hj)

/-- Every step preserves the numbering of the wrappers. -/
theorem Effect.numbered (hn : s.Numbered) (he : Effect s x r t) : t.Numbered := by
  cases he with
  | request _ hd => exact hn.of_ids hd.ids hd.drift.opened
  | failed hd => exact hn.of_ids hd.ids hd.opened
  | set _ ha =>
    obtain ⟨f, as, xs, ht⟩ := ha.touched
    exact hn.of_ids ht.ids ht.opened
  | @made api h _ _ hd => exact ((hn.told _ _ _).adopt h api).of_ids hd.ids hd.opened
  | @bundled api h _ _ _ _ ha =>
    obtain ⟨f, as, xs, ht⟩ := ha.touched
    exact ((hn.told _ _ _).adopt h api).of_ids ht.ids ht.opened
  | @twinned id g h _ _ _ hd =>
    refine (hn.twin id g h).of_ids (hd.ids.trans ?_) (hd.opened.trans ?_)
    · exact ids_storeAll ..
    · exact opened_storeAll ..
  | @undone id g h _ done closed _ _ _ _ _ _ hd =>
    exact (hn.undone id g h done closed).of_ids hd.ids hd.opened
  | wiped _ _ hd => exact hn.of_ids (hd.ids.trans (ids_modifyWrapper _ _ _)) hd.opened
  | released _ hd => exact hn.of_ids (hd.ids.trans (ids_modifyWrapper _ _ _)) hd.opened
  | cleaned hu _ hd =>
    obtain ⟨-, -, hids, hopened⟩ := hu.spec
    exact hn.of_ids (hd.ids.trans hids) (hd.opened.trans hopened)
  | @dropped id _ _ _ hu _ hd =>
    obtain ⟨-, -, hids, hopened⟩ := hu.spec
    exact ((hn.of_ids hids hopened).remove id).of_ids hd.ids hd.opened

/-- Every step preserves coherence. -/
theorem Effect.coherent (hc : s.Coherent) (he : Effect s x r t) : t.Coherent := by
  have hkeeps (hids : t.ids ⊆ s.ids) {id : WrapperId} (hx : x.target? = some id) :
      ∀ j ∈ t.ids, j ≠ id → Keeps s t j := by
    intro j hj hne
    refine he.keeps hc (fun _ ↦ hc.opened_ne (hids hj)) ?_
    rw [hx]
    exact fun h ↦ hne (Option.some.inj h).symm
  have hn : t.Numbered := he.numbered hc.numbered
  have he' := he
  cases he' with
  | request _ hd => exact hc.of_keeps_all hn fun j _ ↦ .of_stir hd
  | failed hd => exact hc.drift hd
  | set hh ha =>
    obtain ⟨f, as, xs, ht⟩ := ha.touched
    exact hc.of_touched hh ht
  | made hnew hd => exact (hc.make hnew _).drift hd
  | bundled hnew ha =>
    obtain ⟨f, as, xs, ht⟩ := ha.touched
    exact (hc.make hnew _).of_touched (by rw [wrapper_make hc.numbered]) ht
  | twinned hh hnew hd =>
    exact ((hc.twin hnew (mem_ids_of_handle hh)).storeAll _ _ _).drift hd
  | @undone id g h loose done closed _ _ hh hnew hpre hown hd =>
    -- The number is used up, and everybody is as they were.
    obtain rfl := hc.loose_twin hnew hh hown
    have hids : t.ids = s.ids := hd.ids.trans (ids_undone hc.numbered id g h done closed).1
    exact hc.of_keeps_all hn fun j hj ↦ he.keeps hc (fun _ ↦ hc.opened_ne (hids ▸ hj)) nofun
  | @wiped id h loose _ hh hown hd =>
    have hids : t.ids = s.ids := hd.ids.trans (ids_modifyWrapper _ _ _)
    refine hc.of_given_up hn (hkeeps (fun _ hj ↦ hids ▸ hj) rfl) ?_ ?_
    · rw [hd.wrapper]
      exact (wrapper_empty _ id).1
    · intro g hg
      rw [hd.wrapper] at hg
      have hg := (handle_empty (s.clear _ h) id id).symm.trans hg
      refine ⟨hg, ?_⟩
      rw [hd.isLive]
      exact (isLive_clear s h g (s.wrapper id).api.route).trans (hc.live id g hg)
  | @released id mark loose _ ho hd =>
    exact hc.of_cut hn ho hd
  | @cleaned id u loose _ hu hown hd =>
    obtain ⟨hnone, hledger, hids, -⟩ := hu.spec
    have hids' : t.ids = s.ids := hd.ids.trans hids
    refine hc.of_given_up hn (hkeeps (fun _ hj ↦ hids' ▸ hj) rfl) ?_ ?_
    · rw [hd.wrapper]
      exact hledger
    · intro g hg
      rw [hd.wrapper, hnone] at hg
      cases hg
  | @dropped id u loose _ hu hown hd =>
    obtain ⟨-, -, hids, -⟩ := hu.spec
    have hsub : t.ids ⊆ s.ids := by
      rw [hd.ids, ids_remove, hids]
      exact List.filter_subset_self _
    have hw : t.wrapper id = {} := by
      rw [hd.wrapper]
      exact wrapper_remove_self u id
    refine hc.of_given_up hn (hkeeps hsub rfl) ?_ ?_
    · rw [hw]
    · intro g hg
      rw [hw] at hg
      cases hg

theorem constants_unlink (s : State) (id : WrapperId) (h : Nat) (closed : Bool) :
    (s.unlink id h closed).constants = s.constants := by
  cases closed with
  | false => rfl
  | true => rfl

/-- No step makes the engine another one, or calls a function that does not take the call. -/
theorem Effect.constants (he : Effect s x r t) : t.constants = s.constants := by
  have hended {u v : State} {id : WrapperId} (hu : u.Ended id v) : v.constants = u.constants := by
    cases hu with
    | unserved => rfl
    | served closed => exact constants_unlink u id _ closed
  cases he with
  | request _ hd => exact hd.drift.constants
  | failed hd => exact hd.constants
  | set _ ha =>
    obtain ⟨f, as, xs, ht⟩ := ha.touched
    exact ht.constants
  | made _ hd => exact hd.constants
  | bundled _ ha =>
    obtain ⟨f, as, xs, ht⟩ := ha.touched
    exact ht.constants
  | twinned _ _ hd => exact hd.constants.trans (constants_storeAll ..)
  | undone _ _ _ _ hd =>
    refine hd.constants.trans ((constants_unlink _ _ _ _).trans ?_)
    exact constants_storeAll ..
  | wiped _ _ hd => exact hd.constants
  | released _ hd => exact hd.constants
  | cleaned hu _ hd => exact hd.constants.trans (hended hu)
  | @dropped _ u _ _ hu _ hd =>
    have hconstants : u.constants = s.constants := hended hu
    exact hd.constants.trans hconstants

theorem Effect.policy (he : Effect s x r t) : t.policy = s.policy := congrArg Prod.fst he.constants

/-! ## Numbered runs -/

/-- Wrappers are numbered by the library, so a step keeps them so even if the engine gives a handle
out that is still in use. -/
theorem State.Numbered.pass (hn : s.Numbered) (x : Step) :
    (x.pass s).after.Numbered ∧ (x.pass s).after.constants = s.constants := by
  have hquiet {u : State} (hd : Drift [] s u) : u.Numbered ∧ u.constants = s.constants :=
    ⟨hn.of_ids hd.ids hd.opened, hd.constants⟩
  by_cases hx : x.makes = true
  · refine Step.pass_of_leads (P := fun _ t ↦ t.Numbered ∧ t.constants = s.constants) ?_
    cases x with
    | create api =>
      refine (leads_create hn api).mono ?_ fun _ _ hd ↦ hquiet hd
      rintro _ u ⟨-, h, -, hu⟩
      have hmade : (s.make h api).Numbered := (hn.told _ _ _).adopt h api
      rcases hu with hd | ⟨path, r, ha⟩
      · exact ⟨hmade.of_ids hd.ids hd.opened, hd.constants⟩
      · obtain ⟨f, as, xs, ht⟩ := ha.touched
        exact ⟨hmade.of_ids ht.ids ht.opened, ht.constants⟩
    | duplicate id =>
      cases hh : (s.wrapper id).handle with
      | none =>
        rw [Step.run, Wrapper.duplicate, leads_bind, leads_liveHandle_none hh]
        exact hquiet (Drift.refl s)
      | some g =>
        refine (leads_duplicate hn hh).mono ?_ ?_
        · rintro _ u ⟨-, h, -, hd⟩
          refine ⟨(hn.twin id g h).of_ids (hd.ids.trans ?_) (hd.opened.trans ?_),
            hd.constants.trans ?_⟩
          · exact ids_storeAll ..
          · exact opened_storeAll ..
          · exact constants_storeAll ..
        · rintro _ u (hd | ⟨h, loose, done, closed, -, -, -, hd⟩)
          · exact hquiet hd
          · refine ⟨(hn.undone id g h done closed).of_ids hd.ids hd.opened, ?_⟩
            refine hd.constants.trans ((constants_unlink _ _ _ _).trans ?_)
            exact constants_storeAll ..
    | setopt | reset | release | cleanup | drop | perform | pause | getinfo | send | recv | escape
    | unescape | impersonate => cases hx
  · have he := Effect.of_pass hn fun hx' ↦ absurd hx' hx
    exact ⟨he.numbered hn, he.constants⟩

theorem State.Numbered.after (hn : s.Numbered) (xs : List Step) :
    (s.after xs).Numbered ∧ (s.after xs).constants = s.constants := by
  induction xs using List.reverseRecOn with
  | nil => exact ⟨hn, rfl⟩
  | append_singleton xs x ih =>
    rw [after_concat]
    have hpass := ih.1.pass x
    exact ⟨hpass.1, hpass.2.trans ih.2⟩

theorem State.Numbered.policy_after (hn : s.Numbered) (xs : List Step) :
    (s.after xs).policy = s.policy := congrArg Prod.fst (hn.after xs).2

end

/-! ## Coherent runs -/

/-- A run in which no handle is given while it is in use. -/
def State.Orderly (s : State) (xs : List Step) : Prop :=
  ∀ p ∈ passages s xs, p.step.makes = true → p.before.Fresh

theorem State.Coherent.start (policy : Policy) (host : Host) (settled : Settled) :
    (State.start policy host settled).Coherent where
  numbered := ⟨List.nodup_nil, fun _ hj ↦ absurd hj List.not_mem_nil⟩
  live _ _ hh := by cases hh
  apart _ _ _ hh := by cases hh
  intact _ _ ha := absurd ha List.not_mem_nil
  single _ _ _ ha := absurd ha List.not_mem_nil

/-- In no run is a function called that does not take the call, whether it is called by name or
through a table of addresses. -/
theorem State.strays_after (policy : Policy) (host : Host) (settled : Settled)
    (steps : List Step) : ((State.start policy host settled).after steps).strays = 0 :=
  congrArg Prod.snd ((Coherent.start policy host settled).numbered.after steps).2

theorem State.Orderly.fresh {s : State} {xs ys : List Step} {x : Step}
    (ho : s.Orderly (xs ++ x :: ys)) (hx : x.makes = true) : (s.after xs).Fresh := by
  rw [Orderly, passages_append] at ho
  exact ho (x.pass (s.after xs)) (List.mem_append_right _ List.mem_cons_self) hx

theorem State.Orderly.of_append {s : State} {xs ys : List Step} (ho : s.Orderly (xs ++ ys)) :
    s.Orderly xs := by
  rw [Orderly, passages_append] at ho
  exact fun p hp ↦ ho p (List.mem_append_left _ hp)

/-- What holds at the beginning of a run, and is preserved by every effect in a coherent state,
holds all the way. -/
theorem State.Orderly.induction {s : State} (hc : s.Coherent) {P : List Step → Prop} (hnil : P [])
    (hstep : ∀ xs x, (s.after xs).Coherent →
      Effect (s.after xs) x (x.pass (s.after xs)).result (s.after (xs ++ [x])) → P xs →
      P (xs ++ [x])) {xs : List Step} (ho : s.Orderly xs) : P xs := by
  -- A step has an effect only in a coherent state, so coherence comes along.
  suffices h : (s.after xs).Coherent ∧ P xs from h.2
  induction xs using List.reverseRecOn with
  | nil => exact ⟨hc, hnil⟩
  | append_singleton xs x ih =>
    obtain ⟨hcoh, hP⟩ := ih ho.of_append
    have he := Effect.of_pass (x := x) hcoh.numbered ho.fresh
    have he' : Effect (s.after xs) x (x.pass (s.after xs)).result (s.after (xs ++ [x])) := by
      rw [after_concat]
      exact he
    exact ⟨he'.coherent hcoh, hstep xs x hcoh he' hP⟩

/-- What every step preserves that meets a condition, a run does of which all steps meet it. -/
theorem State.Orderly.preserved {s : State} (hc : s.Coherent) {P : State → Prop}
    {Q : Passage → Prop} (hs : P s)
    (hstep : ∀ {s x r t}, s.Coherent → Effect s x r t → Q ⟨x, s, r, t⟩ → P s → P t)
    {xs : List Step} (ho : s.Orderly xs) (hq : ∀ p ∈ passages s xs, Q p) : P (s.after xs) := by
  refine ho.induction hc (P := fun xs ↦ (∀ p ∈ passages s xs, Q p) → P (s.after xs))
    (fun _ ↦ hs) ?_ hq
  intro xs x hcoh he ih hq
  rw [passages_concat] at hq
  rw [after_concat] at he ⊢
  refine hstep hcoh he (hq _ (List.mem_append_right _ (List.mem_singleton.2 rfl))) ?_
  exact ih fun p hp ↦ hq p (List.mem_append_left _ hp)

theorem State.Orderly.coherent {s : State} (hc : s.Coherent) {xs : List Step} (ho : s.Orderly xs) :
    (s.after xs).Coherent :=
  ho.induction hc (P := fun xs ↦ (s.after xs).Coherent) hc fun _ _ hcoh he _ ↦ he.coherent hcoh

/-- Every passage of an orderly run has an effect, in a coherent state. -/
theorem State.Orderly.effect {s : State} (hc : s.Coherent) {xs ys : List Step} {x : Step}
    (ho : s.Orderly (xs ++ x :: ys)) : (s.after xs).Coherent ∧
      Effect (s.after xs) x (x.pass (s.after xs)).result (x.pass (s.after xs)).after := by
  have hcoh : (s.after xs).Coherent := State.Orderly.coherent hc ho.of_append
  exact ⟨hcoh, Effect.of_pass hcoh.numbered ho.fresh⟩

/-- An engine that never gives out a handle in use makes every run orderly. -/
theorem State.Orderly.of_policy {s : State} (hc : s.Coherent) (hp : s.policy.Fresh)
    (xs : List Step) : s.Orderly xs := by
  induction xs using List.reverseRecOn with
  | nil => exact fun _ hp ↦ absurd hp List.not_mem_nil
  | append_singleton xs x ih =>
    -- Whether a handle is fresh is for the engine to say, and it stays the same engine.
    have hfresh : (s.after xs).Fresh := by
      refine Policy.Fresh.fresh ?_
      rw [hc.numbered.policy_after]
      exact hp
    rw [Orderly, passages_concat]
    intro p hmem hx
    rcases List.mem_append.1 hmem with hmem | hmem
    · exact ih p hmem hx
    · rw [List.mem_singleton.1 hmem]
      exact hfresh

/-- With one wrapper there is no handle to be given twice. -/
theorem State.Orderly.single (policy : Policy) (host : Host) (settled : Settled) (x : Step)
    {xs : List Step} (hxs : ∀ y ∈ xs, y.makes = false) :
    (State.start policy host settled).Orderly (x :: xs) := by
  intro p hp hmakes
  rcases List.mem_cons.1 hp with rfl | hp
  · exact State.fresh_of_handles rfl
  · rw [hxs _ (mem_of_mem_passages hp)] at hmakes
    cases hmakes

end NativeTransfer
