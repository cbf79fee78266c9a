import NativeTransfer.Proofs.Book
import NativeTransfer.Proofs.Run

/-!
# What a step leaves alone

A step changes one wrapper, and `State.Keeps` says of all others that they are as they were: what
they are set to, what they keep, and what is known of their handles. This needs handles to be apart
and lists to have one holder's entry each, which is `State.Coherent`, and what every step preserves.

## Two relations

`Steady` is about all but the ledger, and it holds even of a wrapper from whose ledger entries are
taken: that changes nothing that the engine was told. `Keeps` adds that the ledger is the same and
that each list in it is as it was. Both are closed under the transformers of other wrappers'
handles, and that is all that the proofs about steps make use of.
-/

namespace NativeTransfer

open State Wrapper

namespace State

/-! ## Keeping -/

/-- A wrapper is as it was, apart from what it records. -/
structure Steady (s t : State) (j : WrapperId) : Prop where
  handle : (t.wrapper j).handle = (s.wrapper j).handle
  slots : (t.wrapper j).slots.isInstalled = (s.wrapper j).slots.isInstalled
  table : ∀ h, (s.wrapper j).handle = some h → t.engine.settings? h = s.engine.settings? h
  book : ∀ h, (s.wrapper j).handle = some h → ∀ (α : Type) (b : Book α), t.book b h = s.book b h

/-- A wrapper with everything that matters to it is as it was. -/
structure Keeps (s t : State) (j : WrapperId) : Prop extends Steady s t j where
  ledger : (t.wrapper j).ledger = (s.wrapper j).ledger
  lists : ∀ a ∈ (s.wrapper j).ledger, ∀ n, a.nativeList? = some n →
    ∀ l, s.engine.list? n = some l → t.engine.list? n = some l

namespace Steady

variable {s t : State} {j : WrapperId}

theorem setting? (hk : Steady s t j) {h : Nat} (hh : (s.wrapper j).handle = some h)
    (o : OptionCode) : t.engine.setting? h o = s.engine.setting? h o := by
  rw [Engine.setting?, Engine.setting?, hk.table h hh]

theorem of_cut {id : WrapperId} {mark : Nat} {loose : List Nat}
    (hd : Drift loose (s.cut id mark) t) : Steady s t j where
  handle := by
    rw [hd.wrapper]
    refine proj_modifyWrapper s id j Wrapper.handle ?_
    exact fun _ ↦ rfl
  slots := by
    rw [hd.wrapper]
    refine proj_modifyWrapper s id j (·.slots.isInstalled) ?_
    exact fun _ ↦ rfl
  table h _ := hd.settings? h
  book h _ _ b := congrFun (book_congr b hd.settling) h

end Steady

namespace Keeps

variable {s t u : State} {j : WrapperId}

theorem trans (hst : Keeps s t j) (htu : Keeps t u j) : Keeps s u j where
  handle := htu.handle.trans hst.handle
  ledger := htu.ledger.trans hst.ledger
  slots := htu.slots.trans hst.slots
  table h hh := (htu.table h (hst.handle.trans hh)).trans (hst.table h hh)
  lists a ha n hn l hl := htu.lists a (hst.ledger ▸ ha) n hn l (hst.lists a ha n hn l hl)
  book h hh α b := (htu.book h (hst.handle.trans hh) α b).trans (hst.book h hh α b)

theorem of_drift {loose : List Nat} (hd : Drift loose s t)
    (hl : ∀ a ∈ (s.wrapper j).ledger, ∀ n, a.nativeList? = some n → n ∉ loose) : Keeps s t j where
  handle := by rw [hd.wrapper]
  ledger := by rw [hd.wrapper]
  slots := by rw [hd.wrapper]
  table h _ := hd.settings? h
  lists a ha n hn l := hd.lists n (hl a ha n hn) l
  book h _ _ b := congrFun (book_congr b hd.settling) h

theorem of_drift_nil (hd : Drift [] s t) : Keeps s t j :=
  of_drift hd fun _ _ _ _ ↦ List.not_mem_nil

theorem of_stir (hd : Stir s t) : Keeps s t j := by
  obtain ⟨x, hx, hw⟩ := hd.wrapper j
  refine ⟨⟨?_, ?_, fun h _ ↦ hd.drift.settings? h, ?_⟩, ?_, ?_⟩
  · rw [hw]
  · rw [hw]
    exact hx
  · exact fun h _ α b ↦ congrFun (book_congr b hd.drift.settling) h
  · rw [hw]
  · exact fun a _ n _ l ↦ hd.drift.lists n List.not_mem_nil l

theorem modifyWrapper {id : WrapperId} (hj : j ≠ id) (f : Wrapper → Wrapper) :
    Keeps s (s.modifyWrapper id f) j := by
  have hw : (s.modifyWrapper id f).wrapper j = s.wrapper j := by
    rw [wrapper_modifyWrapper_eq, if_neg fun hc ↦ hj hc.1]
  exact ⟨⟨by rw [hw], by rw [hw], fun _ _ ↦ rfl, fun _ _ _ _ ↦ rfl⟩, by rw [hw],
    fun _ _ _ _ _ hl ↦ hl⟩

theorem empty {id : WrapperId} (hj : j ≠ id) : Keeps s (s.empty id) j := modifyWrapper hj _

theorem told {tables : List (Nat × Settings)} {r : Route} {c : NativeCall}
    (ht : ∀ h, (s.wrapper j).handle = some h →
      (s.told tables r c).engine.settings? h = s.engine.settings? h)
    (hb : ∀ h, (s.wrapper j).handle = some h → ∀ (α : Type) (b : Book α),
      (s.told tables r c).book b h = s.book b h) : Keeps s (s.told tables r c) j :=
  ⟨⟨rfl, rfl, ht, hb⟩, rfl, fun _ _ _ _ _ hl ↦ hl⟩

section

variable {h : Nat} (hne : (s.wrapper j).handle ≠ some h)

include hne

theorem ne_of_handle {g : Nat} (hg : (s.wrapper j).handle = some g) : g ≠ h := by
  rintro rfl
  exact hne hg

theorem store (id : WrapperId) (o : OptionCode) (x : Argument) : Keeps s (s.store id h o x) j := by
  refine told (fun g hg ↦ ?_) fun g hg α b ↦ ?_
  · exact (settings?_store ..).trans (if_neg (ne_of_handle hne hg))
  · exact (book_store ..).trans (if_neg (ne_of_handle hne hg))

theorem storeAll (id : WrapperId) (xs : List (OptionCode × Argument)) :
    Keeps s (s.storeAll id h xs) j := by
  induction xs generalizing s with
  | nil => exact of_drift_nil (Drift.refl s)
  | cons x xs ih => exact (store hne id x.1 x.2).trans (ih hne)

theorem begin (r : Route) : Keeps s (s.begin r h) j := by
  refine told (fun g hg ↦ ?_) fun g hg α b ↦ ?_
  · exact (settings?_begin ..).trans (if_neg (ne_of_handle hne hg))
  · exact (book_begin ..).trans (if_neg (ne_of_handle hne hg))

theorem copy (r : Route) (d : Nat) : Keeps s (s.copy r d h) j := by
  refine told (fun g hg ↦ ?_) fun g hg α b ↦ ?_
  · exact (settings?_copy ..).trans (if_neg (ne_of_handle hne hg))
  · exact (book_copy ..).trans (if_neg (ne_of_handle hne hg))

theorem clear (r : Route) : Keeps s (s.clear r h) j := by
  refine told (fun g hg ↦ ?_) fun g hg α b ↦ ?_
  · exact (settings?_clear ..).trans (if_neg (ne_of_handle hne hg))
  · exact (book_clear ..).trans (if_neg (ne_of_handle hne hg))

theorem close (r : Route) : Keeps s (s.close r h) j := by
  refine told (fun g hg ↦ ?_) fun g _ α b ↦ book_close b r h g
  exact (settings?_close ..).trans (if_neg (ne_of_handle hne hg))

theorem unlink {id : WrapperId} (hj : j ≠ id) (closed : Bool) :
    Keeps s (s.unlink id h closed) j := by
  have hk : Keeps s ((s.modifyWrapper id ({ · with handle := none })).abandon h) j := by
    have hm := modifyWrapper (s := s) hj ({ · with handle := none })
    exact { hm with }
  cases closed with
  | false => exact hk
  | true =>
    refine hk.trans (close ?_ _)
    rw [hk.handle]
    exact hne

end

theorem adopt (hn : s.Numbered) (hj : j ≠ s.opened) (h : Nat) (api : Api) :
    Keeps s (s.adopt h api) j := by
  have hw : (s.adopt h api).wrapper j = s.wrapper j := by
    rw [wrapper_adopt hn.notMem, if_neg hj]
  exact ⟨⟨by rw [hw], by rw [hw], fun _ _ ↦ rfl, fun _ _ _ _ ↦ rfl⟩, by rw [hw],
    fun _ _ _ _ _ hl ↦ hl⟩

theorem remove {id : WrapperId} (hj : j ≠ id) : Keeps s (s.remove id) j := by
  have hw := wrapper_remove_of_ne s hj
  exact ⟨⟨by rw [hw], by rw [hw], fun _ _ ↦ rfl, fun _ _ _ _ ↦ rfl⟩, by rw [hw],
    fun _ _ _ _ _ hl ↦ hl⟩

end Keeps

end State

end NativeTransfer
