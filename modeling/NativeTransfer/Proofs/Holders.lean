import NativeTransfer.Proofs.Places
import NativeTransfer.Proofs.Turnover
import NativeTransfer.Script.Ledgers

/-!
# Holders of allocations

What the counts of allocations have to do with those that hold them, and with the lists of the
engine. In the middle of an operation an allocation is held in no ledger and under no name: it was
taken out of its place and not given up yet, or copied and not recorded yet. `Balanced` therefore
speaks of a list of loose allocations besides names and entries. `Accounted` goes from counts to
lists: a list was freed once if its allocation counts no holder any more, and never otherwise.

## Counts and lists

Both relations are needed at once. `Balanced` is about one state and says that counts are right.
`Accounted` is about two, an earlier and a later one, and says what became of lists in between,
given the counts of the later one. New allocations are made with the next number, so they are none
that a name or an entry could stand for, and the list that is made with one is new as well.
-/

namespace NativeTransfer

/-- The number of an allocation. -/
def Allocation.serial : Allocation → Nat
  | .text n _ => n
  | .list n _ => n
  | .buffer n _ => n

namespace Script

open State Wrapper

/-! ## New allocations -/

/-- An allocation was made, and with it no more than one list. -/
structure Supplies (s : State) (a : Allocation) (t : State) : Prop where
  policy : t.policy = s.policy
  serial : a.serial = s.serials
  serials : s.serials < t.serials
  frees : ∀ n, t.frees n = s.frees n
  lists : ∀ n, s.engine.list? n ≠ none → t.engine.list? n ≠ none
  fresh : ∀ n, a.nativeList? = some n → s.engine.list? n = none ∧ t.engine.list? n ≠ none

/-- Neither numbers for allocations are given nor does the policy change. -/
def Unnumbered (s t : State) : Prop := t.serials = s.serials ∧ t.policy = s.policy

theorem calm_unnumbered : Calm Unnumbered where
  refl _ := ⟨rfl, rfl⟩
  trans _ _ _ h h' := ⟨h'.1.trans h.1, h'.2.trans h.2⟩
  engine _ _ _ _ := ⟨rfl, rfl⟩
  event _ _ _ := ⟨rfl, rfl⟩
  settled _ _ _ := ⟨rfl, rfl⟩

theorem ends_build {s t : State} {head : Option Nat} {done : List String}
    (hb : Building s done head t) (items : List String) :
    Ends (build head items) t fun n u ↦
      Unnumbered t u ∧ ∃ done', Building s done' n u := by
  induction items generalizing t head done with
  | nil => exact ⟨calm_unnumbered.refl t, done, hb⟩
  | cons item items ih =>
    have hcall : Within Unnumbered (Api.inProcess.append head item) := by
      intro s
      rw [Api.append_eq]
      exact calm_unnumbered.leads_call _ _ fun y hy ↦ ⟨rfl, rfl⟩
    rw [build, ends_bind, ends_run]
    refine ((Api.inProcess.building_append hb item).and (hcall t)).mono ?_ ?_
    · rintro (_ | n) u ⟨hu, htu⟩
      · exact ⟨htu, done, hu⟩
      · exact (ih hu).mono fun _ _ hv ↦ ⟨calm_unnumbered.trans _ _ _ htu hv.1, hv.2⟩
    · rintro e u ⟨hu, htu⟩
      exact ⟨htu, done, hu⟩

theorem Supplies.of_building {s t : State} {done : List String} {head : Option Nat}
    (hb : Building { s with serials := s.serials + 1 } done head t)
    (hu : Unnumbered { s with serials := s.serials + 1 } t) :
    Supplies s (.list s.serials head) t := by
  have hserials : s.serials < t.serials := by
    rw [hu.1]
    exact Nat.lt_succ_self _
  cases hb with
  | empty hs =>
    refine ⟨hu.2, rfl, hserials, fun n ↦ ?_, fun n hn ↦ ?_, fun n hn ↦ by cases hn⟩
    · rw [State.frees, hs.listing]
      rfl
    · rw [Engine.list?_congr hs.lists]
      exact hn
  | grown hne hlists hlisting =>
    have hlist := Engine.list?_of_concat hlists
    refine ⟨hu.2, rfl, hserials, fun n ↦ ?_, fun n hn ↦ ?_, ?_⟩
    · rw [State.frees, hlisting, List.countP_append, List.countP_replicate]
      rfl
    · rw [hlist]
      split
      · exact Option.some_ne_none _
      · exact hn
    · intro n hn
      obtain rfl := Option.some.inj hn
      rw [hlist, if_pos rfl]
      exact ⟨List.getElem?_eq_none (Nat.le_refl _), Option.some_ne_none _⟩

theorem ends_allocation (c : Content) (s : State) :
    Ends (allocation c) s fun a t ↦ Supplies s a t := by
  have hplain {a : Allocation} (ha : a.serial = s.serials) (hn : a.nativeList? = none) :
      Supplies s a { s with serials := s.serials + 1 } :=
    ⟨rfl, ha, Nat.lt_succ_self _, fun _ ↦ rfl, fun _ h ↦ h, fun n h ↦ by rw [hn] at h; cases h⟩
  cases c with
  | text x => exact hplain rfl rfl
  | buffer b => exact hplain rfl rfl
  | list items =>
    have hempty : Building { s with serials := s.serials + 1 } [] none
        { s with serials := s.serials + 1 } := .empty (Still.refl _)
    rw [allocation, ends_bind]
    change Ends (build none items >>= fun head ↦ pure (Allocation.list s.serials head)) _ _
    rw [ends_bind]
    refine (ends_build hempty items).mono ?_
    rintro head t ⟨hu, done, hb⟩
    exact Supplies.of_building hb hu

end Script

namespace Script.Ledgers

open Wrapper

variable {r s t : Ledgers} {loose : List Allocation} {a b : Allocation} {name : String} {i : Nat}
  {p : Places}

/-! ## What a change leaves alone -/

@[simp] theorem places_setPlaces (s : Ledgers) (i j : Nat) (p : Places) :
    (s.setPlaces i p).places j = if j = i then p else s.places j := by
  rw [places, setPlaces, Pairs.lookup_put]
  split
  · rfl
  · rfl

@[simp] theorem count_setCount (s : Ledgers) (a b : Allocation) (n : Nat) :
    (s.setCount a n).count b = if b = a then n else s.count b := by
  rw [count, setCount, Pairs.lookup_put]
  split
  · rfl
  · rfl

theorem count_retain (s : Ledgers) (a b : Allocation) :
    (s.retain a).count b = s.count b + [a].count b := by
  rw [retain, count_setCount, List.count_singleton]
  by_cases hb : b = a
  · subst hb
    simp
  · simp [hb, Ne.symm hb]

/-- To give up an allocation changes its count, and the state only if nobody else holds it. -/
theorem release_eq (s : Ledgers) (a : Allocation) :
    s.release a =
      { s.setCount a (s.count a - 1) with
        state := if s.count a = 1 then
          ((freeNativeList .inProcess a.nativeList?).run s.state).2 else s.state } := by
  rw [release]
  split
  · rfl
  · rfl

theorem count_release (s : Ledgers) (a b : Allocation) :
    (s.release a).count b = s.count b - [a].count b := by
  have hcount : (s.release a).count b = (s.setCount a (s.count a - 1)).count b := by
    rw [release_eq]
    rfl
  rw [hcount, count_setCount, List.count_singleton]
  by_cases hb : b = a
  · subst hb
    simp
  · simp [hb, Ne.symm hb]

@[simp] theorem places_release (s : Ledgers) (a : Allocation) (i : Nat) :
    (s.release a).places i = s.places i := by
  rw [release_eq]
  rfl

/-- Whether an allocation was ever made. -/
def Made (s : Ledgers) (a : Allocation) : Prop := (s.counts.lookup a).isSome = true

instance (s : Ledgers) (a : Allocation) : Decidable (s.Made a) :=
  inferInstanceAs (Decidable (_ = _))

theorem made_of_count_pos (h : 0 < s.count a) : s.Made a := by
  rw [count] at h
  rw [Made]
  cases hl : s.counts.lookup a with
  | none =>
    rw [hl] at h
    exact absurd h (Nat.lt_irrefl 0)
  | some n => rfl

theorem count_of_not_made (h : ¬ s.Made a) : s.count a = 0 :=
  Nat.eq_zero_of_not_pos (mt made_of_count_pos h)

theorem made_setCount {n : Nat} : (s.setCount a n).Made b ↔ b = a ∨ s.Made b := by
  rw [Made, setCount, Pairs.lookup_put]
  by_cases hb : b = a
  · simp [hb]
  · simp [hb, Made]

theorem made_of_made_setCount {n : Nat} (ha : s.Made a) (hb : (s.setCount a n).Made b) :
    s.Made b := by
  rcases made_setCount.1 hb with rfl | hold
  · exact ha
  · exact hold

/-! ## Where allocations are held -/

theorem count_cons_eq (a b : Allocation) (l : List Allocation) :
    (a :: l).count b = [a].count b + l.count b := by
  rw [← List.singleton_append, List.count_append]

theorem recorded_setPlaces (hn : (s.rows.map (·.1)).Nodup) (i : Nat) (p : Places)
    (a : Allocation) :
    (s.setPlaces i p).recorded a + (s.places i).count (some a) =
      s.recorded a + p.count (some a) := by
  have hrows : s.recorded a = (s.places i).count (some a) +
      ((Pairs.without i s.rows).flatMap (·.2)).count (some a) := by
    have h := Pairs.count_flatMap id (some a) hn i
    rw [Option.map_id_fun] at h
    exact h
  rw [hrows, recorded, setPlaces, Pairs.put, List.flatMap_cons, List.count_append]
  dsimp only
  omega

theorem outsiders_eq (hn : (s.outside.map (·.1)).Nodup) (name : String) (a : Allocation) :
    s.outsiders a = (s.named? name).toList.count a +
      ((Pairs.without name s.outside).map (·.2)).count a := by
  have h := Pairs.count_flatMap (fun x ↦ [x]) a hn name
  rw [← List.map_eq_flatMap, ← List.map_eq_flatMap] at h
  rw [outsiders, h, named?]
  cases s.outside.lookup name with
  | none => rfl
  | some b => rfl

/-- Every allocation has as many holders as it counts: names, entries, and what is loose. -/
structure Balanced (loose : List Allocation) (s : Ledgers) : Prop where
  names : (s.outside.map (·.1)).Nodup
  numbers : (s.rows.map (·.1)).Nodup
  serial : ∀ a, s.Made a → a.serial < s.state.serials
  counted : ∀ a, s.count a = s.outsiders a + s.recorded a + loose.count a

namespace Balanced

theorem congr {loose' : List Allocation} (hs : Balanced loose s)
    (h : ∀ a, loose'.count a = loose.count a) : Balanced loose' s :=
  ⟨hs.names, hs.numbers, hs.serial, fun a ↦ by rw [h]; exact hs.counted a⟩

theorem retain (hs : Balanced loose s) (ha : s.Made a) : Balanced (a :: loose) (s.retain a) where
  names := hs.names
  numbers := hs.numbers
  serial b hb := hs.serial b (made_of_made_setCount ha hb)
  counted b := by
    rw [count_retain, hs.counted, count_cons_eq a b loose]
    change _ = s.outsiders b + s.recorded b + _
    omega

theorem count_pos_of_loose (hs : Balanced (a :: loose) s) : 0 < s.count a := by
  rw [hs.counted, count_cons_eq a a loose, List.count_singleton_self]
  omega

/-- What is given up was loose. -/
theorem release (hs : Balanced (a :: loose) s) : Balanced loose (s.release a) := by
  have hcounted (b : Allocation) :
      (s.release a).count b = s.outsiders b + s.recorded b + loose.count b := by
    rw [count_release, hs.counted, count_cons_eq a b loose]
    omega
  have hserials : s.state.serials ≤ (s.release a).state.serials := by
    rw [release_eq]
    dsimp only
    split
    · exact (ends_freeNativeList _ _).serials
    · exact Nat.le_refl _
  rw [release_eq] at hcounted hserials ⊢
  refine ⟨hs.names, hs.numbers, fun b hb ↦ Nat.lt_of_lt_of_le (hs.serial b ?_) hserials, hcounted⟩
  exact made_of_made_setCount (made_of_count_pos hs.count_pos_of_loose) hb

/-- What comes into a ledger was loose, and what is taken out of it is. -/
theorem setPlaces {loose' : List Allocation} (hs : Balanced loose s)
    (h : ∀ a, p.count (some a) + loose'.count a = (s.places i).count (some a) + loose.count a) :
    Balanced loose' (s.setPlaces i p) where
  names := hs.names
  numbers := Pairs.nodup_put hs.numbers i p
  serial := hs.serial
  counted a := by
    have hrecorded := recorded_setPlaces hs.numbers i p a
    have hcounted := hs.counted a
    have ha := h a
    change s.count a = s.outsiders a + (s.setPlaces i p).recorded a + loose'.count a
    omega

/-- What is given a name was loose, and what had the name is. -/
theorem put (hs : Balanced (a :: loose) s) (name : String) :
    Balanced ((s.named? name).toList ++ loose)
      { s with outside := Pairs.put name a s.outside } where
  names := Pairs.nodup_put hs.names name a
  numbers := hs.numbers
  serial := hs.serial
  counted b := by
    have hcounted := hs.counted b
    rw [outsiders_eq hs.names name, count_cons_eq a b loose] at hcounted
    change s.count b = ((Pairs.put name a s.outside).map (·.2)).count b + s.recorded b + _
    rw [Pairs.put, List.map_cons, count_cons_eq, List.count_append]
    dsimp only
    omega

theorem without (hs : Balanced loose s) (name : String) :
    Balanced ((s.named? name).toList ++ loose)
      { s with outside := Pairs.without name s.outside } where
  names := Pairs.nodup_without hs.names name
  numbers := hs.numbers
  serial := hs.serial
  counted b := by
    have hcounted := hs.counted b
    rw [outsiders_eq hs.names name] at hcounted
    change s.count b = ((Pairs.without name s.outside).map (·.2)).count b + s.recorded b + _
    rw [List.count_append]
    omega

theorem not_made (hs : Balanced loose s) {w : State} (hw : Supplies s.state a w) : ¬ s.Made a :=
  fun hmade ↦ Nat.lt_irrefl _ (hw.serial ▸ hs.serial a hmade)

/-- A new allocation has the one holder that made it. -/
theorem supplied (hs : Balanced loose s) {w : State} (hw : Supplies s.state a w) :
    Balanced (a :: loose) ({ s with state := w }.setCount a 1) where
  names := hs.names
  numbers := hs.numbers
  serial b hb := by
    rcases made_setCount.1 hb with rfl | hold
    · exact hw.serial ▸ hw.serials
    · exact (hs.serial b hold).trans hw.serials
  counted b := by
    have hnew := hs.not_made hw
    have hcounted := hs.counted b
    rw [count_setCount, count_cons_eq a b loose, List.count_singleton]
    change _ = s.outsiders b + s.recorded b + _
    by_cases hb : b = a
    · subst hb
      rw [count_of_not_made hnew] at hcounted
      rw [if_pos rfl, beq_self_eq_true, if_pos rfl]
      omega
    · rw [if_neg hb, beq_false_of_ne (Ne.symm hb), if_neg Bool.false_ne_true, Nat.zero_add]
      exact hcounted

theorem count_places_le (hs : Balanced loose s) (i : Nat) (a : Allocation) :
    (s.places i).count (some a) ≤ s.count a := by
  have hrecorded := recorded_setPlaces hs.numbers i [] a
  have hcounted := hs.counted a
  rw [List.count_nil] at hrecorded
  omega

theorem count_pos_of_mem (hs : Balanced loose s) (h : some a ∈ s.places i) : 0 < s.count a :=
  Nat.lt_of_lt_of_le (List.count_pos_iff.2 h) (hs.count_places_le i a)

theorem count_pos_of_named? (hs : Balanced loose s) (h : s.named? name = some a) :
    0 < s.count a := by
  have houtside := outsiders_eq hs.names name a
  have hcounted := hs.counted a
  rw [h, Option.toList_some, List.count_singleton_self] at houtside
  omega

end Balanced

/-! ## What becomes of lists -/

/-- A list belongs to one allocation. It was freed once if nobody holds the allocation any more, and
never if somebody does. What was made or freed earlier on is so still. -/
structure Accounted (r s : Ledgers) : Prop where
  still : ∀ a, r.Made a → s.Made a
  earlier : ∀ n, r.state.frees n ≤ s.state.frees n
  offers : Api.inProcess.Offers s.state.policy .listFree
  built : ∀ a n, s.Made a → a.nativeList? = some n → s.state.engine.list? n ≠ none
  single : ∀ a b n, s.Made a → s.Made b → a.nativeList? = some n → b.nativeList? = some n → a = b
  unbuilt : ∀ n, s.state.engine.list? n = none → s.state.frees n = 0
  frees : ∀ a n, s.Made a → a.nativeList? = some n →
    s.state.frees n = if s.count a = 0 then 1 else 0

namespace Accounted

theorem congr (hs : Accounted r s) (hcounts : t.counts = s.counts) (hstate : t.state = s.state) :
    Accounted r t := by
  obtain ⟨outside, rows, counts, state⟩ := t
  subst hcounts hstate
  exact ⟨hs.still, hs.earlier, hs.offers, hs.built, hs.single, hs.unbuilt, hs.frees⟩

/-- A count may change as long as it does not come down to nothing. -/
theorem setCount (hs : Accounted r s) {n : Nat} (hn : n ≠ 0) (ha : 0 < s.count a) :
    Accounted r (s.setCount a n) := by
  have hmade {b : Allocation} (hb : (s.setCount a n).Made b) : s.Made b :=
    made_of_made_setCount (made_of_count_pos ha) hb
  refine ⟨fun b hb ↦ made_setCount.2 (.inr (hs.still b hb)), hs.earlier, hs.offers,
    fun b n hb ↦ hs.built b n (hmade hb), fun b c n hb hc ↦ hs.single b c n (hmade hb) (hmade hc),
    hs.unbuilt, fun b m hb hm ↦ ?_⟩
  refine (hs.frees b m (hmade hb) hm).trans ?_
  rw [count_setCount]
  by_cases he : b = a
  · subst he
    rw [if_neg ha.ne', if_pos rfl, if_neg hn]
  · rw [if_neg he]

/-- Whoever brings the count down to nothing frees the list. -/
theorem release (hs : Accounted r s) (ha : 0 < s.count a) : Accounted r (s.release a) := by
  by_cases hlast : s.count a = 1
  · have hmadea : s.Made a := made_of_count_pos ha
    obtain ⟨w, hw, hrelease⟩ : ∃ w, State.Freeing s.state a.nativeList?.toList w ∧
        s.release a = { s.setCount a 0 with state := w } := by
      refine ⟨_, hs.offers.freeing_freeNativeList _, ?_⟩
      rw [release_eq, if_pos hlast, hlast]
    have hmade {b : Allocation} (hb : (s.setCount a 0).Made b) : s.Made b :=
      made_of_made_setCount hmadea hb
    have hlist {n : Nat} : w.engine.list? n = none ↔ s.state.engine.list? n = none := by
      rw [hw.lists]
      split
      · exact Option.map_eq_none_iff
      · rfl
    have hcount {n : Nat} (hn : a.nativeList? ≠ some n) : a.nativeList?.toList.count n = 0 :=
      List.count_eq_zero_of_not_mem (mt Option.mem_toList.1 hn)
    rw [hrelease]
    refine ⟨fun b hb ↦ made_setCount.2 (.inr (hs.still b hb)),
      fun n ↦ (hs.earlier n).trans (hw.frees n ▸ Nat.le_add_right _ _), hw.policy ▸ hs.offers,
      fun b n hb hn ↦ mt hlist.1 (hs.built b n (hmade hb) hn),
      fun b c n hb hc ↦ hs.single b c n (hmade hb) (hmade hc), fun n hn ↦ ?_, fun b n hb hn ↦ ?_⟩
    · rw [hw.frees, hs.unbuilt n (hlist.1 hn), hcount fun he ↦ hs.built a n hmadea he (hlist.1 hn)]
    · change w.frees n = if (s.setCount a 0).count b = 0 then 1 else 0
      rw [hw.frees, hs.frees b n (hmade hb) hn, count_setCount]
      by_cases he : b = a
      · subst he
        rw [hn, hlast]
        simp
      · rw [hcount fun hna ↦ he (hs.single b a n (hmade hb) hmadea hn hna), if_neg he,
          Nat.add_zero]
  · have hrelease : s.release a = s.setCount a (s.count a - 1) := by
      rw [Ledgers.release, if_neg hlast]
    rw [hrelease]
    exact hs.setCount (by omega) ha

theorem supplied (hs : Accounted r s) (hnew : ¬ s.Made a) {w : State}
    (hw : Supplies s.state a w) : Accounted r ({ s with state := w }.setCount a 1) := by
  have hfresh {b : Allocation} {n : Nat} (hb : s.Made b) (hn : b.nativeList? = some n) :
      a.nativeList? ≠ some n := fun ha ↦ hs.built b n hb hn (hw.fresh n ha).1
  refine ⟨fun b hb ↦ made_setCount.2 (.inr (hs.still b hb)),
    fun n ↦ (hs.earlier n).trans_eq (hw.frees n).symm,
    hw.policy ▸ hs.offers, fun b n hb hn ↦ ?_,
    fun b c n hb hc hbn hcn ↦ ?_, fun n hn ↦ ?_, fun b n hb hn ↦ ?_⟩
  · rcases made_setCount.1 hb with rfl | hold
    · exact (hw.fresh n hn).2
    · exact hw.lists n (hs.built b n hold hn)
  · rcases made_setCount.1 hb, made_setCount.1 hc with ⟨rfl | hb', rfl | hc'⟩
    · rfl
    · exact absurd hbn (hfresh hc' hcn)
    · exact absurd hcn (hfresh hb' hbn)
    · exact hs.single b c n hb' hc' hbn hcn
  · change w.frees n = 0
    rw [hw.frees]
    exact hs.unbuilt n (by_contra fun h ↦ hw.lists n h hn)
  · change w.frees n = _
    rw [hw.frees, count_setCount]
    rcases made_setCount.1 hb with rfl | hold
    · rw [if_pos rfl, if_neg Nat.one_ne_zero]
      exact hs.unbuilt n (hw.fresh n hn).1
    · rw [if_neg fun h : b = a ↦ hnew (h ▸ hold)]
      exact hs.frees b n hold hn

end Accounted

end Script.Ledgers

end NativeTransfer
