import NativeTransfer.Proofs.Holders

/-!
# Counting holders

Nobody looks at ledgers to see whether an allocation is still held. There is only its count, which
whoever holds it keeps up, and a list is freed by the one who brings the count down to nothing. Yet
the count is always the number of names and entries that hold the allocation, and so a list is freed
exactly once, with the last of them.

Every operation takes allocations from names, entries and what is loose to another of the three,
copies them, or gives up one that is loose, and when it is over nothing is loose. To count is
therefore as good as to look: a release frees what nobody is found to hold once it is over.

## Names, entries and what is loose

A holder is one of three: a name that somebody outside has for the allocation, an entry in a place
of some ledger, or an allocation in somebody's hands in the middle of an operation. Every operation
is taken apart into moves between the three, and each move has a lemma about the balance: to copy is
to count one up, and to give up is to count one down. At the end of an operation nothing is loose,
and the balance is about names and entries alone.

When a count comes down to nothing its list is freed, and no sooner. So a list's number of frees is
told by its count, whatever the order in which names and entries went (`Accounted`).
-/

namespace NativeTransfer.Script.Ledgers

open Wrapper

variable {r s t : Ledgers} {loose : List Allocation} {a b : Allocation} {name : String} {i : Nat}
  {p : Places}

/-! ## Operations -/

/-- Counts are right, and where lists can be freed they have gone with the last of their holders. -/
structure Exact (r : Ledgers) (loose : List Allocation) (s : Ledgers) : Prop extends
  Balanced loose s where
  accounted : Api.inProcess.Offers r.state.policy .listFree → Accounted r s

namespace Exact

theorem congr {loose' : List Allocation} (hs : Exact r loose s)
    (h : ∀ a, loose'.count a = loose.count a) : Exact r loose' s :=
  ⟨hs.toBalanced.congr h, hs.accounted⟩

theorem retain (hs : Exact r loose s) (ha : 0 < s.count a) : Exact r (a :: loose) (s.retain a) :=
  ⟨hs.toBalanced.retain (made_of_count_pos ha), fun ho ↦
    (hs.accounted ho).setCount (Nat.succ_ne_zero _) ha⟩

theorem release (hs : Exact r (a :: loose) s) : Exact r loose (s.release a) :=
  ⟨hs.toBalanced.release, fun ho ↦ (hs.accounted ho).release hs.count_pos_of_loose⟩

theorem setPlaces {loose' : List Allocation} (hs : Exact r loose s)
    (h : ∀ a, p.count (some a) + loose'.count a = (s.places i).count (some a) + loose.count a) :
    Exact r loose' (s.setPlaces i p) :=
  ⟨hs.toBalanced.setPlaces h, fun ho ↦ (hs.accounted ho).congr rfl rfl⟩

/-! ### Names -/

theorem releaseAny {given : Option Allocation} (hs : Exact r (given.toList ++ loose) s) :
    Exact r loose (s.releaseAny given) := by
  cases given with
  | none => exact hs
  | some b => exact release hs

theorem keep (hs : Exact r (a :: loose) s) (name : String) : Exact r loose (s.keep name a) :=
  releaseAny ⟨hs.toBalanced.put name, fun ho ↦ (hs.accounted ho).congr rfl rfl⟩

theorem forget (hs : Exact r loose s) (name : String) : Exact r loose (s.forget name) :=
  releaseAny ⟨hs.toBalanced.without name, fun ho ↦ (hs.accounted ho).congr rfl rfl⟩

theorem keepAlso (hs : Exact r loose s) (name other : String) :
    Exact r loose (s.keepAlso name other) := by
  rw [Ledgers.keepAlso]
  cases h : s.named? name with
  | none => exact hs
  | some a => exact (hs.retain (hs.count_pos_of_named? h)).keep other

theorem supplied (hs : Exact r loose s) {w : State} (hw : Supplies s.state a w) :
    Exact r (a :: loose) ({ s with state := w }.setCount a 1) :=
  ⟨hs.toBalanced.supplied hw, fun ho ↦ (hs.accounted ho).supplied (hs.not_made hw) hw⟩

theorem make (hs : Exact r loose s) (name : String) (c : Content) : Exact r loose (s.make name c) :=
  (hs.supplied (ends_allocation c s.state)).keep name

/-! ### Entries -/

theorem append (hs : Exact r (a :: loose) s) (i : Nat) : Exact r loose (s.append i a).2 := by
  refine hs.setPlaces fun b ↦ ?_
  have hsome : [some a].count (some b) = [a].count b := by simp [List.count_singleton]
  rw [List.count_append, hsome, count_cons_eq a b loose]
  omega

theorem record (hs : Exact r loose s) (i : Nat) (name : String) :
    Exact r loose (s.record i name).2 := by
  rw [Ledgers.record]
  cases h : s.named? name with
  | none => exact hs
  | some a => exact (hs.retain (hs.count_pos_of_named? h)).append i

theorem retainEach {as : List Allocation} (hs : Exact r loose s) (has : ∀ a ∈ as, 0 < s.count a) :
    Exact r (as ++ loose) (as.foldl Ledgers.retain s) := by
  induction as generalizing s loose with
  | nil => exact hs
  | cons a as ih =>
    have hretain := hs.retain (has a List.mem_cons_self)
    refine (ih hretain fun b hb ↦ ?_).congr fun b ↦ List.perm_middle.symm.count_eq b
    rw [count_retain]
    exact Nat.lt_of_lt_of_le (has b (List.mem_cons_of_mem _ hb)) (Nat.le_add_right _ _)

theorem appendEach {as : List Allocation} (hs : Exact r (as ++ loose) s) (i : Nat) :
    Exact r loose (as.foldl (fun t a ↦ (t.append i a).2) s) := by
  induction as generalizing s with
  | nil => exact hs
  | cons a as ih => exact ih (append hs i)

theorem share (hs : Exact r loose s) (source target : Nat) :
    Exact r loose (s.share source target).2 := by
  refine appendEach (retainEach hs fun a ha ↦ ?_) target
  exact hs.count_pos_of_mem (Places.mem_entries.1 (List.mem_of_mem_filter ha))

end Exact

/-! ## Releases -/

theorem vacate_cons_none {k : Nat} (ks : List Nat) (h : (s.places i).content? k = none) :
    vacate i s (k :: ks) = vacate i s ks := by
  rw [vacate, h]

/-- The ledgers after an allocation was taken out of its place and given up. -/
def giveUp (s : Ledgers) (i k : Nat) (a : Allocation) : Ledgers :=
  (s.setPlaces i ((s.places i).vacate k)).release a

theorem vacate_cons_some {k : Nat} (ks : List Nat) (h : (s.places i).content? k = some a) :
    vacate i s (k :: ks) =
      ((vacate i (s.giveUp i k a) ks).1 + 1, (vacate i (s.giveUp i k a) ks).2) := by
  rw [vacate, h]
  rfl

@[simp] theorem places_giveUp (s : Ledgers) (i j k : Nat) (a : Allocation) :
    (s.giveUp i k a).places j = if j = i then (s.places i).vacate k else s.places j := by
  rw [giveUp, places_release, places_setPlaces]

/-- What was in the places has gone, and other ledgers are as they were. -/
theorem places_vacate (s : Ledgers) (i j : Nat) (ks : List Nat) :
    (vacate i s ks).2.places j =
      if j = i then ks.foldl Places.vacate (s.places i) else s.places j := by
  induction ks generalizing s with
  | nil =>
    split
    · next hj =>
      subst hj
      rfl
    · rfl
  | cons k ks ih =>
    cases h : (s.places i).content? k with
    | none =>
      rw [vacate_cons_none ks h, ih, List.foldl_cons, Places.vacate_of_content?_eq_none h]
    | some a =>
      rw [vacate_cons_some ks h, ih, places_giveUp, places_giveUp, if_pos rfl]
      by_cases hj : j = i
      · rw [if_pos hj, if_pos hj, List.foldl_cons]
      · rw [if_neg hj, if_neg hj, if_neg hj]

theorem filterMap_giveUp (s : Ledgers) (i : Nat) {k : Nat} {ks : List Nat} (a : Allocation)
    (hks : (k :: ks).Nodup) :
    ks.filterMap ((s.giveUp i k a).places i).content? =
      ks.filterMap (s.places i).content? := by
  refine List.filterMap_congr fun j hj ↦ ?_
  rw [places_giveUp, if_pos rfl]
  exact Places.content?_vacate fun he ↦ (List.nodup_cons.1 hks).1 (he ▸ hj)

theorem vacate_fst (s : Ledgers) (i : Nat) {ks : List Nat} (hks : ks.Nodup) :
    (vacate i s ks).1 = (ks.filterMap (s.places i).content?).length := by
  induction ks generalizing s with
  | nil => rfl
  | cons k ks ih =>
    cases h : (s.places i).content? k with
    | none => rw [vacate_cons_none ks h, ih _ hks.of_cons, List.filterMap_cons_none h]
    | some a =>
      rw [vacate_cons_some ks h, ih _ hks.of_cons, filterMap_giveUp s i a hks,
        List.filterMap_cons_some h, List.length_cons]

theorem Exact.giveUp {k : Nat} (hs : Exact r loose s) (h : (s.places i).content? k = some a) :
    Exact r loose (s.giveUp i k a) := by
  refine Exact.release (hs.setPlaces fun b ↦ ?_)
  have hvacate := Places.count_vacate h b
  rw [count_cons_eq a b loose]
  omega

theorem Exact.vacate (hs : Exact r loose s) (ks : List Nat) :
    Exact r loose (Ledgers.vacate i s ks).2 := by
  induction ks generalizing s with
  | nil => exact hs
  | cons k ks ih =>
    cases h : (s.places i).content? k with
    | none =>
      rw [vacate_cons_none ks h]
      exact ih hs
    | some a =>
      rw [vacate_cons_some ks h]
      exact ih (hs.giveUp h)

/-- The places from a mark on. -/
def tail (s : Ledgers) (i mark : Nat) : List Nat :=
  List.range' mark ((s.places i).length - mark)

theorem truncateFrom_of_le {mark : Nat} (h : (s.places i).length ≤ mark) :
    s.truncateFrom i mark = (0, s) := if_pos h

theorem truncateFrom_of_lt {mark : Nat} (h : mark < (s.places i).length) :
    s.truncateFrom i mark =
      ((vacate i s (s.tail i mark)).1,
        (vacate i s (s.tail i mark)).2.setPlaces i
          (((vacate i s (s.tail i mark)).2.places i).take mark)) :=
  if_neg (Nat.not_le.2 h)

theorem places_vacate_tail {mark : Nat} (h : mark < (s.places i).length) :
    (vacate i s (s.tail i mark)).2.places i =
      (s.places i).take mark ++ List.replicate ((s.places i).length - mark) none := by
  rw [places_vacate, if_pos rfl, tail, Places.foldl_vacate mark _ (by omega)]

theorem take_vacate_tail {mark : Nat} (h : mark < (s.places i).length) :
    ((vacate i s (s.tail i mark)).2.places i).take mark = (s.places i).take mark := by
  have hlength : ((s.places i).take mark).length = mark := by
    rw [List.length_take]
    omega
  rw [places_vacate_tail h, List.take_left' hlength]

theorem places_truncateFrom (s : Ledgers) (i j mark : Nat) :
    (s.truncateFrom i mark).2.places j =
      if j = i then (s.places i).take mark else s.places j := by
  rcases Nat.lt_or_ge mark (s.places i).length with h | h
  · rw [truncateFrom_of_lt h, places_setPlaces]
    by_cases hj : j = i
    · rw [if_pos hj, if_pos hj, take_vacate_tail h]
    · rw [if_neg hj, if_neg hj, places_vacate, if_neg hj]
  · rw [truncateFrom_of_le h, List.take_of_length_le h]
    split
    · next hj => rw [hj]
    · rfl

theorem truncateFrom_fst (s : Ledgers) (i mark : Nat) :
    (s.truncateFrom i mark).1 = Places.live ((s.places i).drop mark) := by
  have hlive (p : Places) : p.entries.length = p.live := by
    rw [Places.entries, List.length_filterMap_eq_countP]
    rfl
  rcases Nat.lt_or_ge mark (s.places i).length with h | h
  · rw [truncateFrom_of_lt h]
    dsimp only
    rw [tail, vacate_fst s i List.nodup_range', Places.filterMap_content? mark _ (by omega), hlive]
  · rw [truncateFrom_of_le h, List.drop_eq_nil_of_le h]
    rfl

theorem Exact.truncateFrom (hs : Exact r loose s) (i mark : Nat) :
    Exact r loose (s.truncateFrom i mark).2 := by
  rcases Nat.lt_or_ge mark (s.places i).length with h | h
  · rw [truncateFrom_of_lt h]
    refine (hs.vacate (s.tail i mark)).setPlaces fun a ↦ ?_
    rw [take_vacate_tail h, places_vacate_tail h, List.count_append, List.count_replicate]
    rfl
  · rw [truncateFrom_of_le h]
    exact hs

/-! ## Full rows -/

theorem places_releaseAny (s : Ledgers) (given : Option Allocation) (i : Nat) :
    (s.releaseAny given).places i = s.places i := by
  cases given with
  | none => rfl
  | some a => exact places_release s a i

theorem places_keep (s : Ledgers) (name : String) (a : Allocation) (i : Nat) :
    (s.keep name a).places i = s.places i := places_releaseAny _ _ i

theorem places_forget (s : Ledgers) (name : String) (i : Nat) :
    (s.forget name).places i = s.places i := places_releaseAny _ _ i

theorem places_retainEach (s : Ledgers) (as : List Allocation) (i : Nat) :
    (as.foldl retain s).places i = s.places i := by
  induction as generalizing s with
  | nil => rfl
  | cons a as ih => exact ih (s.retain a)

theorem full_append (hs : ∀ j, (s.places j).Full) (i : Nat) (a : Allocation) (j : Nat) :
    ((s.append i a).2.places j).Full := by
  rw [append, places_setPlaces]
  split
  · exact (hs i).append a
  · exact hs j

theorem full_appendEach (hs : ∀ j, (s.places j).Full) (i : Nat) (as : List Allocation) (j : Nat) :
    ((as.foldl (fun t a ↦ (t.append i a).2) s).places j).Full := by
  induction as generalizing s with
  | nil => exact hs j
  | cons a as ih => exact ih (full_append hs i a)

theorem full_truncateFrom (hs : ∀ j, (s.places j).Full) (i mark j : Nat) :
    ((s.truncateFrom i mark).2.places j).Full := by
  rw [places_truncateFrom]
  split
  · exact (hs i).take mark
  · exact hs j

/-! ## Sequences -/

/-- What is true of ledgers between two dealings. -/
structure Tidy (r s : Ledgers) : Prop where
  exact : Exact r [] s
  full : ∀ i, (s.places i).Full

theorem Tidy.deal (hs : Tidy r s) (d : Dealing) : Tidy r (s.deal d) := by
  cases d with
  | make name c =>
    refine ⟨hs.exact.make name c, fun i ↦ ?_⟩
    exact (places_keep _ name _ i).symm ▸ hs.full i
  | keepAlso name other =>
    refine ⟨hs.exact.keepAlso name other, fun i ↦ ?_⟩
    rw [Ledgers.deal, keepAlso]
    split
    · exact hs.full i
    · rw [places_keep]
      exact hs.full i
  | forget name =>
    refine ⟨hs.exact.forget name, fun i ↦ ?_⟩
    rw [Ledgers.deal, places_forget]
    exact hs.full i
  | record i name =>
    refine ⟨hs.exact.record i name, fun j ↦ ?_⟩
    rw [Ledgers.deal, record]
    split
    · exact hs.full j
    · exact full_append hs.full i _ j
  | truncateFrom i mark =>
    exact ⟨hs.exact.truncateFrom i mark, full_truncateFrom hs.full i mark⟩
  | releaseAll i => exact ⟨hs.exact.truncateFrom i 0, full_truncateFrom hs.full i 0⟩
  | share source target =>
    refine ⟨hs.exact.share source target, full_appendEach (fun j ↦ ?_) target _⟩
    rw [places_retainEach]
    exact hs.full j

theorem Tidy.after (hs : Tidy r s) (ds : List Dealing) : Tidy r (s.after ds) := by
  induction ds generalizing s with
  | nil => exact hs
  | cons d ds ih => exact ih (hs.deal d)

/-- Ledgers without anything in them, and nothing outside. -/
def start (policy : Policy) (host : Host) : Ledgers := { state := { policy, host } }

theorem Tidy.start (policy : Policy) (host : Host) :
    Tidy (start policy host) (start policy host) where
  exact := ⟨⟨List.nodup_nil, List.nodup_nil, nofun, fun _ ↦ rfl⟩, fun ho ↦
    ⟨fun _ h ↦ h, fun _ ↦ Nat.le_refl _, ho, nofun, nofun, fun _ _ ↦ rfl, nofun⟩⟩
  full _ := List.not_mem_nil

theorem Accounted.self (hs : Accounted r s) : Accounted s s :=
  { hs with
    still := fun _ h ↦ h
    earlier := fun _ ↦ Nat.le_refl _ }

/-- A list is freed when the count of its allocation comes down to nothing, and at no other time. -/
theorem Tidy.frees_deal (hs : Tidy r s) (ho : Api.inProcess.Offers r.state.policy .listFree)
    (d : Dealing) {n : Nat} (ha : s.Made a) (hn : a.nativeList? = some n) :
    (s.deal d).state.frees n =
      s.state.frees n + if 0 < s.count a ∧ (s.deal d).count a = 0 then 1 else 0 := by
  have hacc := hs.exact.accounted ho
  have hself : Tidy s s := ⟨⟨hs.exact.toBalanced, fun _ ↦ hacc.self⟩, hs.full⟩
  have ht := (hself.deal d).exact.accounted hacc.offers
  have hbefore := hacc.frees a n ha hn
  have hafter := ht.frees a n (ht.still a ha) hn
  have hle := ht.earlier n
  by_cases hcount : s.count a = 0
  · rw [if_pos hcount] at hbefore
    rw [if_neg fun h ↦ h.1.ne' hcount]
    -- What was freed is not taken back, so the count does not go up again.
    split at hafter
    · omega
    · omega
  · rw [if_neg hcount] at hbefore
    rw [hbefore, hafter, Nat.zero_add]
    by_cases hzero : (s.deal d).count a = 0
    · rw [if_pos hzero, if_pos ⟨Nat.pos_of_ne_zero hcount, hzero⟩]
    · rw [if_neg hzero, if_neg fun h ↦ hzero h.2]

/-! ## Counting and looking -/

/-- Whether an allocation is found under a name or in a ledger. -/
def holds (s : Ledgers) (a : Allocation) : Bool := 0 < s.outsiders a + s.recorded a

theorem count_giveUp (s : Ledgers) (i k : Nat) (a b : Allocation) :
    (s.giveUp i k a).count b = s.count b - [a].count b := count_release _ a b

theorem count_vacate (s : Ledgers) (i : Nat) {ks : List Nat} (hks : ks.Nodup) (b : Allocation) :
    (vacate i s ks).2.count b =
      s.count b - (ks.filterMap (s.places i).content?).count b := by
  induction ks generalizing s with
  | nil => rfl
  | cons k ks ih =>
    cases h : (s.places i).content? k with
    | none => rw [vacate_cons_none ks h, ih _ hks.of_cons, List.filterMap_cons_none h]
    | some a =>
      rw [vacate_cons_some ks h, ih _ hks.of_cons, filterMap_giveUp s i a hks, count_giveUp,
        List.filterMap_cons_some h, count_cons_eq a b (ks.filterMap _), Nat.sub_sub]

/-- Of some that go, the first frees its list exactly if nobody holds it once the others have gone
too. -/
theorem freeing_release {held : Allocation → Bool} {rest : List Allocation}
    (hle : (a :: rest).count a ≤ s.count a)
    (hheld : held a = decide (0 < s.count a - (a :: rest).count a)) :
    ((freeNativeLists .inProcess (Ledger.orphans held rest)).run (s.release a).state).2 =
      ((freeNativeLists .inProcess (Ledger.orphans held (a :: rest))).run s.state).2 := by
  rw [List.count_cons_self] at hle hheld
  have hkept : (held a || rest.contains a) = true ↔ s.count a ≠ 1 := by
    rw [hheld, Bool.or_eq_true, decide_eq_true_eq, List.contains_iff_mem, ← List.count_pos_iff]
    omega
  rw [release_eq, Ledger.orphans]
  by_cases hlast : s.count a = 1
  · rw [if_pos hlast, if_neg fun h ↦ hkept.1 h hlast]
    rfl
  · rw [if_neg hlast, if_pos (hkept.2 hlast)]

/-- What is freed as counts come down to nothing, one after the other, is what nobody holds once all
have gone. -/
theorem state_vacate (s : Ledgers) (i : Nat) {ks : List Nat} (hks : ks.Nodup)
    (hle : ∀ b, (ks.filterMap (s.places i).content?).count b ≤ s.count b)
    {held : Allocation → Bool} (hheld : ∀ b, held b =
      decide (0 < s.count b - (ks.filterMap (s.places i).content?).count b)) :
    (vacate i s ks).2.state =
      ((freeNativeLists .inProcess
        (Ledger.orphans held (ks.filterMap (s.places i).content?))).run s.state).2 := by
  induction ks generalizing s with
  | nil => rfl
  | cons k ks ih =>
    cases h : (s.places i).content? k with
    | none =>
      rw [vacate_cons_none ks h]
      rw [List.filterMap_cons_none h] at hle hheld ⊢
      exact ih s hks.of_cons hle hheld
    | some a =>
      have hrest := filterMap_giveUp s i a hks
      rw [vacate_cons_some ks h]
      rw [List.filterMap_cons_some h] at hle hheld ⊢
      refine (ih (s.giveUp i k a) hks.of_cons (fun b ↦ ?_) fun b ↦ ?_).trans ?_
      · have hb := hle b
        rw [count_cons_eq a b (ks.filterMap _)] at hb
        rw [hrest, count_giveUp]
        omega
      · rw [hheld, count_cons_eq a b (ks.filterMap _), hrest, count_giveUp, Nat.sub_sub]
      · rw [hrest]
        exact freeing_release (s := s.setPlaces i _) (hle a) (hheld a)

/-- Whoever counts frees what anybody would free who looks at all names and ledgers afterwards. -/
theorem Tidy.state_truncateFrom (hs : Tidy r s) (i mark : Nat) :
    (s.truncateFrom i mark).2.state =
      ((freeNativeLists .inProcess (Ledger.orphans (s.truncateFrom i mark).2.holds
        ((s.places i).entries.since mark))).run s.state).2 := by
  rw [Ledger.since, ← (hs.full i).entries_drop]
  have htail : (s.tail i mark).Nodup := List.nodup_range'
  rcases Nat.lt_or_ge mark (s.places i).length with h | h
  · have hgone : (s.tail i mark).filterMap (s.places i).content? =
        Places.entries ((s.places i).drop mark) := Places.filterMap_content? mark _ (by omega)
    have hle (b : Allocation) :
        ((s.tail i mark).filterMap (s.places i).content?).count b ≤ s.count b := by
      rw [hgone, Places.count_entries]
      exact ((List.drop_sublist mark _).count_le _).trans (hs.exact.count_places_le i b)
    have hheld (b : Allocation) : (s.truncateFrom i mark).2.holds b =
        decide (0 < s.count b - ((s.tail i mark).filterMap (s.places i).content?).count b) := by
      have hcounted := (hs.exact.truncateFrom i mark).counted b
      rw [holds, ← count_vacate s i htail b]
      rw [truncateFrom_of_lt h] at hcounted ⊢
      exact congrArg (fun n ↦ decide (0 < n)) hcounted.symm
    have hstate := state_vacate s i htail hle hheld
    rw [truncateFrom_of_lt h] at hstate ⊢
    rw [← hgone]
    exact hstate
  · rw [truncateFrom_of_le h, List.drop_eq_nil_of_le h]
    rfl

/-- Whatever is made, named, recorded, shared and released, in any order and with any marks: an
allocation always counts as many holders as there are names and ledger entries that hold it. A
release takes away the entries from the mark on, keeps those before it in their order, and tells how
many have gone. And where the engine can free lists, a list is freed once, by the dealing that
brings the count of its allocation down to nothing. -/
theorem holders_are_counted_and_lists_freed_once (policy : Policy) (host : Host)
    (ds : List Dealing) :
    let s := (start policy host).after ds
    (∀ i, (s.places i).position = (s.places i).live) ∧
      (∀ i mark, (s.truncateFrom i mark).1 = (s.places i).position - mark ∧
        ∀ j, (s.truncateFrom i mark).2.places j =
          if j = i then (s.places i).take mark else s.places j) ∧
      (∀ a, s.count a = s.outsiders a + s.recorded a) ∧
      (Api.inProcess.Offers policy .listFree → ∀ a n, s.Made a → a.nativeList? = some n →
        (s.state.frees n = if s.count a = 0 then 1 else 0) ∧
          ∀ d, (s.deal d).state.frees n =
            s.state.frees n + if 0 < s.count a ∧ (s.deal d).count a = 0 then 1 else 0) := by
  intro s
  have hs : Tidy (start policy host) s := (Tidy.start policy host).after ds
  refine ⟨fun i ↦ (hs.full i).live.symm, fun i mark ↦ ⟨?_, fun j ↦ ?_⟩, hs.exact.counted,
    fun ho a n ha hn ↦ ⟨(hs.exact.accounted ho).frees a n ha hn, fun d ↦
      hs.frees_deal ho d ha hn⟩⟩
  · have hdrop : Places.Full ((s.places i).drop mark) :=
      fun hmem ↦ hs.full i (List.mem_of_mem_drop hmem)
    rw [truncateFrom_fst, hdrop.live]
    exact List.length_drop
  · exact places_truncateFrom s i j mark

/-- Two ledgers share a list that was given up outside. It is still there when the first of them is
released, and is freed with the second. -/
theorem holders_are_counted_and_lists_freed_once_shared :
    let s := (start {} .bare).after [.make "a" (.list ["x"]), .record 0 "a", .share 0 1,
      .forget "a", .truncateFrom 0 7, .releaseAll 0]
    s.count (.list 0 (some 1)) = 1 ∧ s.state.frees 1 = 0 ∧
      (s.deal (.releaseAll 1)).state.frees 1 = 1 := by
  intro s
  have ho : Api.inProcess.Offers {} .listFree := ⟨rfl, fun _ _ ↦ rfl⟩
  obtain ⟨-, -, -, hfrees⟩ := holders_are_counted_and_lists_freed_once {} .bare
    [.make "a" (.list ["x"]), .record 0 "a", .share 0 1, .forget "a", .truncateFrom 0 7,
      .releaseAll 0]
  obtain ⟨hnow, hnext⟩ := hfrees ho (.list 0 (some 1)) 1 (by decide) rfl
  have hcount : s.count (.list 0 (some 1)) = 1 := by decide
  have hthen : (s.deal (.releaseAll 1)).count (.list 0 (some 1)) = 0 := by decide
  have hpos : 0 < s.count (.list 0 (some 1)) := Nat.lt_of_lt_of_eq Nat.one_pos hcount.symm
  have hnone : s.state.frees 1 = 0 := hnow.trans (if_neg hpos.ne')
  have hfreed : (s.deal (.releaseAll 1)).state.frees 1 = s.state.frees 1 + 1 :=
    (hnext (.releaseAll 1)).trans (congrArg _ (if_pos ⟨hpos, hthen⟩))
  exact ⟨hcount, hnone, hfreed.trans (congrArg (· + 1) hnone)⟩

end NativeTransfer.Script.Ledgers
