import NativeTransfer.Proofs.Inherited
import NativeTransfer.Proofs.Stranded
import NativeTransfer.Proofs.Turnover

/-!
# Who answers for a list

Several ledgers may record one list, and it goes with the last of them. So every list is accounted
for: while it is there some ledger records it, and once none does it has been freed, once. An
address that the engine holds on behalf of a wrapper is recorded in that very wrapper's ledger, and
a duplicate takes both over.

## What the accounts say

A list that is there and not freed is held by some ledger, and one that was freed was freed once.
The numbers of frees are read off the trace, so this is about calls that were made and not about
what the library takes itself to have done. A step makes lists and takes them down again, or leaves
one that was set, or releases entries from a ledger, and the accounts have a lemma for each of the
three.

What is said of one list through a row of duplicates is then put together from three things: the
value is passed on with the option (`bequest`), whoever it stands for has an entry of its own, and
the list is not freed before the last entry has gone.
-/

namespace NativeTransfer

open State Wrapper

/-! ## Ways to the engine -/

section

variable {s t : State} {id j : WrapperId} {x : Step} {r : Except Error WrapperId}

theorem State.Ended.api (hu : s.Ended id t) (j : WrapperId) :
    (t.wrapper j).api = (s.wrapper j).api := by
  have hempty (u : State) : ((u.empty id).wrapper j).api = (u.wrapper j).api := by
    refine proj_modifyWrapper u id j Wrapper.api ?_
    exact fun _ ↦ rfl
  cases hu with
  | unserved => exact hempty s
  | @served h closed =>
    refine (hempty _).trans ?_
    have hw := proj_modifyWrapper s id j Wrapper.api (f := ({ · with handle := none })) fun _ ↦ rfl
    cases closed with
    | false => exact hw
    | true => exact hw

theorem Wrapper.Touched.api {h : Nat} {o : OptionCode} {f : Slots → Slots} {as : List Allocation}
    {xs : List (OptionCode × Argument)} (ht : Touched s id h o f as xs t) (j : WrapperId) :
    (t.wrapper j).api = (s.wrapper j).api := by
  rw [ht.drift.wrapper, wrapper_storeAll, recordAll, withSlots, modifyWrapper_modifyWrapper]
  refine proj_modifyWrapper s id j Wrapper.api ?_
  exact fun _ ↦ rfl

theorem State.api_remove (hj : j ≠ id) : ((s.remove id).wrapper j).api = (s.wrapper j).api := by
  rw [wrapper_remove_of_ne s hj]

/-- A wrapper keeps its way to the engine, and a new one has the way that it was made with or its
source's. -/
theorem Effect.api (hn : s.Numbered) (he : Effect s x r t) (hj : j ∈ t.ids) :
    (∃ api, x = .create api ∧ (t.wrapper j).api = api) ∨
      ∃ i ∈ s.ids, (t.wrapper j).api = (s.wrapper i).api := by
  have hsame (hids : t.ids = s.ids) (hw : (t.wrapper j).api = (s.wrapper j).api) :
      ∃ i ∈ s.ids, (t.wrapper j).api = (s.wrapper i).api := ⟨j, hids ▸ hj, hw⟩
  have hmade {api : Api} {h : Nat} (hids : t.ids = (s.make h api).ids)
      (hw : (t.wrapper j).api = ((s.make h api).wrapper j).api) :
      (∃ api', Step.create api = .create api' ∧ (t.wrapper j).api = api') ∨
        ∃ i ∈ s.ids, (t.wrapper j).api = (s.wrapper i).api := by
    rw [hids, make, ids_adopt, List.mem_append, List.mem_singleton] at hj
    by_cases he : j = s.opened
    · subst he
      rw [wrapper_make hn] at hw
      exact .inl ⟨api, rfl, hw⟩
    · refine .inr ⟨j, hj.resolve_right he, hw.trans ?_⟩
      exact congrArg Wrapper.api ((wrapper_adopt_told hn _ _ _ h api j).trans (if_neg he))
  cases he with
  | request _ hd =>
    obtain ⟨y, -, hw⟩ := hd.wrapper j
    exact .inr (hsame hd.ids (by rw [hw]))
  | failed hd => exact .inr (hsame hd.ids (by rw [hd.wrapper]))
  | set _ ha =>
    obtain ⟨f, as, xs, ht⟩ := ha.touched
    exact .inr (hsame ht.ids (ht.api j))
  | made _ hd => exact hmade hd.ids (by rw [hd.wrapper])
  | bundled _ ha =>
    obtain ⟨f, as, xs, ht⟩ := ha.touched
    exact hmade ht.ids (ht.api j)
  | @twinned id g h _ hh _ hd =>
    right
    by_cases he : j = s.opened
    · refine ⟨id, mem_ids_of_handle hh, ?_⟩
      rw [he, hd.wrapper, wrapper_storeAll, wrapper_twin hn]
    · refine ⟨j, ?_, ?_⟩
      · have hids : t.ids = s.ids ++ [s.opened] := by
          rw [hd.ids, ids_storeAll, twin, recordAll, ids_modifyWrapper, ids_adopt]
          rfl
        rw [hids, List.mem_append, List.mem_singleton] at hj
        exact hj.resolve_right he
      · rw [hd.wrapper, wrapper_storeAll, wrapper_twin_of_ne hn _ _ _ he]
  | @undone id g h _ done closed _ _ hh _ _ _ hd =>
    obtain ⟨hids, -⟩ := ids_undone hn id g h done closed
    have hne : j ≠ s.opened := by
      rintro rfl
      exact hn.notMem (hids ▸ hd.ids ▸ hj)
    have hh' : (((s.twin id g h).storeAll s.opened h done).wrapper s.opened).handle = some h := by
      rw [wrapper_storeAll, wrapper_twin hn]
    refine .inr (hsame (hd.ids.trans hids) ?_)
    rw [hd.wrapper, api_remove hne, (Ended.served closed hh').api, wrapper_storeAll,
      wrapper_twin_of_ne hn _ _ _ hne]
  | @wiped id h _ _ _ _ hd =>
    refine .inr (hsame (hd.ids.trans (ids_modifyWrapper _ _ _)) ?_)
    rw [hd.wrapper]
    refine proj_modifyWrapper (s.clear _ h) id j Wrapper.api ?_
    exact fun _ ↦ rfl
  | @released id mark _ _ _ hd =>
    refine .inr (hsame (hd.ids.trans (ids_modifyWrapper _ _ _)) ?_)
    rw [hd.wrapper]
    refine proj_modifyWrapper s id j Wrapper.api ?_
    exact fun _ ↦ rfl
  | cleaned hu _ hd =>
    exact .inr (hsame (hd.ids.trans hu.spec.2.2.1) (by rw [hd.wrapper, hu.api]))
  | @dropped id u _ _ hu _ hd =>
    rw [hd.ids, ids_remove, List.mem_filter, hu.spec.2.2.1] at hj
    refine .inr ⟨j, hj.1, ?_⟩
    rw [hd.wrapper, api_remove (of_decide_eq_true hj.2), hu.api]

/-- As long as every new wrapper can free a list, every wrapper can. -/
theorem Effect.provided (hn : s.Numbered) (he : Effect s x r t) (hprov : s.Provided)
    (hmake : ∀ api, x = .create api → api.Offers s.policy .listFree) : t.Provided := by
  intro j hj
  rw [he.policy]
  rcases he.api hn hj with ⟨api, hx, hw⟩ | ⟨i, hi, hw⟩
  · rw [hw]
    exact hmake api hx
  · rw [hw]
    exact hprov i hi

/-! ## Records -/

/-- Some ledger records a list. -/
def State.Held (s : State) (n : Nat) : Prop :=
  ∃ j, ∃ a ∈ (s.wrapper j).ledger, a.nativeList? = some n

/-- Unless a wrapper gives up what it kept, no ledger loses anything. -/
theorem Effect.ledger_subset (hc : s.Coherent) (he : Effect s x r t)
    (hx : r.isOk = true → x.released? = none) (j : WrapperId) :
    (s.wrapper j).ledger ⊆ (t.wrapper j).ledger := by
  by_cases hj : j ∈ s.ids
  · by_cases htarget : x.target? = some j
    · cases he with
      | request hreq =>
        rw [(Step.of_isRequest hreq).1] at htarget
        cases htarget
      | failed hd =>
        rw [hd.wrapper]
        exact List.Subset.refl _
      | set hh ha =>
        obtain rfl := Option.some.inj htarget
        obtain ⟨f, as, xs, ht⟩ := ha.touched
        rw [ht.wrapper (isAlive_iff.2 hj)]
        exact List.subset_append_left _ _
      | made | bundled | twinned | undone => cases htarget
      | wiped | released | cleaned | dropped => cases hx rfl
    · rw [(he.keeps hc (fun _ ↦ hc.opened_ne hj) htarget).ledger]
      exact List.Subset.refl _
  · rw [wrapper_of_notMem hj]
    exact List.nil_subset _

/-- A wrapper that gives up what it kept from a mark on keeps the rest, and so do all others. -/
theorem Effect.ledger_cut_subset {mark : Nat} (hc : s.Coherent) (he : Effect s x r t)
    (hx : x.released? = some (id, mark)) (hr : r.isOk = true) (j : WrapperId) :
    ((s.cut id mark).wrapper j).ledger ⊆ (t.wrapper j).ledger := by
  by_cases hj : j = id
  · subst hj
    -- Nothing is left where the mark is the beginning.
    have hnone {i : WrapperId} (hx : some (i, 0) = some (j, mark)) :
        ((s.cut j mark).wrapper j).ledger ⊆ (t.wrapper j).ledger := by
      obtain ⟨-, rfl⟩ := Prod.ext_iff.1 (Option.some.inj hx)
      rw [ledger_cut_self]
      exact List.nil_subset _
    cases he with
    | request hreq => cases x <;> cases hreq <;> cases hx
    | failed => cases hr
    | set | made | bundled | twinned | undone => cases hx
    | released _ hd =>
      obtain ⟨rfl, rfl⟩ := Prod.ext_iff.1 (Option.some.inj hx)
      rw [hd.wrapper]
      exact List.Subset.refl _
    | wiped | cleaned | dropped => exact hnone hx
  · rw [ledger_cut_of_ne s hj]
    have htarget : x.target? = some id ∧ x.makes = false := by
      cases x with
      | release | reset | cleanup | drop =>
        exact ⟨congrArg some (Prod.ext_iff.1 (Option.some.inj hx)).1, rfl⟩
      | _ => cases hx
    have hk : Keeps s t j := by
      refine he.keeps hc (fun hm ↦ ?_) fun h ↦ ?_
      · rw [htarget.2] at hm
        cases hm
      · exact hj (Option.some.inj (h.symm.trans htarget.1))
    rw [hk.ledger]
    exact List.Subset.refl _

/-- What another wrapper keeps, or this one does not give up alone, stays held. -/
theorem Effect.held_of_released {mark : Nat} (hc : s.Coherent) (he : Effect s x r t)
    (hx : x.released? = some (id, mark)) (hr : r.isOk = true) {n : Nat} (hh : s.Held n)
    (hn : n ∉ s.orphaned id mark) : t.Held n := by
  have hkept {j : WrapperId} {a : Allocation} (ha : a ∈ ((s.cut id mark).wrapper j).ledger)
      (han : a.nativeList? = some n) : t.Held n :=
    ⟨j, a, he.ledger_cut_subset hc hx hr j ha, han⟩
  obtain ⟨j, a, ha, han⟩ := hh
  by_cases hheld : (s.cut id mark).holds a = true
  · have hnodup : (s.cut id mark).ids.Nodup := by
      rw [cut, ids_modifyWrapper]
      exact hc.numbered.nodup
    obtain ⟨i, hi⟩ := exists_of_holds hnodup hheld
    exact hkept hi han
  · by_cases hj : j = id
    · subst hj
      rw [← Ledger.before_append_since (s.wrapper j).ledger mark] at ha
      rcases List.mem_append.1 ha with hbefore | hsince
      · rw [← ledger_cut_self] at hbefore
        exact hkept hbefore han
      · refine absurd (List.mem_filterMap.2 ⟨a, ?_, han⟩) hn
        exact Ledger.mem_orphans.2 ⟨hsince, Bool.eq_false_iff.2 hheld⟩
    · exact hkept (ledger_cut_of_ne s hj mark ▸ ha) han

/-- A list that was built for an option is recorded there. -/
theorem Effect.held_of_built {o : OptionCode} {items : List String} {n : Nat}
    (he : Effect s (.setopt id o (.list items)) (.ok id) t) (hb : Building s items (some n) t) :
    t.Held n := by
  cases hb with
  | grown hne hlists =>
    have hkept : (Value.list items).isKept = true := decide_eq_true hne
    generalize hr : (.ok id : Except Error WrapperId) = r at he
    cases he with
    | request hx => cases hx
    | failed => cases hr
    | @set _ h _ _ r _ hh ha =>
      cases ha with
      | refused => cases hr
      | rewired _ hv =>
        rw [hv] at hkept
        cases hkept
      | plain _ ha =>
        cases ha with
        | refused => cases hr
        | bare hv => cases hv
        | @list _ as head m _ _ _ hbuilt hd =>
          cases head with
          | none => exact absurd hbuilt hne
          | some k =>
            -- There is only one list that was none before.
            obtain ⟨-, hnone, hsome⟩ := hbuilt
            have hk : k = s.engine.lists.length + 1 := by
              by_contra hk
              rw [Engine.list?_of_concat hlists, if_neg hk, hnone] at hsome
              cases hsome
            refine ⟨id, .list m (some k), ?_, congrArg some hk⟩
            rw [hd.wrapper, wrapper_store, ledger_recordAll (isAlive_of_handle hh)]
            exact List.mem_append_right _ (List.mem_append_right _ (List.mem_singleton.2 rfl))

/-! ## Accounts -/

/-- Every list is accounted for: some ledger records it while it is there, and it is freed once. -/
structure State.Accounted (s : State) : Prop where
  /-- What was not built is not freed. -/
  absent : ∀ n, s.engine.list? n = none → s.frees n = 0
  frees : ∀ n l, s.engine.list? n = some l → s.frees n = if l.freed then 1 else 0
  held : ∀ n l, s.engine.list? n = some l → l.freed = false → s.Held n
  /-- What was heard of as being built is there. -/
  grown : ∀ n, .grown n ∈ s.listing → s.engine.list? n ≠ none

theorem State.Accounted.start (policy : Policy) (host : Host) (settled : Settled) :
    (State.start policy host settled).Accounted := by
  have hnone (n : Nat) : (State.start policy host settled).engine.list? n = none := by
    cases n with
    | zero => rfl
    | succ n => rfl
  refine ⟨fun _ _ ↦ rfl, fun n l hl ↦ ?_, fun n l hl ↦ ?_, fun n hn ↦ ?_⟩
  · cases (hnone n).symm.trans hl
  · cases (hnone n).symm.trans hl
  · exact absurd hn List.not_mem_nil

/-- Lists that come and go within a step do not matter. -/
theorem State.Accounted.passing (ha : s.Accounted) (hp : Passing s t)
    (hh : ∀ n, s.Held n → t.Held n) : t.Accounted where
  absent n hn := by
    cases hs : s.engine.list? n with
    | none =>
      rcases hp.new n hs with ⟨-, hfrees⟩ | ⟨l, hl, -⟩
      · exact hfrees.trans (ha.absent n hs)
      · cases hn.symm.trans hl
    | some l => cases hn.symm.trans (hp.old n l hs).1
  frees n l hl := by
    cases hs : s.engine.list? n with
    | none =>
      rcases hp.new n hs with ⟨ht, -⟩ | ⟨l', hl', hfreed, hfrees⟩
      · cases ht.symm.trans hl
      · obtain rfl : l = l' := Option.some.inj (hl.symm.trans hl')
        rw [hfrees, ha.absent n hs, if_pos hfreed]
    | some l' =>
      obtain ⟨ht, hfrees⟩ := hp.old n l' hs
      obtain rfl : l = l' := Option.some.inj (hl.symm.trans ht)
      exact hfrees.trans (ha.frees n l hs)
  held n l hl hfreed := by
    cases hs : s.engine.list? n with
    | none =>
      rcases hp.new n hs with ⟨ht, -⟩ | ⟨l', hl', hfreed', -⟩
      · cases ht.symm.trans hl
      · obtain rfl : l = l' := Option.some.inj (hl.symm.trans hl')
        cases hfreed.symm.trans hfreed'
    | some l' =>
      obtain rfl : l = l' := Option.some.inj (hl.symm.trans (hp.old n l' hs).1)
      exact hh n (ha.held n l hs hfreed)
  grown n hn := by
    rcases hp.grown n hn with hs | ht
    · obtain ⟨l, hl⟩ := Option.ne_none_iff_exists'.1 (ha.grown n hs)
      rw [(hp.old n l hl).1]
      exact nofun
    · exact ht

/-- A new list is one that is recorded. -/
theorem State.Accounted.building {items : List String} {n : Nat} (ha : s.Accounted)
    (hb : Building s items (some n) t) (hh : ∀ m, s.Held m → t.Held m) (hn : t.Held n) :
    t.Accounted := by
  cases hb with
  | grown _ hlists hlisting =>
    have hlist := Engine.list?_of_concat hlists
    have hfrees (m : Nat) : t.frees m = s.frees m := by
      rw [State.frees, State.frees, hlisting, List.countP_append, List.countP_replicate]
      rfl
    have hnew : s.engine.list? (s.engine.lists.length + 1) = none :=
      List.getElem?_eq_none (Nat.le_refl _)
    refine ⟨fun m hm ↦ ?_, fun m l hl ↦ ?_, fun m l hl hfreed ↦ ?_, fun m hm ↦ ?_⟩
    · rw [hlist] at hm
      split at hm
      · cases hm
      · rw [hfrees, ha.absent m hm]
    · rw [hlist] at hl
      split at hl
      · next he =>
        obtain rfl := Option.some.inj hl
        rw [hfrees, he, ha.absent _ hnew]
        rfl
      · rw [hfrees, ha.frees m l hl]
    · rw [hlist] at hl
      split at hl
      · next he => exact he ▸ hn
      · exact hh m (ha.held m l hl hfreed)
    · rw [hlisting, List.mem_append, List.mem_replicate] at hm
      rw [hlist]
      split
      · exact Option.some_ne_none _
      · next hne =>
        rcases hm with hm | ⟨-, hm⟩
        · exact ha.grown m hm
        · exact absurd (ListEvent.grown.inj hm) hne

theorem Ledger.nodup_orphans (held : Allocation → Bool) (l : Ledger) :
    (Ledger.orphans held l).Nodup := by
  induction l with
  | nil => exact List.nodup_nil
  | cons a l ih =>
    rw [orphans]
    split
    · exact ih
    · next hne =>
      refine List.nodup_cons.2 ⟨fun hm ↦ hne ?_, ih⟩
      rw [List.contains_iff_mem.2 (mem_orphans.1 hm).1, Bool.or_true]

/-- A list has one entry in a ledger, so it is freed once with it. -/
theorem State.Coherent.nodup_orphaned (hc : s.Coherent) (id : WrapperId) (mark : Nat) :
    (s.orphaned id mark).Nodup := by
  rw [orphaned, List.Nodup, List.pairwise_filterMap]
  refine (Ledger.nodup_orphans _ _).imp_of_mem fun ha hb hne n hn m hm he ↦ hne ?_
  subst he
  have hmem {a : Allocation} (ha : a ∈ Ledger.orphans (s.cut id mark).holds
      ((s.wrapper id).ledger.since mark)) : a ∈ (s.wrapper id).ledger :=
    List.mem_of_mem_drop (Ledger.mem_orphans.1 ha).1
  exact hc.single id id _ (hmem ha) _ (hmem hb) n hn hm

/-- What goes is freed for the first time, and what stays is held by somebody else. -/
theorem State.Accounted.freeing {mark : Nat} (hc : s.Coherent) (ha : s.Accounted)
    (hf : Freeing s (s.orphaned id mark) t)
    (hh : ∀ n, s.Held n → n ∉ s.orphaned id mark → t.Held n) : t.Accounted := by
  have hold {n : Nat} (hn : n ∈ s.orphaned id mark) :
      ∃ l, s.engine.list? n = some l ∧ l.freed = false := by
    obtain ⟨a, hm, han⟩ := List.mem_filterMap.1 hn
    exact hc.intact id a (List.mem_of_mem_drop (Ledger.mem_orphans.1 hm).1) n han
  refine ⟨fun n hn ↦ ?_, fun n l hl ↦ ?_, fun n l hl hfreed ↦ ?_, fun n hn ↦ ?_⟩
  · rw [hf.lists] at hn
    have hmem : n ∉ s.orphaned id mark := by
      intro hmem
      obtain ⟨l, hl, -⟩ := hold hmem
      rw [if_pos hmem, hl] at hn
      cases hn
    rw [if_neg hmem] at hn
    rw [hf.frees, ha.absent n hn, List.count_eq_zero_of_not_mem hmem]
  · rw [hf.lists] at hl
    rw [hf.frees]
    by_cases hmem : n ∈ s.orphaned id mark
    · obtain ⟨l', hl', hfreed⟩ := hold hmem
      rw [if_pos hmem, hl'] at hl
      obtain rfl := Option.some.inj hl
      rw [ha.frees n l' hl', hfreed, List.count_eq_one_of_mem (hc.nodup_orphaned id mark) hmem]
      rfl
    · rw [if_neg hmem] at hl
      rw [ha.frees n l hl, List.count_eq_zero_of_not_mem hmem, Nat.add_zero]
  · rw [hf.lists] at hl
    by_cases hmem : n ∈ s.orphaned id mark
    · obtain ⟨l', hl', -⟩ := hold hmem
      rw [if_pos hmem, hl'] at hl
      obtain rfl := Option.some.inj hl
      cases hfreed
    · rw [if_neg hmem] at hl
      exact hh n (ha.held n l hl hfreed) hmem
  · have hgrown : .grown n ∈ s.listing := by
      rw [hf.listing, List.mem_append, List.mem_map] at hn
      exact hn.resolve_right fun ⟨_, _, he⟩ ↦ by cases he
    obtain ⟨l, hl⟩ := Option.ne_none_iff_exists'.1 (ha.grown n hgrown)
    rw [hf.lists, hl]
    split
    · exact nofun
    · exact nofun

theorem Effect.accounted (hc : s.Coherent) (he : Effect s x r t) (ht : Traffic s x r t)
    (ha : s.Accounted) : t.Accounted := by
  have hmono (hx : r.isOk = true → x.released? = none) (n : Nat) : s.Held n → t.Held n :=
    fun ⟨j, a, hm, han⟩ ↦ ⟨j, a, he.ledger_subset hc hx j hm, han⟩
  cases ht with
  | passed hx hp => exact ha.passing hp (hmono hx)
  | built hb => exact ha.building hb (hmono fun _ ↦ rfl) (he.held_of_built hb)
  | freed hx hf => exact ha.freeing hc hf fun n hn ↦ he.held_of_released hc hx rfl hn

/-- All along a run in which every wrapper can free a list. -/
theorem State.Orderly.accounted (hc : s.Coherent) (ha : s.Accounted) (hprov : s.Provided)
    {xs : List Step} (ho : s.Orderly xs)
    (hmake : ∀ api, .create api ∈ xs → api.Offers s.policy .listFree) :
    (s.after xs).Accounted ∧ (s.after xs).Provided := by
  refine ho.induction hc (P := fun xs ↦ (∀ api, .create api ∈ xs → api.Offers s.policy .listFree) →
    (s.after xs).Accounted ∧ (s.after xs).Provided) (fun _ ↦ ⟨ha, hprov⟩) ?_ hmake
  intro xs x hcoh he ih hmake
  obtain ⟨ha, hprov⟩ := ih fun api hm ↦ hmake api (List.mem_append_left _ hm)
  have hmake' : ∀ api, x = .create api → api.Offers (s.after xs).policy .listFree := by
    rintro api rfl
    rw [hc.numbered.policy_after]
    exact hmake api (List.mem_append_right _ (List.mem_singleton.2 rfl))
  have ht := Traffic.of_pass hcoh.numbered hprov hmake'
  rw [after_concat] at he ⊢
  exact ⟨he.accounted hcoh ht ha, he.provided hcoh.numbered hprov hmake'⟩

end

/-! ## Addresses -/

/-- Behind every list that the engine holds for a wrapper there is an entry of its ledger. -/
def State.Answers (s : State) (id : WrapperId) : Prop :=
  ∀ h o n, (s.wrapper id).handle = some h → s.engine.setting? h o = some (.pointer (.list n)) →
    ∃ a ∈ (s.wrapper id).ledger, a.nativeList? = some n

section

variable {s t : State} {id : WrapperId} {h : Nat} {o : OptionCode} {v : Value}

/-- A list that the engine holds for an option was held before, or has just been recorded. -/
theorem Wrapper.AfterSetopt.setting?_list {r : Except Error Unit} {o' : OptionCode} {n : Nat}
    (hh : (s.wrapper id).handle = some h) (hlive : s.engine.isLive h = true)
    (ha : AfterSetopt s id h o v r t) (hset : t.engine.setting? h o' = some (.pointer (.list n))) :
    s.engine.setting? h o' = some (.pointer (.list n)) ∨
      ∃ a ∈ (t.wrapper id).ledger, a.nativeList? = some n := by
  have hold {u : State} (xs : List (OptionCode × Argument))
      (hd : Drift [] (u.storeAll id h xs) t) (hu : u.engine = s.engine)
      (hxs : ∀ x, (x, .pointer (.list n)) ∉ xs) :
      s.engine.setting? h o' = some (.pointer (.list n)) := by
    have hlive' : u.engine.isLive h = true := hu ▸ hlive
    rw [hd.setting?] at hset
    exact hu ▸ (setting?_storeAll_cases id h o' xs hlive' hset).resolve_left (hxs o')
  have hbuffer (b : Buffer) : b.address ≠ .list n := by
    rw [Buffer.address]
    split
    · rintro ⟨⟩
    · rintro ⟨⟩
  cases ha with
  | refused hd => exact .inl (hold [] hd rfl fun _ ↦ List.not_mem_nil)
  | @rewired k f done _ _ _ _ hw hd =>
    refine .inl (hold done hd rfl fun x hx ↦ ?_)
    cases isOwned_of_rewiring hw hx
  | plain _ ha =>
    cases ha with
    | refused hd => exact .inl (hold [] hd rfl fun _ ↦ List.not_mem_nil)
    | @bare _ x _ _ hx hd =>
      refine .inl (hold [(o, x)] hd rfl fun y hy ↦ ?_)
      obtain rfl : .pointer (.list n) = x := (Prod.ext_iff.1 (List.mem_singleton.1 hy)).2
      cases hx
    | text _ _ _ hd =>
      refine .inl (hold [(o, _)] hd rfl fun y hy ↦ ?_)
      cases (Prod.ext_iff.1 (List.mem_singleton.1 hy)).2
    | @bytes b _ _ hd =>
      refine .inl (hold (body o b) hd rfl fun y hy ↦ ?_)
      rcases mem_body hy with he | he
      · exact hbuffer b (Argument.pointer.inj (Prod.ext_iff.1 he).2).symm
      · cases he
    | @strayed b _ _ _ hd =>
      refine .inl (hold [(o, _)] hd rfl fun y hy ↦ ?_)
      exact hbuffer b (Argument.pointer.inj (Prod.ext_iff.1 (List.mem_singleton.1 hy)).2).symm
    | @list _ as head m _ _ _ _ hd =>
      cases head with
      | none =>
        refine .inl (hold [(o, _)] hd rfl fun y hy ↦ ?_)
        cases (Prod.ext_iff.1 (List.mem_singleton.1 hy)).2
      | some k =>
        by_cases hk : k = n
        · refine .inr ⟨.list m (some k), ?_, congrArg some hk⟩
          rw [hd.wrapper, wrapper_store, ledger_recordAll (isAlive_of_handle hh)]
          exact List.mem_append_right _ (List.mem_append_right _ (List.mem_singleton.2 rfl))
        · refine .inl (hold [(o, _)] hd rfl fun y hy ↦ ?_)
          have he := Argument.pointer.inj (Prod.ext_iff.1 (List.mem_singleton.1 hy)).2
          exact hk (Address.list.inj he).symm

/-- Every step leaves an entry behind every list that the engine holds. -/
theorem Effect.answers {x : Step} {r : Except Error WrapperId} (hc : s.Coherent)
    (he : Effect s x r t) (hsafe : Passage.IsSafe ⟨x, s, r, t⟩) (ha : ∀ j, s.Answers j)
    (id : WrapperId) : t.Answers id := by
  intro h o n hh hset
  -- A handle that is blank holds nothing, so what it holds after a setting is recorded by that.
  have hblank {u : State} (hb : u.Blank id h) :
      u.engine.setting? h o ≠ some (.pointer (.list n)) := by
    rw [Engine.setting?, hb.table]
    rintro ⟨⟩
  cases he.fate hc id with
  | kept _ hk =>
    rw [hk.handle] at hh
    rw [hk.setting? hh] at hset
    rw [hk.ledger]
    exact ha id h o n hh hset
  | failed hd =>
    rw [hd.wrapper] at hh ⊢
    rw [hd.setting?] at hset
    exact ha id h o n hh hset
  | @set g _ _ _ _ hg hafter =>
    obtain rfl : g = h := Option.some.inj ((hafter.handle hg).symm.trans hh)
    rcases hafter.setting?_list hg (hc.live id g hg) hset with hold | hnew
    · obtain ⟨a, hm, han⟩ := ha id g o n hg hold
      obtain ⟨f, as, xs, ht⟩ := hafter.touched
      refine ⟨a, ?_, han⟩
      rw [ht.wrapper (isAlive_of_handle hg)]
      exact List.mem_append_left _ hm
    · exact hnew
  | @begun _ _ g _ _ hb =>
    obtain rfl : g = h := Option.some.inj (hb.handle.symm.trans hh)
    exact absurd hset (hblank hb)
  | @bundled _ _ u g _ _ _ _ hb hafter =>
    obtain rfl : g = h := Option.some.inj ((hafter.handle hb.handle).symm.trans hh)
    exact (hafter.setting?_list hb.handle hb.live hset).resolve_left (hblank hb)
  | @twinned j g g' _ _ hid hg hnew hd =>
    subst hid
    obtain ⟨hhandle, hledger⟩ := wrapper_twinned hc hd
    obtain rfl : g' = h := Option.some.inj (hhandle.symm.trans hh)
    have hcoh := hc.twin (g := g) hnew (mem_ids_of_handle hg)
    have hlive : (s.twin j g g').engine.isLive g' = true := by
      refine hcoh.live s.opened g' ?_
      rw [wrapper_twin hc.numbered]
    rw [hd.setting?] at hset
    rcases setting?_storeAll_cases _ _ _ _ hlive hset with hm | hold
    · obtain ⟨k, -, hm⟩ := List.mem_flatMap.1 hm
      cases isOwned_of_unwiring hm
    · rw [setting?_twin hc hg] at hold
      obtain ⟨a, hm, han⟩ := ha j g o n hg hold
      refine ⟨a, ?_, han⟩
      rw [hledger]
      refine List.mem_filter.2 ⟨hm, ?_⟩
      cases a with
      | list => rfl
      | text | buffer => cases han
  | @released mark _ _ _ hd =>
    have hk : Steady s t id := .of_cut hd
    rw [hk.handle] at hh
    rw [hk.setting? hh] at hset
    obtain ⟨a, hm, han⟩ := ha id h o n hh hset
    have haddress : a.address = .list n := by
      rcases a with _ | ⟨_, head⟩ | _
      · cases han
      · exact congrArg Address.ofList? han
      · cases han
    refine ⟨a, ?_, han⟩
    rw [hd.wrapper, ledger_cut_self]
    rw [← Ledger.before_append_since (s.wrapper id).ledger mark] at hm
    refine (List.mem_append.1 hm).resolve_right fun hgone ↦ hsafe id mark h o rfl hh a hgone ?_
    rw [haddress]
    exact hset
  | ended _ hnone => cases hnone.symm.trans hh

/-! ## Values that are passed on -/

/-- What a passage leaves to stand for an option of a wrapper. A duplicate begins with what stands
for its source. -/
def Passage.bequeath (o : OptionCode) (p : Passage) (f : WrapperId → Option Value)
    (id : WrapperId) : Option Value :=
  match p.step, p.result with
  | .duplicate j, .ok copy => if copy = id then f j else f id
  | _, _ => p.note id none (restate o) (f id)

/-- The value that stands for an option of a wrapper, whether it was set there or inherited. -/
def bequest (o : OptionCode) (ps : List Passage) : WrapperId → Option Value :=
  ps.foldl (fun f p ↦ p.bequeath o f) fun _ ↦ none

theorem bequest_concat (o : OptionCode) (s : State) (xs : List Step) (x : Step) :
    bequest o (passages s (xs ++ [x])) =
      (x.pass (s.after xs)).bequeath o (bequest o (passages s xs)) := by
  rw [passages_concat]
  exact List.foldl_append

/-- What is passed on is backed for whoever it is passed on to, unless it is a text. -/
theorem Effect.backs_bequeathed {x : Step} {r : Except Error WrapperId} (hc : s.Coherent)
    (he : Effect s x r t) (hsafe : Passage.IsSafe ⟨x, s, r, t⟩) (hv : v.isKept = true)
    (htext : ∀ y, v ≠ .text y) {f : WrapperId → Option Value}
    (hf : ∀ j, f j = some v → o.HoldsMemory ∧ s.Backs j o v)
    (hs : Passage.bequeath o ⟨x, s, r, t⟩ f id = some v) : o.HoldsMemory ∧ t.Backs id o v := by
  by_cases hdup : ∃ j copy, x = .duplicate j ∧ r = .ok copy
  · obtain ⟨j, copy, rfl, rfl⟩ := hdup
    have hcopy := he.eq_opened rfl rfl
    change (if copy = id then f j else f id) = some v at hs
    split at hs
    · next hid =>
      subst hid
      obtain ⟨hm, hb⟩ := hf j hs
      cases he with
      | request hx => cases hx
      | twinned hg hnew hd => exact ⟨hm, hb.twinned hc hg hnew hd hm htext⟩
    · next hid =>
      obtain ⟨hm, hb⟩ := hf id hs
      exact ⟨hm, hb.of_keeps (he.keeps hc (fun _ hid' ↦ hid (hcopy.trans hid'.symm)) nofun)⟩
  · have hnote : Passage.bequeath o ⟨x, s, r, t⟩ f id =
        Passage.note id none (restate o) ⟨x, s, r, t⟩ (f id) := by
      rw [Passage.bequeath.eq_def]
      split
      · next j copy hx hr => exact absurd ⟨j, copy, hx, hr⟩ hdup
      · rfl
    rw [hnote] at hs
    exact (abides_backs id o v).step (fun _ _ _ hh hlive ha ↦ backs_of_afterSetopt hh hlive hv ha)
      hc he hsafe (hf id) hs

theorem State.Orderly.backs_bequest (hc : s.Coherent) {xs : List Step} (ho : s.Orderly xs)
    (hsafe : ∀ p ∈ passages s xs, p.IsSafe) (hv : v.isKept = true) (htext : ∀ y, v ≠ .text y)
    (id : WrapperId) (hs : bequest o (passages s xs) id = some v) :
    o.HoldsMemory ∧ (s.after xs).Backs id o v := by
  refine ho.induction hc (P := fun xs ↦ (∀ p ∈ passages s xs, p.IsSafe) →
    ∀ id, bequest o (passages s xs) id = some v → o.HoldsMemory ∧ (s.after xs).Backs id o v)
    (fun _ ↦ nofun) ?_ hsafe id hs
  intro xs x hcoh he ih hsafe id hs
  rw [bequest_concat] at hs
  rw [passages_concat, List.forall_mem_append, List.forall_mem_singleton] at hsafe
  rw [after_concat] at he ⊢
  exact he.backs_bequeathed hcoh hsafe.2 hv htext (ih hsafe.1) hs

end

/-- Whatever is done with any number of wrappers, duplicates of duplicates among them: a list that
was set for a wrapper, or for one that it descends from, is what the engine holds for it; whatever
list the engine holds for a wrapper is there, and recorded in its own ledger; and every list that
was built is freed once at most, and once when the last wrapper is gone. A caller who cuts a ledger
has to leave in it what the engine still points to. -/
theorem lists_are_kept_and_freed_once (policy : Policy) (host : Host) (settled : Settled)
    (hp : policy.Fresh) (steps : List Step)
    (hsafe : ∀ p ∈ passages (.start policy host settled) steps, p.IsSafe)
    (hmake : ∀ api, .create api ∈ steps → api.Offers policy .listFree) :
    let s := (State.start policy host settled).after steps
    (∀ id o items, items ≠ [] →
      bequest o (passages (.start policy host settled) steps) id = some (.list items) →
        ∃ h n, (s.wrapper id).handle = some h ∧
          s.engine.setting? h o = some (.pointer (.list n)) ∧
          s.engine.list? n = some (.of items)) ∧
    (∀ id h o n, (s.wrapper id).handle = some h →
      s.engine.setting? h o = some (.pointer (.list n)) →
        (∃ a ∈ (s.wrapper id).ledger, a.nativeList? = some n) ∧
          (∃ l, s.engine.list? n = some l ∧ l.freed = false) ∧ s.frees n = 0) ∧
    (∀ n, s.frees n ≤ 1) ∧
    (s.wrappers = [] → ∀ n, .grown n ∈ s.listing → s.frees n = 1) := by
  intro s
  have hc := Coherent.start policy host settled
  have ho := Orderly.of_policy hc hp steps
  have hcoh : s.Coherent := ho.coherent hc
  have hacc : s.Accounted := (ho.accounted hc (.start policy host settled)
    (fun _ hj ↦ absurd hj List.not_mem_nil) hmake).1
  have hanswers : ∀ id, s.Answers id :=
    ho.preserved hc (P := fun s ↦ ∀ id, s.Answers id) (Q := Passage.IsSafe)
      (fun _ _ _ _ hh ↦ by cases hh) (fun hcoh he hx ha ↦ he.answers hcoh hx ha) hsafe
  refine ⟨fun id o items hne hb ↦ ?_, fun id h o n hh hset ↦ ?_, fun n ↦ ?_, fun hw n hn ↦ ?_⟩
  · obtain ⟨-, h, hh, a, -, hset, hcar⟩ :=
      ho.backs_bequest hc (v := .list items) hsafe (decide_eq_true hne) nofun id hb
    cases hcar with
    | @list _ n ha hl => exact ⟨h, n, hh, ha ▸ hset, hl⟩
  · obtain ⟨a, hm, han⟩ := hanswers id h o n hh hset
    obtain ⟨l, hl, hfreed⟩ := hcoh.intact id a hm n han
    refine ⟨⟨a, hm, han⟩, ⟨l, hl, hfreed⟩, ?_⟩
    rw [hacc.frees n l hl, hfreed]
    rfl
  · cases hl : s.engine.list? n with
    | none => exact (hacc.absent n hl).trans_le (Nat.zero_le _)
    | some l =>
      rw [hacc.frees n l hl]
      split
      · exact Nat.le_refl _
      · exact Nat.zero_le _
  · obtain ⟨l, hl⟩ := Option.ne_none_iff_exists'.1 (hacc.grown n hn)
    rw [hacc.frees n l hl, if_pos]
    by_contra hfreed
    obtain ⟨j, a, hm, -⟩ := hacc.held n l hl (Bool.eq_false_iff.2 hfreed)
    have hj : j ∉ s.ids := by
      rw [ids, hw]
      exact List.not_mem_nil
    rw [wrapper_of_notMem hj] at hm
    exact absurd hm List.not_mem_nil

/-- A list outlives the wrapper that it was set for and the one in between, and goes with the
duplicate of the duplicate. -/
theorem list_goes_with_last_duplicate :
    let start := State.start (Policy.guarded {}) .bare .bare
    let steps := [.create .inProcess, .setopt 0 .httpHeader (.list ["a", "b"]), .duplicate 0,
      .duplicate 1, .drop 1, .reset 0]
    (start.after steps).frees 1 = 0 ∧ (start.after (steps ++ [.drop 2, .drop 0])).frees 1 = 1 := by
  intro start steps
  have hoffers : ∀ api, .create api ∈ steps ++ [.drop 2, .drop 0] →
      api.Offers (Policy.guarded {}) .listFree := by
    intro api hm
    obtain rfl : api = .inProcess := by simpa [steps] using hm
    exact ⟨rfl, fun _ _ ↦ rfl⟩
  obtain ⟨-, hkept, -, -⟩ := lists_are_kept_and_freed_once (Policy.guarded {}) .bare .bare
    (Policy.guarded_fresh {}) steps (isSafe_of_forall (by decide))
    fun api hm ↦ hoffers api (List.mem_append_left _ hm)
  obtain ⟨-, -, -, hgone⟩ := lists_are_kept_and_freed_once (Policy.guarded {}) .bare .bare
    (Policy.guarded_fresh {}) (steps ++ [.drop 2, .drop 0]) (isSafe_of_forall (by decide)) hoffers
  constructor
  · exact (hkept 2 2 .httpHeader 1 (by decide +kernel) (by decide +kernel)).2.2
  · exact hgone (List.isEmpty_iff.1 (by decide +kernel)) 1 (by decide +kernel)

end NativeTransfer
