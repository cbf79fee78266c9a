import NativeTransfer.Proofs.Rollback

/-!
# How lists come and go

Seen from outside, a step does one of three things to the engine's lists. It leaves those that were
there alone, and has freed again whatever it made (`State.Passing`); or it leaves one list more, the
value that was set (`Building`); or it frees lists, each of them once (`State.Freeing`). `Traffic`
says which, and how often a list is freed is counted over all that was heard of it.

## Three things that can happen

Lists that are made and taken down within one step are passing: they are new, they were freed, and
they are in no ledger. What is built for an option that was accepted is one new list with the nodes
of its items. And what goes with a ledger, or with the end of one, is freed in the order in which it
stood there, but for what somebody else still records (`State.orphaned`). The three are told apart
by the form of the step and by whether it has succeeded.

Frees are counted in the trace. That a list is freed by a step is a fact about `listing`, and what
the engine's table says of it is a second one; `Freeing` has both.
-/

namespace NativeTransfer

open State Wrapper

/-- Whether a list is freed. -/
def ListEvent.isFreed (n : Nat) : ListEvent → Bool
  | .grown _ => false
  | .freed m _ => m = n

/-- One list more is found under the next number. -/
theorem Engine.list?_of_concat {e e' : Engine} {l : StringList}
    (h : e'.lists = e.lists ++ [l]) (n : Nat) :
    e'.list? n = if n = e.lists.length + 1 then some l else e.list? n := by
  cases n with
  | zero => rfl
  | succ n =>
    rw [list?, list?, h]
    by_cases hn : n = e.lists.length
    · rw [if_pos (congrArg (· + 1) hn), hn, List.getElem?_concat_length]
    · rw [if_neg fun he ↦ hn (Nat.succ.inj he)]
      by_cases hlt : n < e.lists.length
      · rw [List.getElem?_append_left hlt]
      · rw [List.getElem?_eq_none, List.getElem?_eq_none]
        · omega
        · rw [List.length_append, List.length_singleton]
          omega

namespace State

/-- How often a list was freed. -/
def frees (s : State) (n : Nat) : Nat := s.listing.countP (ListEvent.isFreed n)

/-- The lists that nobody records but one wrapper, and that one from a mark on, in the order in
which they would be freed. -/
def orphaned (s : State) (id : WrapperId) (mark : Nat) : List Nat :=
  (Ledger.orphans (s.cut id mark).holds ((s.wrapper id).ledger.since mark)).filterMap
    (·.nativeList?)

/-! ## Lists that do not stay -/

/-- Every list is as it was, and every new one was freed. -/
structure Passing (s t : State) : Prop where
  old : ∀ n l, s.engine.list? n = some l → t.engine.list? n = some l ∧ t.frees n = s.frees n
  new : ∀ n, s.engine.list? n = none → t.engine.list? n = none ∧ t.frees n = s.frees n ∨
    ∃ l, t.engine.list? n = some l ∧ l.freed = true ∧ t.frees n = s.frees n + 1
  grown : ∀ n, .grown n ∈ t.listing → .grown n ∈ s.listing ∨ t.engine.list? n ≠ none

variable {s t u : State} {n : Nat} {ns : List Nat}

theorem Passing.of_eq (hlist : ∀ n, t.engine.list? n = s.engine.list? n)
    (hlisting : t.listing = s.listing) : Passing s t := by
  have hfrees (n : Nat) : t.frees n = s.frees n := by rw [frees, frees, hlisting]
  refine ⟨fun n l hl ↦ ⟨(hlist n).trans hl, hfrees n⟩, fun n hn ↦ ?_, fun n hn ↦ ?_⟩
  · exact .inl ⟨(hlist n).trans hn, hfrees n⟩
  · exact .inl (hlisting ▸ hn)

theorem Passing.of_still (hs : Still s t) : Passing s t :=
  .of_eq (Engine.list?_congr hs.lists) hs.listing

theorem Passing.refl (s : State) : Passing s s := .of_still (Still.refl s)

theorem Passing.trans (h : Passing s t) (h' : Passing t u) : Passing s u where
  old n l hl := by
    obtain ⟨ht, hfrees⟩ := h.old n l hl
    obtain ⟨hu, hfrees'⟩ := h'.old n l ht
    exact ⟨hu, hfrees'.trans hfrees⟩
  new n hn := by
    rcases h.new n hn with ⟨ht, hfrees⟩ | ⟨l, hl, hfreed, hfrees⟩
    · rw [← hfrees]
      exact h'.new n ht
    · obtain ⟨hu, hfrees'⟩ := h'.old n l hl
      exact .inr ⟨l, hu, hfreed, hfrees'.trans hfrees⟩
  grown n hn := by
    rcases h'.grown n hn with ht | hu
    · refine (h.grown n ht).imp_right fun hlist ↦ ?_
      obtain ⟨l, hl⟩ := Option.ne_none_iff_exists'.1 hlist
      rw [(h'.old n l hl).1]
      exact nofun
    · exact .inr hu

/-- One list is new, and was freed. -/
theorem Passing.of_freed {l : StringList} {k m : Nat} (hfreed : l.freed = true)
    (hlists : t.engine.lists = s.engine.lists ++ [l])
    (hlisting : t.listing = s.listing ++
      (List.replicate k (.grown (s.engine.lists.length + 1)) ++
        [.freed (s.engine.lists.length + 1) m])) : Passing s t := by
  have hlist := Engine.list?_of_concat hlists
  have hnew : s.engine.list? (s.engine.lists.length + 1) = none :=
    List.getElem?_eq_none (Nat.le_refl _)
  have hfrees (n : Nat) :
      t.frees n = s.frees n + if n = s.engine.lists.length + 1 then 1 else 0 := by
    rw [frees, frees, hlisting, List.countP_append, List.countP_append, List.countP_replicate]
    by_cases hn : n = s.engine.lists.length + 1
    · simp [ListEvent.isFreed, hn]
    · simp [ListEvent.isFreed, hn, Ne.symm hn]
  refine ⟨fun n l' hl ↦ ?_, fun n hn ↦ ?_, fun n hn ↦ ?_⟩
  · have hne : n ≠ s.engine.lists.length + 1 := by
      rintro rfl
      exact absurd (hl.symm.trans hnew) nofun
    rw [hlist, if_neg hne, hfrees, if_neg hne]
    exact ⟨hl, rfl⟩
  · rw [hlist, hfrees]
    by_cases he : n = s.engine.lists.length + 1
    · rw [if_pos he, if_pos he]
      exact .inr ⟨l, rfl, hfreed, rfl⟩
    · rw [if_neg he, if_neg he]
      exact .inl ⟨hn, rfl⟩
  · rw [hlisting, List.mem_append, List.mem_append, List.mem_replicate, List.mem_singleton] at hn
    rcases hn with hn | ⟨-, hn⟩ | hn
    · exact .inl hn
    · obtain rfl := ListEvent.grown.inj hn
      refine .inr ?_
      rw [hlist, if_pos rfl]
      exact nofun
    · cases hn

theorem Passing.of_unbuilt (hu : Unbuilt s t) : Passing s t := by
  cases hu with
  | untouched hs => exact .of_still hs
  | freed _ hlists hlisting => exact .of_freed rfl hlists hlisting

/-! ## Lists that go -/

/-- Some lists were freed, one after the other, and nothing else was heard of any. -/
structure Freeing (s : State) (ns : List Nat) (t : State) : Prop where
  listing : t.listing = s.listing ++ ns.map fun n ↦ .freed n (s.engine.items n).length
  lists : ∀ n, t.engine.list? n =
    if n ∈ ns then (s.engine.list? n).map ({ · with freed := true }) else s.engine.list? n
  policy : t.policy = s.policy

theorem Freeing.of_still (hs : Still s t) : Freeing s [] t where
  listing := by rw [hs.listing, List.map_nil, List.append_nil]
  lists n := by rw [Engine.list?_congr hs.lists, if_neg List.not_mem_nil]
  policy := hs.policy

theorem Freeing.trans {ms : List Nat} (h : Freeing s ns t) (h' : Freeing t ms u) :
    Freeing s (ns ++ ms) u where
  listing := by
    -- A list that is freed keeps its items, so it does not matter when they are counted.
    have hitems (n : Nat) : t.engine.items n = s.engine.items n := by
      rw [Engine.items, Engine.items, h.lists]
      by_cases hn : n ∈ ns
      · rw [if_pos hn, Option.map_map]
        rfl
      · rw [if_neg hn]
    simp only [h'.listing, h.listing, hitems, List.map_append, List.append_assoc]
  lists n := by
    rw [h'.lists, h.lists]
    by_cases hn : n ∈ ns
    · rw [if_pos hn, if_pos (List.mem_append_left _ hn), Option.map_map]
      exact ite_self _
    · by_cases hm : n ∈ ms
      · rw [if_pos hm, if_neg hn, if_pos (List.mem_append_right _ hm)]
      · rw [if_neg hm, if_neg hn, if_neg (List.mem_append.not.2 (not_or.2 ⟨hn, hm⟩))]
  policy := h'.policy.trans h.policy

theorem Freeing.frees (h : Freeing s ns t) (n : Nat) : t.frees n = s.frees n + ns.count n := by
  rw [State.frees, State.frees, h.listing, List.countP_append, List.countP_map]
  rfl

theorem Passing.of_freeing (h : Freeing s [] t) : Passing s t := by
  refine .of_eq (fun n ↦ ?_) ?_
  · rw [h.lists, if_neg List.not_mem_nil]
  · rw [h.listing, List.map_nil, List.append_nil]

/-! ## What only one wrapper records -/

section

variable {id : WrapperId} {mark : Nat}

theorem exists_of_holds (hn : s.ids.Nodup) {a : Allocation} (hh : s.holds a = true) :
    ∃ j, a ∈ (s.wrapper j).ledger := by
  rw [holds, List.any_eq_true] at hh
  obtain ⟨x, hx, hheld⟩ := hh
  refine ⟨x.1, ?_⟩
  rw [wrapper_of_mem hn hx]
  exact List.contains_iff_mem.1 hheld

theorem orphaned_modifyWrapper {f : Wrapper → Wrapper} (hf : ∀ w, (f w).ledger = w.ledger) :
    (s.modifyWrapper id f).orphaned id mark = s.orphaned id mark := by
  have hheld : ((s.modifyWrapper id f).cut id mark).holds = (s.cut id mark).holds := by
    funext a
    rw [cut, modifyWrapper_modifyWrapper, cut, holds, holds, modifyWrapper, modifyWrapper,
      Pairs.adjust, Pairs.adjust, List.any_map, List.any_map]
    refine congrArg s.wrappers.any (funext fun x ↦ ?_)
    by_cases hx : x.1 = id
    · simp [hx, hf]
    · simp [hx]
  rw [orphaned, orphaned, hheld, proj_modifyWrapper s id id Wrapper.ledger hf]

theorem orphaned_congr (hw : t.wrappers = s.wrappers) :
    t.orphaned id mark = s.orphaned id mark := by
  have hheld : (t.cut id mark).holds = (s.cut id mark).holds := by
    funext a
    rw [holds, holds, cut, cut, modifyWrapper, modifyWrapper, hw]
  rw [orphaned, orphaned, wrapper, wrapper, hw, hheld]

end

end State

/-! ## Freeing -/

section

variable {s t : State} {id : WrapperId}

/-- A list that can be freed is. -/
theorem Api.Offers.freeing_freeList {api : Api} (ho : api.Offers s.policy .listFree) (n : Nat) :
    Leads (api.freeList n) s (fun _ t ↦ Freeing s [n] t) fun _ _ ↦ False := by
  rw [api.freeList_eq]
  refine ho.leads_call ?_
  rintro x rfl
  refine ⟨?_, fun m ↦ ?_, rfl⟩
  · rw [answered, listing_concat]
    rfl
  · rw [answered, Engine.answerListFree, Engine.list?_modifyList]
    by_cases hm : m = n
    · rw [if_pos hm, if_pos (List.mem_singleton.2 hm)]
      rfl
    · rw [if_neg hm, if_neg (mt List.mem_singleton.1 hm)]
      rfl

theorem Api.Offers.freeing_freeNativeList {api : Api} (ho : api.Offers s.policy .listFree)
    (head : Option Nat) :
    Ends (freeNativeList api head) s fun _ t ↦ Freeing s head.toList t := by
  cases head with
  | none => exact .of_still (Still.refl s)
  | some n =>
    rw [freeNativeList, ends_bind, ends_run]
    exact (ho.freeing_freeList n).mono (fun _ _ ht ↦ ht) fun _ _ ht ↦ ht.elim

theorem Api.Offers.freeing_freeNativeLists {api : Api} (ho : api.Offers s.policy .listFree)
    (as : List Allocation) :
    Ends (freeNativeLists api as) s fun _ t ↦ Freeing s (as.filterMap (·.nativeList?)) t := by
  induction as generalizing s with
  | nil => exact .of_still (Still.refl s)
  | cons a as ih =>
    rw [freeNativeLists, ends_bind]
    refine (ho.freeing_freeNativeList a.nativeList?).mono fun _ t ht ↦ ?_
    refine (ih (ht.policy ▸ ho)).mono fun _ u hu ↦ ?_
    rw [nativeLists_cons]
    exact ht.trans hu

/-- What is taken out of a ledger takes along the lists that nobody else records. -/
theorem freeing_releaseSince (mark : Nat)
    (ho : s.orphaned id mark = [] ∨ (s.wrapper id).api.Offers s.policy .listFree) :
    Ends (releaseSince id mark) s fun _ t ↦ Freeing s (s.orphaned id mark) t := by
  have hcut : Still s (s.cut id mark) := ⟨rfl, rfl, rfl⟩
  have hfree : Ends (freeNativeLists ((s.cut id mark).wrapper id).api
      (Ledger.orphans (s.cut id mark).holds ((s.wrapper id).ledger.since mark))) (s.cut id mark)
        fun _ t ↦ Freeing (s.cut id mark) (s.orphaned id mark) t := by
    rcases ho with hnil | ho
    · rw [hnil]
      refine (ends_freeNativeLists_nil _ (List.filterMap_eq_nil_iff.1 hnil)).mono ?_
      rintro _ t rfl
      exact .of_still (Still.refl _)
    · have hapi : ((s.cut id mark).wrapper id).api = (s.wrapper id).api := by
        refine proj_modifyWrapper s id id Wrapper.api ?_
        exact fun _ ↦ rfl
      rw [hapi]
      exact Api.Offers.freeing_freeNativeLists (s := s.cut id mark) ho _
  exact hfree.mono fun _ t ht ↦ (Freeing.of_still hcut).trans ht

/-! ## The end of a wrapper -/

/-- A wrapper of which everything but the ledger was changed gives up its ledger. -/
theorem freeing_of_release {u : State} (f : Wrapper → Wrapper)
    (ho : s.orphaned id 0 = [] ∨ (s.wrapper id).api.Offers s.policy .listFree)
    (hledger : ∀ w, (f w).ledger = w.ledger) (hapi : ∀ w, (f w).api = w.api)
    (hw : u.wrappers = (s.modifyWrapper id f).wrappers) (hs : Still s u) :
    Ends (releaseAll id) u fun _ t ↦ Freeing s (s.orphaned id 0) t := by
  have horphaned : u.orphaned id 0 = s.orphaned id 0 :=
    (orphaned_congr hw).trans (orphaned_modifyWrapper hledger)
  have hapi' : (u.wrapper id).api = (s.wrapper id).api := by
    rw [State.wrapper, hw]
    exact proj_modifyWrapper s id id Wrapper.api hapi
  refine (freeing_releaseSince 0 ?_).mono fun _ t ht ↦ ?_
  · rw [horphaned, hapi', hs.policy]
    exact ho
  · rw [← horphaned]
    exact (Freeing.of_still hs).trans ht

theorem freeing_cleanup
    (ho : s.orphaned id 0 = [] ∨ (s.wrapper id).api.Offers s.policy .listFree) :
    Ends (cleanup id) s fun _ t ↦ Freeing s (s.orphaned id 0) t := by
  have hempty {u : State} (h : Ends (releaseAll id) u fun _ t ↦ Freeing s (s.orphaned id 0) t) :
      Ends (do discard (releaseAll id); modifySlots id fun _ ↦ {}) u fun _ t ↦
        Freeing s (s.orphaned id 0) t := by
    rw [ends_bind, ends_discard]
    exact h.mono fun _ t ht ↦ ⟨ht.listing, ht.lists, ht.policy⟩
  have hself : (s.modifyWrapper id fun w ↦ w).wrappers = s.wrappers := by
    rw [modifyWrapper, Pairs.adjust]
    simp
  rw [cleanup, ends_bind, ends_get]
  dsimp only
  cases hh : (s.wrapper id).handle with
  | none => exact hempty (freeing_of_release _ ho (fun _ ↦ rfl) (fun _ ↦ rfl) hself.symm (.refl s))
  | some h =>
    -- Whether or not the engine lets the handle go, nothing is heard of lists before the release.
    have hback {u v : State} (hw : u.wrappers =
          (s.modifyWrapper id ({ · with handle := none })).wrappers) (hs : Still s u)
        (h : Drift [] u v ∧ Still u v) :=
      hempty (freeing_of_release ({ · with handle := none }) ho (fun _ ↦ rfl) (fun _ ↦ rfl)
        (h.1.wrappers.trans hw) (hs.trans h.2))
    have hcalm := calm_drift.and calm_still
    have hbefore : Still s
        ((s.modifyWrapper id ({ · with handle := none })).abandon h) := ⟨rfl, rfl, rfl⟩
    dsimp only
    rw [ends_bind, ends_modify, ends_bind, ends_modify, ends_bind, ends_run]
    refine ((Api.leads_cleanup _ h).and (placid_still.close _ h _)).mono ?_ ?_
    · rintro _ t ⟨hd, hs⟩
      dsimp only
      rw [ends_bind]
      exact (hcalm.report _ _ _).mono fun _ _ hu ↦ hback hd.wrappers (hbefore.trans hs) hu
    · rintro e t ⟨hd, hs⟩
      dsimp only
      rw [ends_bind]
      refine (hcalm.report _ _ _).mono fun _ u hu ↦ ?_
      rw [ends_bind]
      refine (hcalm.report _ _ _).mono fun _ v hv ↦ ?_
      exact hback hd.wrappers (hbefore.trans hs) (hcalm.trans _ _ _ hu hv)

theorem freeing_drop (ho : s.orphaned id 0 = [] ∨ (s.wrapper id).api.Offers s.policy .listFree) :
    Ends (drop id) s fun _ t ↦ Freeing s (s.orphaned id 0) t := by
  rw [drop, ends_bind]
  exact (freeing_cleanup ho).mono fun _ t ht ↦ ⟨ht.listing, ht.lists, ht.policy⟩

theorem freeing_reset {h : Nat} (hh : (s.wrapper id).handle = some h)
    (ho : s.orphaned id 0 = [] ∨ (s.wrapper id).api.Offers s.policy .listFree) :
    Leads (reset id) s (fun _ t ↦ Freeing s (s.orphaned id 0) t) fun _ t ↦ Still s t := by
  rw [reset, leads_bind, leads_liveHandle hh, leads_bind, leads_getApi, leads_bind]
  refine ((Api.leads_reset _ h).and (placid_still.clear _ h s)).mono ?_ fun _ _ ht ↦ ht.2
  rintro _ t ⟨hd, hs⟩
  rw [leads_bind, leads_modifySlots, leads_bind, leads_lift]
  have hslots : Still s (t.withSlots id fun _ ↦ {}) := hs.trans ⟨rfl, rfl, rfl⟩
  refine (freeing_of_release ({ · with slots := {} }) ho (fun _ ↦ rfl) (fun _ ↦ rfl) ?_
    hslots).mono fun _ u hu ↦ ?_
  · rw [withSlots, modifyWrapper, modifyWrapper, hd.wrappers]
    rfl
  · rw [leads_lift]
    exact (calm_still.report _ _ _).mono fun _ v hv ↦
      List.append_nil (s.orphaned id 0) ▸ hu.trans (.of_still hv)

/-! ## Handles -/

namespace Placid

variable {R : State → State → Prop} (hR : Placid R) {id : WrapperId}

include hR

theorem init (api : Api) : Within R api.init := by
  rw [api.init_eq]
  refine hR.call api .init ⟨fun p e ↦ ?_, fun _ p e ↦ ?_⟩
  all_goals
    rw [Engine.answerInit]
    split <;> rfl

theorem duphandle (api : Api) (h : Nat) : Within R (api.duphandle h) := by
  rw [api.duphandle_eq]
  refine hR.call api .duphandle ⟨fun p e ↦ ?_, fun _ p e ↦ ?_⟩
  all_goals
    rw [Engine.answerDuphandle]
    split <;> rfl

theorem detach (h : Nat) (k : CallbackKind) : Within R (detach id h k) := by
  have hcheck {x : Attempt ResultCode} (api : Api) (hx : Within R x) :
      Within R (x >>= api.check) := hR.bind hx (hR.check api)
  refine hR.bind (calm_getApi hR.toCalm) fun api ↦ ?_
  have hfunction : Within R (api.setFunction h k.functionOption .null >>= api.check) := by
    rw [api.setFunction_eq]
    exact hcheck api (hR.setopt api .setFunction h _ _)
  have hdata : Within R (api.setPointer h k.dataOption .null >>= api.check) := by
    rw [api.setPointer_eq]
    exact hcheck api (hR.setopt api .setPointer h _ _)
  have hlong : Within R (if k = .progress then api.setLong h .noProgress 1 >>= api.check
      else pure ()) := by
    split
    · rw [api.setLong_eq]
      exact hcheck api (hR.setopt api .setLong h _ _)
    · exact hR.pure _
  have hall := hR.bind hfunction fun _ ↦ hR.bind hdata fun _ ↦ hlong
  simp only [bind_assoc] at hall
  exact hall

theorem detachAll (h : Nat) (ks : List CallbackKind) : Within R (detachAll id h ks) := by
  induction ks with
  | nil => exact hR.pure _
  | cons k ks ih => exact hR.bind (hR.detach h k) fun _ ↦ ih

end Placid

/-! ## The beginning of a wrapper -/

namespace Wrapper

theorem still_adopt (given : Option Nat) (api : Api) (origin : EntryPoint) :
    Within Still (adopt given api origin) := by
  intro s
  rw [adopt.eq_def]
  cases given with
  | none => exact Still.refl s
  | some h =>
    dsimp only
    rw [leads_bind, leads_get, leads_bind, leads_modify, leads_bind, leads_lift]
    have hs : Still s (s.adopt h api) := ⟨rfl, rfl, rfl⟩
    exact (calm_still.report _ _ _).mono fun _ t ht ↦ hs.trans ht

/-- The name of a certificate bundle is no list. -/
theorem passing_applyBundle {h : Nat} (hn : s.ids.Nodup) (hh : (s.wrapper id).handle = some h)
    (ho : (s.wrapper id).api.Offers s.policy .listFree) :
    Ends (applyBundle id) s fun _ t ↦ Passing s t := by
  rw [applyBundle, ends_bind]
  refine (calm_drift.and calm_still).activeBundle.mono ?_
  rintro bundle t ⟨hd, hs⟩
  cases bundle with
  | none => exact .of_still hs
  | some path =>
    rw [← hd.ids] at hn
    rw [← hd.wrapper] at hh ho
    rw [← hd.policy] at ho
    dsimp only
    rw [ends_bind, ends_run]
    refine (unbuilt_setopt hn hh ho .caInfo (.text path)).mono (fun _ u hu ↦ ?_) fun e u hu ↦ ?_
    · rcases hu with hu | ⟨_, _, hv, -⟩
      · exact .of_still (hs.trans hu)
      · cases hv
    · refine (calm_still.report _ _ _).mono fun _ v hv ↦ ?_
      exact (Passing.of_still hs).trans ((Passing.of_unbuilt hu).trans (.of_still hv))

theorem passing_create (hn : s.Numbered) {api : Api} (ho : api.Offers s.policy .listFree) :
    Leads (create api) s (fun _ t ↦ Passing s t) fun _ t ↦ Passing s t := by
  rw [create, leads_bind]
  refine (api.leads_init.and (placid_still.init api s)).mono ?_ fun _ _ ht ↦ .of_still ht.2
  rintro given t ⟨ht, hs⟩
  rw [leads_bind]
  refine ((leads_adopt given api .init).and (still_adopt given api .init t)).mono ?_
    fun _ _ hu ↦ .of_still (hs.trans hu.2)
  rintro _ u ⟨⟨h, rfl, rfl, hu⟩, hsu⟩
  have hd : Drift [] (s.make h api) u := (ht.2.adopt h api).trans hu
  have hw : u.wrapper t.opened = { handle := some h, api } := by
    rw [hd.wrapper, ht.2.opened]
    exact wrapper_make hn h api
  rw [leads_bind, leads_lift]
  refine (passing_applyBundle (h := h) ?_ ?_ ?_).mono fun _ _ hv ↦ ?_
  · rw [hd.ids]
    exact ((hn.told _ _ _).adopt h api).nodup
  · rw [hw]
  · rw [hw, hd.policy]
    exact ho
  · exact (Passing.of_still (hs.trans hsu)).trans hv

/-! ## Duplicates -/

/-- Whatever a twin records its source records too. -/
theorem orphaned_twin (hn : s.Numbered) {g h : Nat} (hh : (s.wrapper id).handle = some g) :
    (s.twin id g h).orphaned s.opened 0 = [] := by
  have hid : id ≠ s.opened := by
    rintro rfl
    exact hn.notMem (isAlive_iff.1 (isAlive_of_handle hh))
  have hnone : Ledger.orphans ((s.twin id g h).cut s.opened 0).holds
      (((s.twin id g h).wrapper s.opened).ledger.since 0) = [] := by
    refine List.eq_nil_iff_forall_not_mem.2 fun a ha ↦ ?_
    obtain ⟨hmem, hheld⟩ := Ledger.mem_orphans.1 ha
    rw [wrapper_twin hn] at hmem
    have hsource : a ∈ (((s.twin id g h).cut s.opened 0).wrapper id).ledger := by
      rw [ledger_cut_of_ne _ hid, wrapper_twin_of_ne hn id g h hid]
      exact List.mem_of_mem_filter hmem
    rw [holds_of_mem _ hsource] at hheld
    cases hheld
  rw [orphaned, hnone, List.filterMap_nil]

/-- A duplicate that cannot be finished is ended, and that frees nothing. -/
theorem still_detachTwin (hn : s.Numbered) {g h : Nat} (hh : (s.wrapper id).handle = some g)
    (ks : List CallbackKind) (hd : Drift [] (s.twin id g h) t) :
    Leads (orUndo (do detachAll s.opened (← liveHandle s.opened) ks) (drop s.opened)) t
      (fun _ u ↦ Still t u) fun _ u ↦ Freeing t [] u := by
  have hh' : (t.wrapper s.opened).handle = some h := by rw [hd.wrapper, wrapper_twin hn]
  rw [leads_orUndo, leads_bind, leads_liveHandle hh']
  refine ((stores_detachAll ks _ t rfl).and (placid_still.detachAll h ks t)).mono
    (fun _ _ hu ↦ hu.2) ?_
  rintro e u ⟨⟨done, -, -, hdone⟩, hs⟩
  have hw : u.wrappers = (s.twin id g h).wrappers :=
    hdone.wrappers.trans ((wrappers_storeAll ..).trans hd.wrappers)
  have horphaned : u.orphaned s.opened 0 = [] := (orphaned_congr hw).trans (orphaned_twin hn hh)
  refine (freeing_drop (.inl horphaned)).mono fun _ v hv ↦ ?_
  rw [horphaned] at hv
  exact (Freeing.of_still hs).trans hv

theorem still_duplicate (hn : s.Numbered) {g : Nat} (hh : (s.wrapper id).handle = some g) :
    Leads (duplicate id) s (fun _ t ↦ Still s t) fun _ t ↦ Freeing s [] t := by
  rw [duplicate, leads_bind, leads_liveHandle hh, leads_bind, leads_getApi, leads_bind]
  refine ((Api.leads_duphandle _ g).and (placid_still.duphandle _ g s)).mono ?_
    fun _ _ ht ↦ .of_still ht.2
  rintro given t ⟨ht, hs⟩
  rw [leads_bind]
  refine ((leads_adopt given _ .duphandle).and (still_adopt given _ .duphandle t)).mono ?_
    fun _ _ hu ↦ .of_still (hs.trans hu.2)
  rintro _ u ⟨⟨h, rfl, rfl, hu⟩, hsu⟩
  have hid : id ≠ s.opened := by
    rintro rfl
    exact hn.notMem (isAlive_iff.1 (isAlive_of_handle hh))
  have hd : Drift [] ((s.copy (s.wrapper id).api.route g h).adopt h (s.wrapper id).api) u :=
    (ht.2.adopt h _).trans hu
  have hsource : u.wrapper id = s.wrapper id := by
    rw [hd.wrapper]
    exact (wrapper_adopt_told hn _ _ _ h _ id).trans (if_neg hid)
  have hopened : t.opened = s.opened := ht.2.opened
  rw [hopened, leads_bind, leads_getLedger, leads_bind, leads_lift, hsource]
  refine (ends_recordEach _).mono ?_
  rintro _ v ⟨rs, rfl⟩
  have htwin : Drift [] (s.twin id g h)
      (recordAll { u with repeats := rs } s.opened (s.wrapper id).ledger.shared) :=
    (hd.trans (Drift.repeats u rs)).modifyWrapper s.opened _
  have hstill : Still s (recordAll { u with repeats := rs } s.opened
      (s.wrapper id).ledger.shared) := (hs.trans hsu).trans ⟨rfl, rfl, rfl⟩
  rw [leads_bind, leads_getSlots, leads_bind]
  refine (still_detachTwin hn hh _ htwin).mono (fun _ _ hv ↦ hstill.trans hv) fun _ _ hv ↦ ?_
  exact (Freeing.of_still hstill).trans hv

/-! ## Lists for answers -/

/-- A list that is made for an answer is the only one that is new, and no code reports a failure
beside one. -/
theorem newList_getList (api : Api) (h : Nat) (i : InfoCode) :
    Leads (api.getList h i) s
      (fun r t ↦ t.policy = s.policy ∧ t.wrappers = s.wrappers ∧ (r.2 = none ∧ Still s t ∨
        r.1.isOk = true ∧ r.2 = some (s.engine.lists.length + 1) ∧ t.listing = s.listing ∧
          ∃ l, t.engine.lists = s.engine.lists ++ [l]))
      fun _ t ↦ Still s t := by
  rw [Api.getList_eq, leads_map]
  refine calm_still.leads_call api _ fun x hx ↦ ?_
  simp only [Engine.answerListInfo] at hx
  split at hx
  · next hcode hreply =>
    subst hx
    refine ⟨rfl, rfl, .inr ⟨(ResultCode.isOk_ofSigned _).2 hcode, rfl, ?_, _, rfl⟩⟩
    exact (listing_concat ..).trans (List.append_nil _)
  · subst hx
    exact ⟨rfl, rfl, .inl ⟨rfl, (calm_still.counted s).trans (.of_event rfl rfl)⟩⟩

/-- It is freed before the answer is given. -/
theorem passing_getList (ho : (s.wrapper id).api.Offers s.policy .listFree) (h : Nat)
    (i : InfoCode) :
    Leads (Wrapper.getList id h i) s (fun _ t ↦ Passing s t) fun _ t ↦ Passing s t := by
  rw [getList, leads_bind, leads_getApi, leads_bind]
  refine (newList_getList _ h i).mono ?_ fun _ _ ht ↦ .of_still ht
  rintro ⟨code, list⟩ t ⟨hpolicy, -, ⟨rfl, hs⟩ | ⟨hcode, rfl, hlisting, l, hlists⟩⟩
  · dsimp only
    rw [leads_bind]
    refine (calm_still.check _ code t).mono (fun _ u hu ↦ .of_still (hs.trans hu)) ?_
    exact fun _ u hu ↦ .of_still (hs.trans hu)
  · dsimp only
    rw [leads_bind]
    refine (calm_still.leads_check _ code).mono ?_ ?_
    · rintro _ u ⟨-, rfl⟩
      rw [leads_bind, leads_get, leads_bind, leads_observed, Api.freeList_eq]
      refine Api.Offers.leads_call (s := u) (hpolicy ▸ ho) ?_
      rintro x rfl
      refine .of_freed (l := { l with freed := true }) (k := 0)
        (m := ((Api.counted u).engine.items (s.engine.lists.length + 1)).length) rfl ?_ ?_
      · exact Engine.lists_modifyList_newest (e := (Api.counted u).engine) s.engine.lists hlists _
      · rw [Api.answered, listing_concat]
        exact congrArg (· ++ _) hlisting
    · rintro _ u ⟨hc, -⟩
      rw [hcode] at hc
      cases hc

/-- Whatever is asked for, no list is there afterwards that was not there before. -/
theorem passing_getinfo (ho : (s.wrapper id).api.Offers s.policy .listFree) (i : InfoCode) :
    Leads (getinfo id i) s (fun _ t ↦ Passing s t) fun _ t ↦ Passing s t := by
  -- Freeing is on offer for as long as the wrapper keeps its way to the same engine.
  let R (s t : State) : Prop := (s.wrapper id).api.Offers s.policy .listFree →
    Passing s t ∧ (t.wrapper id).api.Offers t.policy .listFree
  have hstill {s t : State} (hs : Still s t) (hw : t.wrapper id = s.wrapper id) : R s t :=
    fun ho ↦ ⟨.of_still hs, by rw [hw, hs.policy]; exact ho⟩
  have hR : Calm R := {
    refl := fun s ↦ hstill (Still.refl s) rfl
    trans := fun s t u h h' ho ↦ ⟨(h ho).1.trans (h' (h ho).2).1, (h' (h ho).2).2⟩
    engine := fun s e hh hl ↦ hstill (calm_still.engine s e hh hl) rfl
    event := fun s v hv ↦ hstill (calm_still.event s v hv) rfl
    settled := fun s host settled ↦ hstill (calm_still.settled s host settled) rfl }
  have hlist (h : Nat) : Within R (Wrapper.getList id h i) := by
    intro s
    have hdrifts : Within (Drift []) (Wrapper.getList id h i) := drifts_getList h i
    have hd := hdrifts s
    by_cases ho : (s.wrapper id).api.Offers s.policy .listFree
    · have hback {t : State} (hd : Drift [] s t) (hp : Passing s t) : R s t :=
        fun _ ↦ ⟨hp, by rw [hd.wrapper, hd.policy]; exact ho⟩
      exact (hd.and (passing_getList ho h i)).mono (fun _ _ ht ↦ hback ht.1 ht.2)
        fun _ _ ht ↦ hback ht.1 ht.2
    · exact hd.mono (fun _ _ _ ho' ↦ absurd ho' ho) fun _ _ _ ho' ↦ absurd ho' ho
  exact (calm_getinfo hR i hlist s).mono (fun _ _ ht ↦ (ht ho).1) fun _ _ ht ↦ (ht ho).1

end Wrapper

end

/-! ## Any step -/

/-- The wrapper that gives up what it keeps, and from where on. -/
def Step.released? : Step → Option (WrapperId × Nat)
  | release id mark => some (id, mark)
  | reset id | cleanup id | drop id => some (id, 0)
  | _ => none

/-- Every wrapper can free a list by the way that it has to the engine. -/
def State.Provided (s : State) : Prop :=
  ∀ id ∈ s.ids, (s.wrapper id).api.Offers s.policy .listFree

/-- What a step comes to for the lists. -/
inductive Traffic (s : State) : Step → Except Error WrapperId → State → Prop
  | passed {x r t} (hx : r.isOk = true → x.released? = none) (hp : Passing s t) : Traffic s x r t
  | built {id o items n t} (hb : Building s items (some n) t) :
      Traffic s (.setopt id o (.list items)) (.ok id) t
  | freed {x id mark t} (hx : x.released? = some (id, mark))
      (hf : Freeing s (s.orphaned id mark) t) : Traffic s x (.ok id) t

namespace Traffic

variable {s t : State} {x : Step}

theorem of_leads
    (h : Leads x.run s (fun a t ↦ Traffic s x (.ok a) t) fun e t ↦ Traffic s x (.error e) t) :
    Traffic s x (x.pass s).result (x.pass s).after := Step.pass_of_leads h

theorem error {e : Error} (hp : Passing s t) : Traffic s x (.error e) t := .passed nofun hp

theorem orphaned_or_offers (hprov : s.Provided) (id : WrapperId) (mark : Nat) :
    s.orphaned id mark = [] ∨ (s.wrapper id).api.Offers s.policy .listFree := by
  by_cases hid : id ∈ s.ids
  · exact .inr (hprov id hid)
  · have hnil : (s.wrapper id).ledger.since mark = [] := by
      rw [wrapper_of_notMem hid]
      exact List.drop_nil
    left
    rw [orphaned, hnil]
    rfl

/-- Every step comes to one of these for the lists. -/
theorem of_pass (hn : s.Numbered) (hprov : s.Provided)
    (hmake : ∀ api, x = .create api → api.Offers s.policy .listFree) :
    Traffic s x (x.pass s).result (x.pass s).after := by
  have hoffers {id : WrapperId} {h : Nat} (hh : (s.wrapper id).handle = some h) :
      (s.wrapper id).api.Offers s.policy .listFree := hprov id (mem_ids_of_handle hh)
  have hrequest (hx : x.isRequest = true) (hinfo : ∀ id i, x ≠ .getinfo id i) :
      Traffic s x (x.pass s).result (x.pass s).after := by
    have hreleased : x.released? = none := by
      cases x with
      | release | reset | cleanup | drop => cases hx
      | _ => rfl
    have hstill : Within Still x.run :=
      Step.request placid_still.stirred hx fun id i he ↦ absurd he (hinfo id i)
    refine of_leads ((hstill s).mono (fun _ _ hs ↦ ?_) fun _ _ hs ↦ .error (.of_still hs))
    exact .passed (fun _ ↦ hreleased) (.of_still hs)
  cases x with
  | create api =>
    refine of_leads ((passing_create hn (hmake api rfl)).mono (fun _ _ hp ↦ ?_) fun _ _ ↦ .error)
    exact .passed (fun _ ↦ rfl) hp
  | duplicate id =>
    refine of_leads ?_
    cases hh : (s.wrapper id).handle with
    | none =>
      rw [Step.run, Wrapper.duplicate, leads_bind, leads_liveHandle_none hh]
      exact .error (Passing.refl s)
    | some g =>
      refine (still_duplicate hn hh).mono (fun _ _ hs ↦ ?_) fun _ _ hf ↦ .error (.of_freeing hf)
      exact .passed (fun _ ↦ rfl) (.of_still hs)
  | setopt id o v =>
    refine of_leads ?_
    rw [Step.run, leads_bind]
    cases hh : (s.wrapper id).handle with
    | none =>
      refine (leads_setopt_none hh o v).mono (fun _ _ ht ↦ ht.elim) ?_
      rintro e t rfl
      exact .error (Passing.refl t)
    | some h =>
      refine (unbuilt_setopt hn.nodup hh (hoffers hh) o v).mono ?_ fun _ _ hu ↦
        .error (.of_unbuilt hu)
      rintro _ t (hs | ⟨items, head, rfl, hb⟩)
      · exact .passed (fun _ ↦ rfl) (.of_still hs)
      · cases head with
        | none =>
          cases hb with
          | empty hs => exact .passed (fun _ ↦ rfl) (.of_still hs)
        | some n => exact .built hb
  | perform | pause | send | recv | escape | unescape | impersonate =>
    exact hrequest rfl (by rintro _ _ ⟨⟩)
  | getinfo id i =>
    refine of_leads ?_
    rw [Step.run, leads_bind, leads_discard]
    cases hh : (s.wrapper id).handle with
    | none =>
      rw [Wrapper.getinfo, leads_bind, leads_liveHandle_none hh]
      exact .error (Passing.refl s)
    | some h =>
      refine (passing_getinfo (hoffers hh) i).mono (fun _ _ hp ↦ ?_) fun _ _ ↦ .error
      exact .passed (fun _ ↦ rfl) hp
  | reset id =>
    refine of_leads ?_
    rw [Step.run, leads_bind]
    cases hh : (s.wrapper id).handle with
    | none =>
      rw [Wrapper.reset, leads_bind, leads_liveHandle_none hh]
      exact .error (Passing.refl s)
    | some h =>
      refine (freeing_reset hh (.inr (hoffers hh))).mono (fun _ _ hf ↦ .freed rfl hf) ?_
      exact fun _ _ hs ↦ .error (.of_still hs)
  | release id mark =>
    refine of_leads ?_
    rw [Step.run, leads_bind, leads_discard, leads_lift]
    exact (freeing_releaseSince mark (orphaned_or_offers hprov id mark)).mono
      fun _ _ hf ↦ .freed rfl hf
  | cleanup id =>
    refine of_leads ?_
    rw [Step.run, leads_bind, leads_lift]
    exact (freeing_cleanup (orphaned_or_offers hprov id 0)).mono fun _ _ hf ↦ .freed rfl hf
  | drop id =>
    refine of_leads ?_
    rw [Step.run, leads_bind, leads_lift]
    exact (freeing_drop (orphaned_or_offers hprov id 0)).mono fun _ _ hf ↦ .freed rfl hf

end Traffic

end NativeTransfer
