import NativeTransfer.Proofs.Coherent
import NativeTransfer.Proofs.Listing

/-!
# What a failed setting leaves behind

An option that cannot be set leaves every ledger as it was, and of the list that was built for it
nothing but the record that it was built and freed again. A list has two owners on the way, the
program that appends to it and the ledger that it is recorded in; a failure comes before the list
is recorded, so it is freed by the first alone.

## Why nothing is freed twice

The copies of a list's items are recorded one by one as they are appended, and the list as a whole
only once the engine has its address. Whatever fails before that takes the copies out of the ledger
again, which frees no list, and then frees the list as far as it was built. So no ledger ever has a
list that is still to be refused, and the one who built it is the only one who frees it.

The trace tells of the nodes that were made and of one freeing with as many nodes, and `Unbuilt`
says no more and no less.
-/

namespace NativeTransfer

open State Wrapper

/-! ## Lists under construction -/

/-- The list of an engine that some items make. -/
def StringList.of (items : List String) : StringList :=
  { items := items.map fun x ↦ some (Text.utf8 x) }

/-- One list is new, if any: it was built out of some items, a node for each. -/
inductive Building (s : State) : List String → Option Nat → State → Prop
  | empty {t} (hs : Still s t) : Building s [] none t
  | grown {items t} (hne : items ≠ [])
      (hlists : t.engine.lists = s.engine.lists ++ [.of items])
      (hlisting : t.listing = s.listing ++
        List.replicate items.length (.grown (s.engine.lists.length + 1))) :
      Building s items (some (s.engine.lists.length + 1)) t

/-- One list is new, if any: it was built out of some items, a node for each, and then freed with
as many nodes. -/
inductive Unbuilt (s t : State) : Prop
  | untouched (hs : Still s t)
  | freed {items : List String} (hne : items ≠ [])
      (hlists : t.engine.lists = s.engine.lists ++ [{ StringList.of items with freed := true }])
      (hlisting : t.listing = s.listing ++
        (List.replicate items.length (.grown (s.engine.lists.length + 1)) ++
          [.freed (s.engine.lists.length + 1) items.length]))

variable {s t u : State} {id : WrapperId} {h : Nat}

theorem Building.still {items : List String} {head : Option Nat} (hb : Building s items head t)
    (hs : Still t u) : Building s items head u := by
  cases hb with
  | empty hst => exact .empty (hst.trans hs)
  | grown hne hlists hlisting =>
    exact .grown hne (hs.lists.trans hlists) (hs.listing.trans hlisting)

theorem Unbuilt.still (hb : Unbuilt s t) (hs : Still t u) : Unbuilt s u := by
  cases hb with
  | untouched hst => exact .untouched (hst.trans hs)
  | freed hne hlists hlisting =>
    exact .freed hne (hs.lists.trans hlists) (hs.listing.trans hlisting)

theorem Unbuilt.of_still (hu : Unbuilt t u) (hs : Still s t) : Unbuilt s u := by
  cases hu with
  | untouched htu => exact .untouched (hs.trans htu)
  | freed hne hlists hlisting =>
    rw [hs.lists] at hlists hlisting
    rw [hs.listing] at hlisting
    exact .freed hne hlists hlisting

theorem Building.of_still {items : List String} {head : Option Nat} (hb : Building t items head u)
    (hs : Still s t) : Building s items head u := by
  cases hb with
  | empty htu => exact .empty (hs.trans htu)
  | grown hne hlists hlisting =>
    rw [hs.lists] at hlists hlisting ⊢
    rw [hs.listing] at hlisting
    exact .grown hne hlists hlisting

/-- What an accepted value makes of the lists: one that is a list is the only new one. -/
def Value.Builds (v : Value) (s t : State) : Prop :=
  Still s t ∨ ∃ items head, v = .list items ∧ Building s items head t

theorem Value.Builds.of_still {v : Value} (hb : v.Builds t u) (hs : Still s t) : v.Builds s u := by
  rcases hb with htu | ⟨items, head, hv, hb⟩
  · exact .inl (hs.trans htu)
  · exact .inr ⟨items, head, hv, hb.of_still hs⟩

/-! ## The newest list -/

theorem modify_concat {α : Type} (f : α → α) (xs : List α) (a : α) :
    (xs ++ [a]).modify xs.length f = xs ++ [f a] := by
  induction xs with
  | nil => rfl
  | cons x xs ih => exact congrArg (x :: ·) ih

namespace Engine

variable {e : Engine} (ls : List StringList) {l : StringList}

theorem lists_modifyList_newest (hl : e.lists = ls ++ [l]) (f : StringList → StringList) :
    (e.modifyList (ls.length + 1) f).lists = ls ++ [f l] := by
  have h : (e.modifyList (ls.length + 1) f).lists = e.lists.modify ls.length f := rfl
  rw [h, hl, modify_concat]

theorem items_newest (hl : e.lists = ls ++ [l]) : e.items (ls.length + 1) = l.items := by
  have h : e.list? (ls.length + 1) = some l := by
    rw [list?, hl, List.getElem?_concat_length]
  rw [items, h]
  rfl

end Engine

/-! ## Appending and freeing -/

namespace Api

variable (api : Api) {items : List String} {head : Option Nat}

/-- One item more is one node more, of the list that was begun or of a new one. -/
theorem building_append (hb : Building s items head t) (x : String) :
    Leads (api.append head x) t
      (fun given u ↦ given.elim (Building s items head u) fun n ↦
        Building s (items ++ [x]) (some n) u)
      fun _ u ↦ Building s items head u := by
  rw [append_eq]
  refine (calm_still.leads_call api .listAppend fun y hy ↦ ?_).mono (fun _ _ hu ↦ hu)
    fun _ _ hs ↦ hb.still hs
  have hb' : Building s items head (counted t) := hb.still (calm_still.counted t)
  simp only [Engine.answerAppend] at hy
  split at hy
  · subst hy
    exact hb'.still (.of_event rfl rfl)
  · cases hb' with
    | empty hs =>
      subst hy
      -- The engine counts all lists that it ever built, and none was added since.
      have hn : (counted t).engine.lists.length + 1 = s.engine.lists.length + 1 := by rw [hs.lists]
      change Building s [x] (some ((counted t).engine.lists.length + 1)) _
      rw [hn]
      refine .grown (List.cons_ne_nil x []) ?_ ?_
      · change (counted t).engine.lists ++ [_] = _
        rw [hs.lists]
        rfl
      · rw [answered, listing_concat, hs.listing, ← hn]
        rfl
    | grown hne hlists hlisting =>
      subst hy
      refine .grown (List.append_ne_nil_of_left_ne_nil hne _) ?_ ?_
      · refine (Engine.lists_modifyList_newest s.engine.lists hlists _).trans ?_
        rw [StringList.of, StringList.of, List.map_append]
        rfl
      · rw [answered, listing_concat, hlisting, List.append_assoc, List.length_append,
          List.replicate_add]
        rfl

/-- A method that this way lets through, whatever state the engine is in. -/
def Offers (p : Policy) (m : Method) : Prop :=
  (api.refusal? m).isNone = true ∧ (api.isInProcess = true → ∀ e, p.unreachable e m = false)

variable {api}

/-- A call of a method that is on offer reaches the engine. -/
theorem Offers.leads_call {α : Type} {m : Method} (ho : api.Offers s.policy m)
    {answer : Policy → Engine → Answered α} {ok : α → State → Prop} {err : Error → State → Prop}
    (h : ∀ x, answer (counted s).policy (counted s).engine = x →
      ok x.result (answered api.route x (counted s))) :
    Leads (api.call m answer) s ok err := by
  obtain ⟨hr, hu⟩ := ho
  rw [Option.isNone_iff_eq_none] at hr
  have hreach : ¬ (api.isInProcess && s.policy.unreachable s.engine m) = true := by
    rw [Bool.and_eq_true]
    rintro ⟨hin, hun⟩
    rw [hu hin] at hun
    cases hun
  have hgate : Leads (api.gate m) s (fun _ t ↦ t = counted s) err := by
    simp only [gate, leads_bind, leads_get, leads_set, hr]
    rw [if_neg hreach]
    rfl
  exact leads_call_of_gate api hgate h

/-- A list that is freed is freed with all its nodes. -/
theorem Offers.leads_freeList {items : List String} {n : Nat} (ho : api.Offers t.policy .listFree)
    (hb : Building s items (some n) t) :
    Leads (api.freeList n) t (fun _ u ↦ Unbuilt s u) fun _ _ ↦ False := by
  cases hb with
  | grown hne hlists hlisting =>
    rw [freeList_eq]
    refine ho.leads_call ?_
    rintro x rfl
    have hitems : (counted t).engine.items (s.engine.lists.length + 1) =
        (StringList.of items).items := Engine.items_newest s.engine.lists hlists
    have hlength : (StringList.of items).items.length = items.length := List.length_map _
    have hcounted : (counted t).listing = t.listing := rfl
    refine .freed hne ?_ ?_
    · exact Engine.lists_modifyList_newest s.engine.lists hlists _
    · rw [answered, listing_concat, Engine.answerListFree, hitems, hlength, hcounted, hlisting,
        List.append_assoc]
      rfl

theorem Offers.ends_freeNativeList {items : List String} {head : Option Nat}
    (ho : api.Offers t.policy .listFree) (hb : Building s items head t) :
    Ends (freeNativeList api head) t fun _ u ↦ Unbuilt s u := by
  cases head with
  | none =>
    cases hb with
    | empty hs => exact .untouched hs
  | some n =>
    rw [freeNativeList, ends_bind, ends_run]
    exact (ho.leads_freeList hb).mono (fun _ _ hu ↦ hu) fun _ _ hu ↦ hu.elim

end Api

/-! ## Texts, buffers and lists -/

namespace Wrapper

theorem leads_setPointer_refused (o : OptionCode) (a : Address) :
    Leads (setPointer id h o a) t (fun _ u ↦ Still t u) fun _ u ↦ Drift [] t u ∧ Still t u :=
  (((stores_setPointer o a).single t).and (placid_still.setPointer o a t)).mono
    (fun _ _ hu ↦ hu.2) fun _ _ hu ↦ hu

theorem unbuilt_setText (ha : s.isAlive id = true) (o : OptionCode) (x : String) :
    Leads (setText id h o x) s (fun _ t ↦ Still s t) fun _ t ↦ Unbuilt s t := by
  rw [setText, leads_bind, leads_getLedger, leads_bind]
  refine ((leads_recordText x).and (still_recordText x s)).mono ?_ ?_
  · rintro a t ⟨⟨n, -, -, rfl, hd⟩, hs⟩
    rw [orRelease, leads_orUndo]
    refine (leads_setPointer_refused o _).mono (fun _ _ hu ↦ hs.trans hu) ?_
    rintro e u ⟨hu, hsu⟩
    have hcopy : ∀ a ∈ [Allocation.text n x], a.nativeList? = none := by
      simp [Allocation.nativeList?]
    rw [ends_discard]
    exact (still_rollback ha hcopy (hd.trans hu)).mono fun _ _ hv ↦
      .untouched ((hs.trans hsu).trans hv)
  · rintro e t ⟨-, hs⟩
    exact .untouched hs

theorem unbuilt_setBytes (ha : s.isAlive id = true) (o : OptionCode) (b : Buffer) :
    Leads (setBytes id h o b) s (fun _ t ↦ Still s t) fun _ t ↦ Unbuilt s t := by
  have hrecorded : Still s (s.recordAll id (lent (s.wrapper id).ledger b)) := ⟨rfl, rfl, rfl⟩
  refine leads_lend ?_
  rw [orRelease, leads_orUndo]
  refine ((stores_body o b _ _ rfl).and (placid_still.setBuffer o b _)).mono
    (fun _ _ ht ↦ hrecorded.trans ht.2) ?_
  rintro _ t ⟨⟨done, -, -, hd⟩, hs⟩
  rw [storeAll_recordAll] at hd
  have hback := still_rollback (s := s.storeAll id h done) (by simpa using ha)
    nativeList?_of_mem_lent hd
  rw [wrapper_storeAll] at hback
  rw [ends_discard]
  exact hback.mono fun _ _ hu ↦ .untouched ((hrecorded.trans hs).trans hu)

theorem building_appendItem {items : List String} {head : Option Nat}
    (hb : Building s items head t) (x : String) :
    Leads (appendItem id head x) t (fun n u ↦ Building s (items ++ [x]) (some n) u)
      fun _ u ↦ Building s items head u := by
  rw [appendItem, leads_bind, leads_getApi, leads_bind, leads_discard]
  refine (still_recordText x t).mono (fun _ u hu ↦ ?_) fun _ _ hu ↦ hb.still hu
  rw [leads_bind]
  refine (Api.building_append _ (hb.still hu) x).mono (fun given v hv ↦ ?_) fun _ _ hv ↦ hv
  cases given with
  | none => exact hv
  | some n => exact hv

section

variable {as : List Allocation} {items : List String} {head : Option Nat}

/-- What was recorded for a list is taken back, and the list is freed. -/
theorem ends_takeDown (hn : s.ids.Nodup) (ha : s.isAlive id = true)
    (ho : (s.wrapper id).api.Offers s.policy .listFree) (has : ∀ a ∈ as, a.nativeList? = none)
    (hd : Drift [] (s.recordAll id as) t) (hb : Building s items head t) :
    Ends (do
      discard (releaseSince id (s.wrapper id).ledger.position)
      freeNativeList (← getApi id) head) t fun _ u ↦ Unbuilt s u := by
  have hback : Ends (releaseSince id (s.wrapper id).ledger.position) t fun _ u ↦
      Drift [] s u ∧ Still t u :=
    ⟨ends_rollback hn ha has hd, still_rollback ha has hd⟩
  rw [ends_bind, ends_discard]
  refine hback.mono ?_
  rintro _ u ⟨hu, hs⟩
  rw [ends_bind, ends_getApi]
  refine Api.Offers.ends_freeNativeList ?_ (hb.still hs)
  rw [hu.wrapper, hu.policy]
  exact ho

/-- However far a list was built, a failure takes all of it down. -/
theorem unbuilt_buildList (hn : s.ids.Nodup) (ha : s.isAlive id = true)
    (ho : (s.wrapper id).api.Offers s.policy .listFree) (o : OptionCode) (rest : List String)
    (hc : Copies as items) (hbuilt : Built s t items head) (hd : Drift [] (s.recordAll id as) t)
    (hb : Building s items head t) :
    Leads (buildList id o (s.wrapper id).ledger.position head rest) t
      (fun last u ↦ Building s (items ++ rest) last u) fun _ u ↦ Unbuilt s u := by
  -- What is left to do is in the induction; what was done is in the invariant, which ends at `s`.
  induction rest generalizing t as items head with
  | nil =>
    rw [buildList, List.append_nil]
    exact hb
  | cons x rest ih =>
    rw [buildList, leads_bind, leads_observed]
    refine ((leads_appendItem hc hbuilt hd x).and (building_appendItem hb x)).mono ?_ ?_
    · rintro n u ⟨⟨bs, hc', hbuilt', hd'⟩, hb'⟩
      rw [List.append_cons]
      exact ih hc' hbuilt' hd' hb'
    · -- The item that fails may be recorded, but it is no node: the list is as it was before.
      rintro e u ⟨⟨bs, hbs, hd'⟩, hb'⟩
      have htaken := ends_takeDown hn ha ho hbs hd' hb'
      rw [ends_bind, ends_discard] at htaken
      rw [leads_bind, leads_discard, leads_lift]
      refine htaken.mono fun _ v hv ↦ ?_
      rw [ends_bind, ends_getApi] at hv
      rw [leads_bind, leads_getApi, leads_bind, leads_lift]
      refine hv.mono fun _ w hw ↦ ?_
      rw [leads_bind, leads_lift]
      exact (calm_still.report _ _ _).mono fun _ _ hz ↦ hw.still hz

theorem unbuilt_setList (hn : s.ids.Nodup) (ha : s.isAlive id = true)
    (ho : (s.wrapper id).api.Offers s.policy .listFree) (o : OptionCode) (items : List String) :
    Leads (setList id h o items) s (fun _ t ↦ ∃ head, Building s items head t)
      fun _ t ↦ Unbuilt s t := by
  have hstart : Drift [] (s.recordAll id []) s := by
    rw [recordAll_nil]
    exact Drift.refl s
  have hnil : Copies [] [] := .nil
  have hnone : Built s s [] none := rfl
  have hbuild := (leads_buildList hn ha o items hnil hnone hstart).and
    (unbuilt_buildList hn ha ho o items hnil hnone hstart (.empty (Still.refl s)))
  rw [setList, leads_bind, leads_getLedger, leads_bind]
  refine hbuild.mono ?_ fun _ _ ht ↦ ht.2
  rintro head t ⟨⟨as, hc, -, hd⟩, hb⟩
  rw [leads_bind, leads_orUndo]
  refine (leads_setPointer_refused o _).mono ?_ ?_
  · intro _ u hu
    have hb' : Building s items head u := hb.still hu
    split
    · rw [leads_bind, leads_newSerial, leads_lift]
      exact (still_record _).mono fun _ _ hv ↦ ⟨head, hb'.still ((still_serial u).trans hv)⟩
    · exact ⟨head, hb'⟩
  · rintro e u ⟨hu, hs⟩
    exact ends_takeDown hn ha ho (nativeList?_of_copies hc) (hd.trans hu) (hb.still hs)

end

/-! ## Any option -/

theorem unbuilt_of_still {x : Attempt Unit} (v : Value) (hx : Within Still x) (s : State) :
    Leads x s (fun _ t ↦ v.Builds s t) fun _ t ↦ Unbuilt s t :=
  (hx s).mono (fun _ _ hs ↦ .inl hs) fun _ _ hs ↦ .untouched hs

theorem unbuilt_setPlain (hn : s.ids.Nodup) (ha : s.isAlive id = true)
    (ho : (s.wrapper id).api.Offers s.policy .listFree) (o : OptionCode) (v : Value) :
    Leads (setPlain id h o v) s (fun _ t ↦ v.Builds s t) fun _ t ↦ Unbuilt s t := by
  rw [setPlain.eq_def]
  split
  · exact unbuilt_of_still _ (placid_still.setPointer _ _) s
  · exact unbuilt_of_still _ (placid_still.setPointer _ _) s
  · exact unbuilt_of_still _ (placid_still.setFunction _ _) s
  · exact unbuilt_of_still _ (placid_still.setInteger _ _) s
  · exact unbuilt_of_still _ (placid_still.setInteger _ _) s
  · exact (unbuilt_setText ha o _).mono (fun _ _ hs ↦ .inl hs) fun _ _ hu ↦ hu
  · exact (unbuilt_setBytes ha o _).mono (fun _ _ hs ↦ .inl hs) fun _ _ hu ↦ hu
  · refine (unbuilt_setList hn ha ho o _).mono ?_ fun _ _ hu ↦ hu
    rintro _ _ ⟨head, hb⟩
    exact .inr ⟨_, head, rfl, hb⟩
  · exact unbuilt_of_still _ (placid_still.setPointer _ _) s
  · exact unbuilt_of_still _ (placid_still.setPointer _ _) s
  · exact unbuilt_of_still _ (placid_still.setFunction _ _) s
  · exact unbuilt_of_still _ (calm_still.throw _) s

theorem unbuilt_setopt (hn : s.ids.Nodup) (hh : (s.wrapper id).handle = some h)
    (ho : (s.wrapper id).api.Offers s.policy .listFree) (o : OptionCode) (v : Value) :
    Leads (setopt id o v) s (fun _ t ↦ v.Builds s t) fun _ t ↦ Unbuilt s t := by
  have hreport (level : Level) (message : String) (fields : List (String × Field)) :
      Ends (report level message fields) s fun _ t ↦ Drift [] s t ∧ Still s t :=
    ⟨ends_report .., calm_still.report ..⟩
  rw [setopt, leads_bind, leads_liveHandle hh, leads_bind, leads_lift]
  refine (hreport _ _ _).mono ?_
  rintro _ t ⟨hd, hs⟩
  have hback {x : Attempt Unit} (hx : Leads x t (fun _ u ↦ v.Builds t u) fun _ u ↦ Unbuilt t u) :
      Leads x t (fun _ u ↦ v.Builds s u) fun _ u ↦ Unbuilt s u :=
    hx.mono (fun _ _ hu ↦ hu.of_still hs) fun _ _ hu ↦ hu.of_still hs
  split
  · exact hback (unbuilt_of_still v (placid_still.setCallback _ v) t)
  · exact hback (unbuilt_of_still v (placid_still.setCallbackData _ v) t)
  · refine hback (unbuilt_setPlain ?_ ?_ ?_ o v)
    · rw [hd.ids]
      exact hn
    · rw [hd.isAlive]
      exact isAlive_of_handle hh
    · rw [hd.wrapper, hd.policy]
      exact ho

theorem AfterSetopt.wrappers_of_error {o : OptionCode} {v : Value} {e : Error}
    (ha : AfterSetopt s id h o v (.error e) t) : ∃ f, t.wrappers = (s.withSlots id f).wrappers := by
  cases ha with
  | refused hd => exact ⟨fun x ↦ x, by rw [withSlots_self, hd.wrappers]⟩
  | rewired _ _ _ hd => exact ⟨_, hd.wrappers.trans (wrappers_storeAll ..)⟩
  | plain _ ha =>
    refine ⟨fun x ↦ x, ?_⟩
    rw [withSlots_self]
    cases ha with
    | refused hd => exact hd.wrappers
    | strayed _ hd => exact hd.wrappers

end Wrapper

/-! ## Ledgers -/

theorem State.holders_withSlots (s : State) (id : WrapperId) (f : Slots → Slots) (a : Allocation) :
    (s.withSlots id f).holders a = s.holders a := by
  have h : (s.withSlots id f).wrappers.flatMap (·.2.ledger) = s.wrappers.flatMap (·.2.ledger) := by
    rw [withSlots, modifyWrapper, Pairs.adjust, List.flatMap_map]
    refine List.flatMap_congr fun x _ ↦ ?_
    by_cases hx : x.1 = id
    · rw [if_pos hx]
    · rw [if_neg hx]
  rw [holders, holders, h]

/-- All that was recorded or built from one state to the other was taken back: every ledger is as it
was, every allocation has as many holders as before, and no list was left behind. -/
structure State.Restored (s t : State) : Prop where
  ledger : ∀ j, (t.wrapper j).ledger = (s.wrapper j).ledger
  holders : ∀ a, t.holders a = s.holders a
  lists : Unbuilt s t

/-- A setting that fails takes back all that was recorded or built for it, wherever it fails. -/
theorem restored_setopt (hn : s.ids.Nodup) (ho : (s.wrapper id).api.Offers s.policy .listFree)
    (o : OptionCode) (v : Value) :
    Leads (setopt id o v) s (fun _ _ ↦ True) fun _ t ↦ s.Restored t := by
  cases hh : (s.wrapper id).handle with
  | none =>
    refine (leads_setopt_none hh o v).mono (fun _ _ _ ↦ trivial) ?_
    rintro _ t rfl
    exact ⟨fun _ ↦ rfl, fun _ ↦ rfl, .untouched (Still.refl t)⟩
  | some h =>
    refine ((leads_setopt hn hh o v).and (unbuilt_setopt hn hh ho o v)).mono
      (fun _ _ _ ↦ trivial) ?_
    rintro _ t ⟨ha, hu⟩
    obtain ⟨f, hw⟩ := ha.wrappers_of_error
    have hledger (j : WrapperId) : (t.wrapper j).ledger = (s.wrapper j).ledger := by
      rw [State.wrapper, hw]
      exact ledger_withSlots s id j f
    have hholders (a : Allocation) : t.holders a = s.holders a := by
      rw [State.holders, hw]
      exact holders_withSlots s id f a
    exact ⟨hledger, hholders, hu⟩

theorem State.Numbered.restored (hn : s.Numbered)
    (ho : (s.wrapper id).api.Offers s.policy .listFree) {o : OptionCode} {v : Value}
    (hr : ((Step.setopt id o v).pass s).result.isOk = false) :
    s.Restored ((Step.setopt id o v).pass s).after := by
  have hrun : Leads (Step.setopt id o v).run s (fun _ _ ↦ True) fun _ t ↦ s.Restored t := by
    rw [Step.run, leads_bind]
    exact restored_setopt hn.nodup ho o v
  have hpass : ((Step.setopt id o v).pass s).result.isOk = false →
      s.Restored ((Step.setopt id o v).pass s).after := by
    refine Step.pass_of_leads (P := fun r t ↦ r.isOk = false → s.Restored t) ?_
    refine hrun.mono (fun _ _ _ hok ↦ ?_) fun _ _ ht _ ↦ ht
    cases hok
  exact hpass hr

/-- Whatever was done before with any number of wrappers, and whatever the engine makes of it: a
setting that fails is taken back, where a list can be freed by the way that its wrapper has to the
engine. -/
theorem failed_setting_is_rolled_back (policy : Policy) (host : Host) (settled : Settled)
    (steps : List Step) {p : Passage} (hp : p ∈ passages (.start policy host settled) steps)
    {id : WrapperId} {o : OptionCode} {v : Value} (hx : p.step = .setopt id o v)
    (hr : p.result.isOk = false) (ho : (p.before.wrapper id).api.Offers policy .listFree) :
    p.before.Restored p.after ∧
      (p.after.wrapper id).ledger.position = (p.before.wrapper id).ledger.position := by
  obtain ⟨ys, x, zs, rfl, rfl⟩ := exists_of_mem_passages hp
  obtain rfl : x = .setopt id o v := hx
  -- Nothing is asked of the engine's handles, so what is known of the run is its numbers alone.
  have hstart := (Coherent.start policy host settled).numbered
  have hn := (hstart.after ys).1
  have ho' : (((State.start policy host settled).after ys).wrapper id).api.Offers
      ((State.start policy host settled).after ys).policy .listFree := by
    rw [hstart.policy_after]
    exact ho
  have hback := hn.restored ho' hr
  refine ⟨hback, ?_⟩
  exact congrArg Ledger.position (hback.ledger id)

/-- A list whose second item is refused is freed with its first, beside one that stays. -/
theorem refused_item_is_rolled_back :
    let s := (State.start { refusesItem := fun e ↦ e.appends = 2 } .bare .bare).after
      [.create .inProcess, .setopt 0 .httpHeader (.list ["a"])]
    let t := ((Step.setopt 0 .httpHeader (.list ["b", "c"])).pass s).after
    s.Restored t ∧ t.listing = [.grown 1, .grown 2, .freed 2 1] := by
  have hmem : (Step.setopt 0 .httpHeader (.list ["b", "c"])).pass
      ((State.start { refusesItem := fun e ↦ e.appends = 2 } .bare .bare).after
        [.create .inProcess, .setopt 0 .httpHeader (.list ["a"])]) ∈
      passages (.start { refusesItem := fun e ↦ e.appends = 2 } .bare .bare)
        [.create .inProcess, .setopt 0 .httpHeader (.list ["a"]),
          .setopt 0 .httpHeader (.list ["b", "c"])] :=
    List.mem_cons_of_mem _ (List.mem_cons_of_mem _ List.mem_cons_self)
  have hback := failed_setting_is_rolled_back { refusesItem := fun e ↦ e.appends = 2 } .bare .bare
    [.create .inProcess, .setopt 0 .httpHeader (.list ["a"]),
      .setopt 0 .httpHeader (.list ["b", "c"])]
    hmem rfl (by decide +kernel) ⟨by decide +kernel, fun _ _ ↦ rfl⟩
  exact ⟨hback.1, by decide +kernel⟩

end NativeTransfer
