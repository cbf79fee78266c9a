import NativeTransfer.Proofs.Setopt
import NativeTransfer.Wrapper.Lifecycle

/-!
# How wrappers begin and end

A wrapper begins with a handle that was in use nowhere, and with what its source shares with it if
it is a duplicate. It gives up its ledger when it is reset, and everything when it ends; the lists
that are freed then are those that only its own ledger held.

## In which order things happen

A wrapper that ends is taken out of the registry before the engine is asked to let its handle go,
and the ledger goes after that. So the engine never calls back in the name of a wrapper whose memory
is gone. `State.unlink` is the first half and `State.empty` the second, and whether the engine was
reached in between is a parameter.

A duplicate begins with a copy of all options of its source, is registered under its own handle, and
records the shared part of its source's ledger before anything else is done with it (`State.twin`).
If it cannot be taken off its source's callbacks it is ended like any other wrapper, and all that is
left of it is that its number was used up.
-/

namespace NativeTransfer

namespace State

/-! ## Transformers -/

/-- A new wrapper for a handle. -/
def adopt (s : State) (h : Nat) (api : Api) : State :=
  { s with
    opened := s.opened + 1
    wrappers := s.wrappers ++ [(s.opened, { handle := some h, api })]
    registry := s.registry.register (.handle h) s.opened }

/-- A wrapper without slots and without a ledger. -/
def empty (s : State) (id : WrapperId) : State :=
  s.modifyWrapper id fun w ↦ { w with slots := {}, ledger := [] }

/-- A handle that is not served any more. -/
def abandon (s : State) (h : Nat) : State :=
  { s with registry := s.registry.unregister (.handle h) }

/-- A wrapper that gave up its handle. Whether the engine let it go is another matter. -/
def unlink (s : State) (id : WrapperId) (h : Nat) (closed : Bool) : State :=
  let t := (s.modifyWrapper id ({ · with handle := none })).abandon h
  if closed then t.close (s.wrapper id).api.route h else t

/-- A wrapper that is gone. -/
def remove (s : State) (id : WrapperId) : State :=
  { s with wrappers := Pairs.without id s.wrappers }

/-- A wrapper for a handle that the engine made. -/
def make (s : State) (h : Nat) (api : Api) : State := (s.begin api.route h).adopt h api

/-- A wrapper for a copy of a handle, with what it shares with its source. -/
def twin (s : State) (id : WrapperId) (g h : Nat) : State :=
  ((s.copy (s.wrapper id).api.route g h).adopt h (s.wrapper id).api).recordAll s.opened
    (s.wrapper id).ledger.shared

/-- Wrappers have numbers of their own, and none has a number that is still to be given. -/
structure Numbered (s : State) : Prop where
  nodup : s.ids.Nodup
  below : ∀ j ∈ s.ids, j < s.opened

namespace Drift

variable {s t : State} {loose : List Nat}

theorem abandon (hd : Drift loose s t) (h : Nat) : Drift loose (s.abandon h) (t.abandon h) :=
  { hd with registry := by rw [State.abandon, State.abandon, hd.registry] }

theorem unlink (hd : Drift loose s t) (id : WrapperId) (h : Nat) (closed : Bool) :
    Drift loose (s.unlink id h closed) (t.unlink id h closed) := by
  have hd' := (hd.modifyWrapper id ({ · with handle := none })).abandon h
  cases closed with
  | false => exact hd'
  | true =>
    rw [State.unlink, State.unlink, hd.wrapper]
    exact hd'.close _ h

theorem adopt (hd : Drift loose s t) (h : Nat) (api : Api) :
    Drift loose (s.adopt h api) (t.adopt h api) :=
  { hd with
    wrappers := by rw [State.adopt, State.adopt, hd.wrappers, hd.opened]
    registry := by rw [State.adopt, State.adopt, hd.registry, hd.opened]
    opened := by rw [State.adopt, State.adopt, hd.opened] }

theorem remove (hd : Drift loose s t) (id : WrapperId) : Drift loose (s.remove id) (t.remove id) :=
  { hd with wrappers := by rw [State.remove, State.remove, hd.wrappers] }

end Drift

theorem ids_adopt (s : State) (h : Nat) (api : Api) :
    (s.adopt h api).ids = s.ids ++ [s.opened] := by
  rw [ids, ids, adopt, List.map_append]
  rfl

theorem wrapper_adopt {s : State} (hid : s.opened ∉ s.ids) (h : Nat) (api : Api) (j : WrapperId) :
    (s.adopt h api).wrapper j =
      if j = s.opened then { handle := some h, api } else s.wrapper j := by
  rw [← isAlive_iff, isAlive, Bool.not_eq_true, Option.isSome_eq_false_iff,
    Option.isNone_iff_eq_none] at hid
  rw [wrapper, wrapper, adopt, List.lookup_append]
  by_cases hj : j = s.opened
  · rw [if_pos hj, hj, hid, List.lookup_cons, beq_self_eq_true]
    rfl
  · rw [if_neg hj, List.lookup_cons, beq_false_of_ne hj, List.lookup_nil, Option.or_none]

theorem wrapper_remove_of_ne (s : State) {id j : WrapperId} (hj : j ≠ id) :
    (s.remove id).wrapper j = s.wrapper j := by
  rw [wrapper, wrapper, State.remove, Pairs.lookup_without, if_neg hj]

theorem Numbered.notMem {s : State} (hn : s.Numbered) : s.opened ∉ s.ids :=
  fun hm ↦ Nat.lt_irrefl _ (hn.below _ hm)

theorem Numbered.told {s : State} (hn : s.Numbered) (tables : List (Nat × Settings)) (r : Route)
    (c : NativeCall) : (s.told tables r c).Numbered := ⟨hn.nodup, hn.below⟩

theorem wrapper_adopt_told {s : State} (hn : s.Numbered) (tables : List (Nat × Settings))
    (r : Route) (c : NativeCall) (h : Nat) (api : Api) (j : WrapperId) :
    ((s.told tables r c).adopt h api).wrapper j =
      if j = s.opened then { handle := some h, api } else s.wrapper j :=
  wrapper_adopt (s := s.told tables r c) hn.notMem h api j

theorem wrapper_twin {s : State} (hn : s.Numbered) (id : WrapperId) (g h : Nat) :
    (s.twin id g h).wrapper s.opened =
      { handle := some h, ledger := (s.wrapper id).ledger.shared, api := (s.wrapper id).api } := by
  have hw : ((s.copy (s.wrapper id).api.route g h).adopt h (s.wrapper id).api).wrapper s.opened =
      { handle := some h, api := (s.wrapper id).api } :=
    (wrapper_adopt_told hn _ _ _ h _ _).trans (if_pos rfl)
  rw [twin, recordAll, wrapper_modifyWrapper _ (isAlive_of_handle (congrArg Wrapper.handle hw)),
    if_pos rfl, hw]
  rfl

theorem wrapper_twin_of_ne {s : State} (hn : s.Numbered) (id : WrapperId) (g h : Nat)
    {j : WrapperId} (hj : j ≠ s.opened) : (s.twin id g h).wrapper j = s.wrapper j := by
  rw [twin, recordAll, wrapper_modifyWrapper_eq, if_neg fun hc ↦ hj hc.1]
  exact (wrapper_adopt_told hn _ _ _ h _ j).trans (if_neg hj)

theorem wrapper_make {s : State} (hn : s.Numbered) (h : Nat) (api : Api) :
    (s.make h api).wrapper s.opened = { handle := some h, api } :=
  (wrapper_adopt_told hn _ _ _ h api _).trans (if_pos rfl)

theorem Numbered.adopt {s : State} (hn : s.Numbered) (h : Nat) (api : Api) :
    (s.adopt h api).Numbered where
  nodup := by
    rw [ids_adopt, List.nodup_append]
    refine ⟨hn.nodup, by simp, fun j hj i hi ↦ ?_⟩
    rw [List.mem_singleton.1 hi]
    exact Nat.ne_of_lt (hn.below j hj)
  below j hj := by
    rw [ids_adopt, List.mem_append, List.mem_singleton] at hj
    rcases hj with hj | rfl
    · exact Nat.lt_succ_of_lt (hn.below j hj)
    · exact Nat.lt_succ_self _

/-- Lists that one ledger holds and no other does. -/
def OwnLists (s : State) (id : WrapperId) (loose : List Nat) : Prop :=
  ∀ n ∈ loose, ∃ a ∈ (s.wrapper id).ledger, a.nativeList? = some n ∧
    ∀ j, j ≠ id → a ∉ (s.wrapper j).ledger

/-- Lists that a ledger holds, and that nobody does once it is cut. -/
def Orphaned (s : State) (id : WrapperId) (mark : Nat) (loose : List Nat) : Prop :=
  ∀ n ∈ loose, ∃ a ∈ (s.wrapper id).ledger, a.nativeList? = some n ∧
    ∀ j, a ∉ ((s.cut id mark).wrapper j).ledger

theorem ledger_cut_of_ne (s : State) {id j : WrapperId} (hj : j ≠ id) (mark : Nat) :
    ((s.cut id mark).wrapper j).ledger = (s.wrapper j).ledger := by
  rw [cut, wrapper_modifyWrapper_eq, if_neg fun hc ↦ hj hc.1]

theorem Orphaned.ownLists {s : State} {id : WrapperId} {mark : Nat} {loose : List Nat}
    (ho : Orphaned s id mark loose) : OwnLists s id loose := by
  intro n hn
  obtain ⟨a, ha, han, hnot⟩ := ho n hn
  exact ⟨a, ha, han, fun j hj ↦ ledger_cut_of_ne s hj mark ▸ hnot j⟩

theorem ledger_withSlots (s : State) (id j : WrapperId) (f : Slots → Slots) :
    ((s.withSlots id f).wrapper j).ledger = (s.wrapper j).ledger := by
  refine proj_modifyWrapper s id j Wrapper.ledger ?_
  exact fun _ ↦ rfl

theorem OwnLists.congr {s t : State} {id : WrapperId} {loose : List Nat} (h : OwnLists t id loose)
    (hl : ∀ j, (t.wrapper j).ledger = (s.wrapper j).ledger) : OwnLists s id loose := by
  intro n hn
  obtain ⟨a, ha, han, hj⟩ := h n hn
  refine ⟨a, hl id ▸ ha, han, fun j hne ↦ ?_⟩
  rw [← hl j]
  exact hj j hne

end State

open State

/-! ## What is settled once -/

section

variable {R : State → State → Prop} (hR : Calm R) {s : State}

include hR

theorem Calm.activeConfig : Ends Global.activeConfig s fun _ t ↦ R s t := by
  rw [Global.activeConfig, ends_bind, ends_get]
  split
  · exact hR.refl s
  · dsimp only
    split
    · exact hR.settled s _ _
    · rw [ends_bind]
      refine (hR.report _ _ _).mono fun _ t ht ↦ ?_
      exact hR.trans _ _ _ ht (hR.settled t _ _)

theorem Calm.logAll (rs : List LogRecord) : Ends (Global.logAll rs) s fun _ t ↦ R s t := by
  refine hR.events (fun v hv ↦ ?_) s
  obtain ⟨r, -, rfl⟩ := List.mem_map.1 hv
  rfl

theorem Calm.activeBundle : Ends Global.activeBundle s fun _ t ↦ R s t := by
  rw [Global.activeBundle, ends_bind, ends_get]
  split
  · exact hR.refl s
  · rw [ends_bind]
    refine hR.activeConfig.mono fun c t ht ↦ ?_
    exact hR.trans _ _ _ (hR.trans _ _ _ ht (hR.settled t _ _)) (hR.logAll _)

end

namespace Wrapper

variable {s : State} {id : WrapperId} {h : Nat}

/-! ## The end -/

theorem ends_release (mark : Nat) :
    Ends (releaseSince id mark) s fun _ t ↦
      ∃ loose, Orphaned s id mark loose ∧ Drift loose (s.cut id mark) t := by
  refine (ends_releaseSince mark).mono fun _ t ht ↦ ⟨_, fun n hn ↦ ?_, ht.2⟩
  obtain ⟨a, ha, han⟩ := List.mem_filterMap.1 hn
  obtain ⟨hmem, hheld⟩ := Ledger.mem_orphans.1 ha
  refine ⟨a, List.mem_of_mem_drop hmem, han, fun j hin ↦ ?_⟩
  rw [holds_of_mem _ hin] at hheld
  cases hheld

theorem ends_releaseAll :
    Ends (releaseAll id) s fun _ t ↦ ∃ loose, OwnLists s id loose ∧ Drift loose (s.cut id 0) t :=
  (ends_release 0).mono fun _ _ ⟨loose, ho, ht⟩ ↦ ⟨loose, ho.ownLists, ht⟩

theorem ends_empty :
    Ends (do discard (releaseAll id); modifySlots id fun _ ↦ {}) s fun _ t ↦
      ∃ loose, OwnLists s id loose ∧ Drift loose (s.empty id) t := by
  rw [ends_bind, ends_discard]
  refine ends_releaseAll.mono ?_
  rintro _ t ⟨loose, hown, ht⟩
  refine ⟨loose, hown, ?_⟩
  have heq : (s.cut id 0).withSlots id (fun _ ↦ {}) = s.empty id := modifyWrapper_modifyWrapper _ _
  rw [← heq]
  exact ht.modifyWrapper id _

theorem ledger_unlink (closed : Bool) (j : WrapperId) :
    ((s.unlink id h closed).wrapper j).ledger = (s.wrapper j).ledger := by
  have hw := proj_modifyWrapper s id j Wrapper.ledger (f := ({ · with handle := none })) fun _ ↦ rfl
  cases closed with
  | false => exact hw
  | true => exact hw

/-- A wrapper that ends gives up its handle first and its ledger last. -/
theorem ends_cleanup (hh : (s.wrapper id).handle = some h) :
    Ends (cleanup id) s fun _ t ↦ ∃ loose closed, OwnLists s id loose ∧
      Drift loose ((s.unlink id h closed).empty id) t := by
  have hend (closed : Bool) {t : State} (ht : Drift [] (s.unlink id h closed) t) :
      Ends (do discard (releaseAll id); modifySlots id fun _ ↦ {}) t fun _ u ↦
        ∃ loose closed, OwnLists s id loose ∧
          Drift loose ((s.unlink id h closed).empty id) u := by
    refine ends_empty.mono ?_
    rintro _ u ⟨loose, hown, hu⟩
    refine ⟨loose, closed, hown.congr fun j ↦ ?_, (ht.modifyWrapper id _).trans hu⟩
    rw [ht.wrapper, ledger_unlink]
  rw [cleanup, ends_bind, ends_get]
  dsimp only
  rw [hh]
  dsimp only
  rw [ends_bind, ends_modify, ends_bind, ends_modify, ends_bind, ends_run]
  refine (Api.leads_cleanup _ h).mono (fun _ t ht ↦ ?_) fun e t ht ↦ ?_
  · dsimp only
    rw [ends_bind]
    refine (ends_report _ _ _).mono fun _ u hu ↦ ?_
    exact hend true (ht.trans hu)
  · -- The wrapper is rid of its handle even if the engine is not.
    dsimp only
    rw [ends_bind]
    refine (ends_report _ _ _).mono fun _ u hu ↦ ?_
    rw [ends_bind]
    refine (ends_report _ _ _).mono fun _ v hv ↦ ?_
    exact hend false ((ht.trans hu).trans hv)

theorem ends_cleanup_none (hh : (s.wrapper id).handle = none) :
    Ends (cleanup id) s fun _ t ↦ ∃ loose, OwnLists s id loose ∧ Drift loose (s.empty id) t := by
  rw [cleanup, ends_bind, ends_get]
  dsimp only
  rw [hh]
  exact ends_empty

theorem ends_drop (hh : (s.wrapper id).handle = some h) :
    Ends (drop id) s fun _ t ↦ ∃ loose closed, OwnLists s id loose ∧
      Drift loose (((s.unlink id h closed).empty id).remove id) t := by
  rw [drop, ends_bind]
  refine (ends_cleanup hh).mono ?_
  rintro _ t ⟨loose, closed, hown, ht⟩
  exact ⟨loose, closed, hown, ht.remove id⟩

theorem ends_drop_none (hh : (s.wrapper id).handle = none) :
    Ends (drop id) s fun _ t ↦ ∃ loose, OwnLists s id loose ∧
      Drift loose ((s.empty id).remove id) t := by
  rw [drop, ends_bind]
  refine (ends_cleanup_none hh).mono ?_
  rintro _ t ⟨loose, hown, ht⟩
  exact ⟨loose, hown, ht.remove id⟩

/-- A reset that reaches the engine gives up what was kept, and any other changes nothing. -/
theorem leads_reset (hh : (s.wrapper id).handle = some h) :
    Leads (reset id) s
      (fun _ t ↦ ∃ loose, OwnLists s id loose ∧
        Drift loose ((s.clear (s.wrapper id).api.route h).empty id) t)
      fun _ t ↦ Drift [] s t := by
  rw [reset, leads_bind, leads_liveHandle hh, leads_bind, leads_getApi, leads_bind]
  refine (Api.leads_reset _ h).mono (fun _ t ht ↦ ?_) fun _ _ ht ↦ ht
  rw [leads_bind, leads_modifySlots, leads_bind, leads_lift]
  refine ends_releaseAll.mono ?_
  rintro _ u ⟨loose, hown, hu⟩
  rw [leads_lift]
  refine (ends_report _ _ _).mono fun _ v hv ↦ ⟨loose, hown.congr fun j ↦ ?_, ?_⟩
  · rw [ledger_withSlots, ht.wrapper]
    rfl
  · have heq : ((s.clear (s.wrapper id).api.route h).withSlots id fun _ ↦ {}).cut id 0 =
        (s.clear (s.wrapper id).api.route h).empty id := modifyWrapper_modifyWrapper _ _
    have hd := ((ht.modifyWrapper id _).modifyWrapper id _).trans (hu.trans hv)
    rw [List.append_nil, List.nil_append] at hd
    rw [← heq]
    exact hd

/-! ## The beginning -/

theorem leads_adopt (given : Option Nat) (api : Api) (origin : EntryPoint) :
    Leads (adopt given api origin) s
      (fun id t ↦ ∃ h, given = some h ∧ id = s.opened ∧ Drift [] (s.adopt h api) t)
      fun _ t ↦ given = none ∧ t = s := by
  rw [adopt.eq_def]
  cases given with
  | none => exact ⟨rfl, rfl⟩
  | some h =>
    dsimp only
    rw [leads_bind, leads_get, leads_bind, leads_modify, leads_bind, leads_lift]
    exact (ends_report _ _ _).mono fun _ t ht ↦ ⟨h, rfl, rfl, ht⟩

/-- The certificate bundle is an option like any other, and failing to set it is no failure. -/
theorem ends_applyBundle (hn : s.ids.Nodup) (hh : (s.wrapper id).handle = some h) :
    Ends (applyBundle id) s fun _ t ↦ Drift [] s t ∨
      ∃ path r, AfterSetopt s id h .caInfo (.text path) r t := by
  rw [applyBundle, ends_bind]
  refine calm_drift.activeBundle.mono fun bundle t ht ↦ ?_
  cases bundle with
  | none => exact .inl ht
  | some path =>
    have hn' : t.ids.Nodup := by
      rw [ht.ids]
      exact hn
    have hh' : (t.wrapper id).handle = some h := by
      rw [ht.wrapper]
      exact hh
    dsimp only
    rw [ends_bind, ends_run]
    refine (leads_setopt hn' hh' .caInfo (.text path)).mono (fun _ u hu ↦ ?_) fun e u hu ↦ ?_
    · exact .inr ⟨path, _, hu.of_drift ht⟩
    · refine (ends_report _ _ _).mono fun _ v hv ↦ ?_
      exact .inr ⟨path, _, (hu.of_drift ht).drift hv⟩

theorem leads_create (hn : s.Numbered) (api : Api) :
    Leads (create api) s
      (fun id t ↦ id = s.opened ∧ ∃ h, (s.Fresh → s.engine.settings? h = none) ∧
        (Drift [] (s.make h api) t ∨
          ∃ path r, AfterSetopt (s.make h api) s.opened h .caInfo (.text path) r t))
      fun _ t ↦ Drift [] s t := by
  rw [create, leads_bind]
  refine api.leads_init.mono (fun given t ht ↦ ?_) fun _ _ ht ↦ ht
  rw [leads_bind]
  refine (leads_adopt given api .init).mono ?_ ?_
  · rintro id u ⟨h, rfl, rfl, hu⟩
    obtain ⟨hnew, ht⟩ := ht
    have hd : Drift [] (s.make h api) u := (ht.adopt h api).trans hu
    have hn' : u.ids.Nodup := by
      rw [hd.ids]
      exact ((hn.told _ _ _).adopt h api).nodup
    have hh' : (u.wrapper t.opened).handle = some h := by
      rw [hd.wrapper, ht.opened, make]
      exact congrArg Wrapper.handle ((wrapper_adopt_told hn _ _ _ h api _).trans (if_pos rfl))
    -- Nothing can go wrong any more: a bundle that is refused is only reported.
    rw [leads_bind, leads_lift]
    refine (ends_applyBundle hn' hh').mono fun _ v hv ↦ ?_
    refine ⟨ht.opened, h, hnew, ?_⟩
    rcases hv with hv | ⟨path, r, hv⟩
    · exact .inl (hd.trans hv)
    · rw [ht.opened] at hv
      exact .inr ⟨path, r, hv.of_drift hd⟩
  · rintro e u ⟨rfl, rfl⟩
    exact ht

/-! ## Duplicates -/

theorem stores_detach (k : CallbackKind) : Stores id h (unwiring k) (detach id h k) := by
  refine stores_getApi fun api ↦ ?_
  have hlong : StoresBy api id h (if k = .progress then [(.noProgress, .integer 1)] else [])
      (if k = .progress then api.setLong h .noProgress 1 >>= api.check else pure ()) := by
    split
    · exact storesBy_call (api.setLong_eq h _ 1)
    · exact .nil
  have hfunction : StoresBy api id h [(k.functionOption, .function .null)]
      (api.setFunction h k.functionOption .null >>= api.check) :=
    storesBy_call (api.setFunction_eq h _ .null)
  have hdata : StoresBy api id h [(k.dataOption, .pointer .null)]
      (api.setPointer h k.dataOption .null >>= api.check) :=
    storesBy_call (api.setPointer_eq h _ .null)
  have hall := hfunction.append (hdata.append hlong)
  simp only [bind_assoc] at hall
  exact hall

theorem stores_detachAll (ks : List CallbackKind) :
    Stores id h (ks.flatMap unwiring) (detachAll id h ks) := by
  induction ks with
  | nil => exact Stores.nil
  | cons k ks ih => exact (stores_detach k).append ih

/-- A duplicate that cannot be taken off its source's callbacks is ended at once. -/
theorem leads_detachTwin (hn : s.Numbered) {g : Nat} {t : State} (ks : List CallbackKind)
    (hd : Drift [] (s.twin id g h) t) :
    Leads (orUndo (do detachAll s.opened (← liveHandle s.opened) ks) (drop s.opened)) t
      (fun _ u ↦ Drift [] ((s.twin id g h).storeAll s.opened h (ks.flatMap unwiring)) u)
      fun _ u ↦ ∃ loose done closed, done <+: ks.flatMap unwiring ∧
        OwnLists ((s.twin id g h).storeAll s.opened h done) s.opened loose ∧
        Drift loose (((((s.twin id g h).storeAll s.opened h done).unlink s.opened h closed).empty
          s.opened).remove s.opened) u := by
  have hh : (t.wrapper s.opened).handle = some h := by rw [hd.wrapper, wrapper_twin hn]
  rw [leads_orUndo, leads_bind, leads_liveHandle hh]
  refine (stores_detachAll ks _ t rfl).mono (fun _ u hu ↦ (hd.storeAll _ _ _).trans hu) ?_
  rintro e u ⟨done, hpre, -, hu⟩
  have hdone := (hd.storeAll s.opened h done).trans hu
  have hhu : (u.wrapper s.opened).handle = some h := by
    rw [hu.wrapper, wrapper_storeAll]
    exact hh
  refine (ends_drop hhu).mono ?_
  rintro _ v ⟨loose, closed, hown, hv⟩
  refine ⟨loose, done, closed, hpre, hown.congr fun j ↦ ?_, ?_⟩
  · rw [hdone.wrapper]
  · exact (((hdone.unlink _ h closed).modifyWrapper _ _).remove _).trans hv

theorem leads_duplicate (hn : s.Numbered) {g : Nat} (hh : (s.wrapper id).handle = some g) :
    Leads (duplicate id) s
      (fun copy t ↦ copy = s.opened ∧ ∃ h, (s.Fresh → s.engine.settings? h = none) ∧
        Drift [] ((s.twin id g h).storeAll s.opened h
          ((s.wrapper id).slots.installed.flatMap unwiring)) t)
      fun _ t ↦ Drift [] s t ∨ ∃ h loose done closed, (s.Fresh → s.engine.settings? h = none) ∧
        done <+: (s.wrapper id).slots.installed.flatMap unwiring ∧
        OwnLists ((s.twin id g h).storeAll s.opened h done) s.opened loose ∧
        Drift loose (((((s.twin id g h).storeAll s.opened h done).unlink s.opened h closed).empty
          s.opened).remove s.opened) t := by
  rw [duplicate, leads_bind, leads_liveHandle hh, leads_bind, leads_getApi, leads_bind]
  refine (Api.leads_duphandle _ g).mono (fun given t ht ↦ ?_) fun _ _ ht ↦ .inl ht
  rw [leads_bind]
  refine (leads_adopt given _ .duphandle).mono ?_ ?_
  · rintro copy u ⟨h, rfl, rfl, hu⟩
    obtain ⟨hnew, ht⟩ := ht
    have hid : id ≠ s.opened := by
      rintro rfl
      exact hn.notMem (isAlive_iff.1 (isAlive_of_handle hh))
    have hd : Drift [] ((s.copy (s.wrapper id).api.route g h).adopt h (s.wrapper id).api) u :=
      (ht.adopt h _).trans hu
    have hsource : u.wrapper id = s.wrapper id := by
      rw [hd.wrapper]
      exact (wrapper_adopt_told hn _ _ _ h _ id).trans (if_neg hid)
    have hopened : t.opened = s.opened := ht.opened
    rw [hopened, leads_bind, leads_getLedger, leads_bind, leads_lift]
    rw [hsource]
    refine (ends_recordEach _).mono ?_
    rintro _ v ⟨rs, rfl⟩
    -- What is shared makes the new wrapper a twin, and its source is as it was.
    have htwin : Drift [] (s.twin id g h)
        (recordAll { u with repeats := rs } s.opened (s.wrapper id).ledger.shared) :=
      (hd.trans (Drift.repeats u rs)).modifyWrapper s.opened _
    rw [leads_bind, leads_getSlots, leads_bind, htwin.wrapper, wrapper_twin_of_ne hn id g h hid]
    refine (leads_detachTwin hn _ htwin).mono (fun _ v hv ↦ ⟨rfl, h, hnew, hv⟩) ?_
    rintro e v ⟨loose, done, closed, hpre, hown, hv⟩
    exact .inr ⟨h, loose, done, closed, hnew, hpre, hown, hv⟩
  · rintro e u ⟨rfl, rfl⟩
    exact .inl ht

end Wrapper

end NativeTransfer
