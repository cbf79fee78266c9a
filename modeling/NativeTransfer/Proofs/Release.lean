import NativeTransfer.Proofs.NativeCall
import NativeTransfer.Wrapper.Basic

/-!
# Releasing

A release takes the end of a ledger away and frees the lists that nobody holds any more. Texts and
buffers are nobody's to free, so taking only such entries away leaves the engine's lists alone:
whatever was recorded on the way to a failure is taken back to where the ledger stood.

## Taking back

A program that fails after it has recorded something cuts the ledger where it stood when it began.
What is cut off is then what was recorded since, whatever has happened meanwhile (`ends_cut`), and
if no list is among it nothing is freed. So to record, fail and cut is to drift.

A ledger that gets an address which it has already would be noted (`noting`). The notes are of no
consequence to anything that is proved here, and are carried along.
-/

namespace NativeTransfer

/-! ## Ledgers taken back -/

namespace State

variable {s : State} {id : WrapperId}

theorem modifyWrapper_modifyWrapper (f g : Wrapper → Wrapper) :
    (s.modifyWrapper id f).modifyWrapper id g = s.modifyWrapper id fun w ↦ g (f w) := by
  have h : Pairs.adjust id g (Pairs.adjust id f s.wrappers) =
      Pairs.adjust id (fun w ↦ g (f w)) s.wrappers := by
    rw [Pairs.adjust, Pairs.adjust, Pairs.adjust, List.map_map]
    refine List.map_congr_left fun x _ ↦ ?_
    by_cases hx : x.1 = id
    · simp [hx]
    · simp [hx]
  rw [modifyWrapper, modifyWrapper, modifyWrapper, h]

/-- A number that is given once leads to the one wrapper that has it. -/
theorem wrapper_of_mem (hn : s.ids.Nodup) {x : WrapperId × Wrapper} (hx : x ∈ s.wrappers) :
    s.wrapper x.1 = x.2 := by
  have h : s.wrappers.lookup x.1 = some x.2 := by
    rw [ids] at hn
    generalize s.wrappers = l at hn hx ⊢
    induction l with
    | nil => exact absurd hx List.not_mem_nil
    | cons y l ih =>
      rw [List.map_cons, List.nodup_cons] at hn
      rcases List.mem_cons.1 hx with rfl | hx
      · rw [List.lookup_cons, beq_self_eq_true]
      · have hne : x.1 ≠ y.1 := fun he ↦ hn.1 (he ▸ List.mem_map_of_mem hx)
        rw [List.lookup_cons, beq_false_of_ne hne]
        exact ih hn.2 hx
  rw [wrapper, h, Option.getD_some]

/-- A change that leaves its wrapper as it is changes nothing. -/
theorem modifyWrapper_eq_self (hn : s.ids.Nodup) {f : Wrapper → Wrapper}
    (hf : f (s.wrapper id) = s.wrapper id) : s.modifyWrapper id f = s := by
  have h : Pairs.adjust id f s.wrappers = s.wrappers := by
    rw [Pairs.adjust]
    refine (List.map_congr_left fun x hx ↦ ?_).trans (List.map_id _)
    by_cases he : x.1 = id
    · rw [if_pos he]
      subst he
      rw [wrapper_of_mem hn hx] at hf
      rw [hf]
      rfl
    · rw [if_neg he]
      rfl
  rw [modifyWrapper, h]

theorem cut_recordAll (hn : s.ids.Nodup) (as : List Allocation) :
    (s.recordAll id as).cut id (s.wrapper id).ledger.position = s := by
  rw [cut, recordAll, modifyWrapper_modifyWrapper]
  refine modifyWrapper_eq_self hn ?_
  have h : ((s.wrapper id).ledger ++ as).take (s.wrapper id).ledger.length =
      (s.wrapper id).ledger := List.take_left
  rw [Ledger.before, Ledger.position, h]

theorem ledger_recordAll (ha : s.isAlive id = true) (as : List Allocation) :
    ((s.recordAll id as).wrapper id).ledger = (s.wrapper id).ledger ++ as := by
  rw [recordAll, wrapper_modifyWrapper s ha, if_pos rfl]

@[simp] theorem recordAll_nil (s : State) : s.recordAll id [] = s := by
  have h : Pairs.adjust id (fun w : Wrapper ↦ { w with ledger := w.ledger ++ [] }) s.wrappers =
      s.wrappers := by
    rw [Pairs.adjust]
    simp
  rw [recordAll, modifyWrapper, h]

theorem recordAll_append (as bs : List Allocation) :
    (s.recordAll id as).recordAll id bs = s.recordAll id (as ++ bs) := by
  rw [recordAll, recordAll, recordAll, modifyWrapper_modifyWrapper]
  simp only [List.append_assoc]

/-- A state in which it is noted that an allocation comes to a ledger that has its address. -/
def noting (s : State) (id : WrapperId) (a : Allocation) : State :=
  if (s.wrapper id).ledger.covers a.address then
    { s with repeats := s.repeats ++ [(id, a)] }
  else s

theorem noting_of_not_covers {a : Allocation}
    (ha : ¬ (s.wrapper id).ledger.covers a.address = true) : s.noting id a = s := if_neg ha

theorem noting_eq (s : State) (id : WrapperId) (a : Allocation) :
    s.noting id a = { s with repeats := (s.noting id a).repeats } := by
  rw [noting]
  split
  · rfl
  · rfl

theorem drift_noting (s : State) (id : WrapperId) (a : Allocation) :
    Drift [] s (s.noting id a) := by
  rw [noting_eq]
  exact Drift.repeats s _

theorem store_modifyWrapper {f : Wrapper → Wrapper} (hf : ∀ w, (f w).api = w.api) (h : Nat)
    (o : OptionCode) (x : Argument) :
    (s.modifyWrapper id f).store id h o x = (s.store id h o x).modifyWrapper id f := by
  rw [store, proj_modifyWrapper s id id Wrapper.api hf]
  rfl

theorem storeAll_modifyWrapper {f : Wrapper → Wrapper} (hf : ∀ w, (f w).api = w.api) (h : Nat)
    (xs : List (OptionCode × Argument)) :
    (s.modifyWrapper id f).storeAll id h xs = (s.storeAll id h xs).modifyWrapper id f := by
  induction xs generalizing s with
  | nil => rfl
  | cons x xs ih =>
    rw [storeAll, List.foldl_cons, store_modifyWrapper hf]
    exact ih

theorem storeAll_recordAll (as : List Allocation) (h : Nat) (xs : List (OptionCode × Argument)) :
    (s.recordAll id as).storeAll id h xs = (s.storeAll id h xs).recordAll id as := by
  refine storeAll_modifyWrapper ?_ h xs
  exact fun _ ↦ rfl

theorem store_recordAll (as : List Allocation) (h : Nat) (o : OptionCode) (x : Argument) :
    (s.recordAll id as).store id h o x = (s.store id h o x).recordAll id as :=
  storeAll_recordAll as h [(o, x)]

theorem storeAll_withSlots (f : Slots → Slots) (h : Nat) (xs : List (OptionCode × Argument)) :
    (s.withSlots id f).storeAll id h xs = (s.storeAll id h xs).withSlots id f := by
  refine storeAll_modifyWrapper ?_ h xs
  exact fun _ ↦ rfl

end State

/-! ## Releases -/

namespace Wrapper

variable {s : State} {id : WrapperId}

open State

theorem ends_getLedger {post : Ledger → State → Prop} :
    Ends (getLedger id) s post ↔ post (s.wrapper id).ledger s := Iff.rfl

theorem ends_getApi {post : Api → State → Prop} :
    Ends (getApi id) s post ↔ post (s.wrapper id).api s := Iff.rfl

section

variable {err : Error → State → Prop}

theorem leads_getApi {ok : Api → State → Prop} :
    Leads (liftM (getApi id)) s ok err ↔ ok (s.wrapper id).api s := Iff.rfl

theorem leads_liveHandle {ok : Nat → State → Prop} {h : Nat} (hh : (s.wrapper id).handle = some h) :
    Leads (liveHandle id) s ok err ↔ ok h s := by
  rw [liveHandle, leads_bind, leads_get, hh]
  rfl

theorem leads_liveHandle_none {ok : Nat → State → Prop} (hh : (s.wrapper id).handle = none) :
    Leads (liveHandle id) s ok err ↔ err .noHandle s := by
  rw [liveHandle, leads_bind, leads_get, hh]
  rfl

theorem leads_getLedger {ok : Ledger → State → Prop} :
    Leads (liftM (getLedger id)) s ok err ↔ ok (s.wrapper id).ledger s := Iff.rfl

theorem leads_newSerial {ok : Nat → State → Prop} :
    Leads (liftM newSerial) s ok err ↔ ok s.serials { s with serials := s.serials + 1 } := Iff.rfl

theorem leads_getSlots {ok : Slots → State → Prop} :
    Leads (liftM (getSlots id)) s ok err ↔ ok (s.wrapper id).slots s := Iff.rfl

theorem leads_modifySlots {ok : Unit → State → Prop} {f : Slots → Slots} :
    Leads (liftM (modifySlots id f)) s ok err ↔ ok () (s.withSlots id f) := Iff.rfl

end

theorem ends_record (a : Allocation) :
    Ends (record id a) s fun _ t ↦ t = (s.noting id a).recordAll id [a] := by
  rw [record, ends_bind, ends_getLedger, noting]
  dsimp only
  split
  · rfl
  · rfl

theorem ends_recordEach (as : List Allocation) :
    Ends (recordEach id as) s fun _ t ↦ ∃ rs, t = ({ s with repeats := rs }).recordAll id as := by
  induction as generalizing s with
  | nil => exact ⟨s.repeats, (recordAll_nil s).symm⟩
  | cons a as ih =>
    rw [recordEach, ends_bind]
    refine (ends_record a).mono ?_
    rintro _ t rfl
    refine ih.mono ?_
    rintro _ t ⟨rs, rfl⟩
    rw [noting_eq]
    exact ⟨rs, recordAll_append (s := { s with repeats := rs }) [a] as⟩

theorem ends_freeNativeList (api : Api) (head : Option Nat) :
    Ends (freeNativeList api head) s fun _ t ↦ Drift head.toList s t := by
  cases head with
  | none => exact Drift.refl s
  | some n =>
    rw [freeNativeList, ends_bind, ends_run]
    refine (api.leads_freeList n).mono (fun _ _ ht ↦ ht) fun _ t ht ↦ ?_
    refine (ends_report _ _ _).mono fun _ u hu ↦ ?_
    exact (ht.trans hu).mono (List.nil_subset _)

theorem nativeLists_cons (a : Allocation) (as : List Allocation) :
    (a :: as).filterMap (·.nativeList?) =
      a.nativeList?.toList ++ as.filterMap (·.nativeList?) := by
  rw [List.filterMap_cons]
  cases a.nativeList? with
  | none => rfl
  | some n => rfl

theorem ends_freeNativeLists (api : Api) (as : List Allocation) :
    Ends (freeNativeLists api as) s fun _ t ↦ Drift (as.filterMap (·.nativeList?)) s t := by
  induction as generalizing s with
  | nil => exact Drift.refl s
  | cons a as ih =>
    rw [freeNativeLists, ends_bind]
    refine (ends_freeNativeList api _).mono fun _ t ht ↦ ih.mono fun _ u hu ↦ ?_
    rw [nativeLists_cons]
    exact ht.trans hu

theorem ends_releaseSince (mark : Nat) :
    Ends (releaseSince id mark) s fun n t ↦
      n = ((s.wrapper id).ledger.since mark).length ∧
      Drift ((Ledger.orphans (s.cut id mark).holds
        ((s.wrapper id).ledger.since mark)).filterMap (·.nativeList?)) (s.cut id mark) t :=
  ⟨rfl, ends_freeNativeLists ((s.cut id mark).wrapper id).api _⟩

theorem ends_freeNativeLists_nil (api : Api) {as : List Allocation}
    (has : ∀ a ∈ as, a.nativeList? = none) :
    Ends (freeNativeLists api as) s fun _ t ↦ t = s := by
  induction as with
  | nil => rfl
  | cons a as ih =>
    rw [freeNativeLists, has a List.mem_cons_self]
    exact ih fun b hb ↦ has b (List.mem_cons_of_mem _ hb)

section

variable {t : State} {as : List Allocation}

/-- The mark is as old as `s`, so a release from there takes just what was recorded since, and does
no more than that if it was no list. -/
theorem ends_cut (ha : s.isAlive id = true) (has : ∀ a ∈ as, a.nativeList? = none)
    (hd : Drift [] (s.recordAll id as) t) :
    Ends (releaseSince id (s.wrapper id).ledger.position) t fun _ u ↦
      u = t.cut id (s.wrapper id).ledger.position := by
  have hgone : (t.wrapper id).ledger.since (s.wrapper id).ledger.position = as := by
    rw [hd.wrapper, ledger_recordAll ha]
    exact List.drop_left
  refine ends_freeNativeLists_nil ((t.cut id _).wrapper id).api fun a hm ↦ has a ?_
  rw [← hgone]
  exact (Ledger.mem_orphans.1 hm).1

theorem ends_rollback (hn : s.ids.Nodup) (ha : s.isAlive id = true)
    (has : ∀ a ∈ as, a.nativeList? = none) (hd : Drift [] (s.recordAll id as) t) :
    Ends (releaseSince id (s.wrapper id).ledger.position) t fun _ u ↦ Drift [] s u := by
  have hcut : Drift [] ((s.recordAll id as).cut id (s.wrapper id).ledger.position)
      (t.cut id (s.wrapper id).ledger.position) := hd.modifyWrapper id _
  rw [cut_recordAll hn] at hcut
  refine (ends_cut ha has hd).mono ?_
  rintro _ u rfl
  exact hcut

end

end Wrapper

end NativeTransfer
