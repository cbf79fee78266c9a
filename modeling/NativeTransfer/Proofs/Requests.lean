import NativeTransfer.Proofs.Release
import NativeTransfer.Wrapper.Request

/-!
# What requests do

Requests other than setting options are of no consequence to what is set and recorded. Most of them
disturb nothing that is calm. A transfer runs the callers' code, which leaves other data in the
slots; but a slot that has a callback has one afterwards, and one that has none has none. All that
is heard meanwhile is talk: the engine is not called. A relation that stands this is `Talkative`,
one that is calm besides is `Stirred`, and `State.Stir` is the one that says nothing else has
happened.

## What callers' code may do

A callback gets the data of its slot and leaves data behind, and that is as far as it reaches: it
can neither take itself out of its slot nor change another wrapper's. `Harmless` says this of a
delivery, for each kind. A transfer is a list of deliveries through trampolines, so what holds of a
delivery holds of a transfer by an induction on its steps, and nothing has to be assumed of what the
callbacks answer.
-/

namespace NativeTransfer

open State

/-! ## Talk -/

/-- The report on a handle that could not be given back to the engine. -/
def LogRecord.unreleased : String := "easy cleanup failed"

/-- Whether an event is no call of the engine, and no report on a handle that it did not get back
either. -/
def Event.isTalk : Event → Bool
  | .native _ _ => false
  | .log r => r.message ≠ LogRecord.unreleased
  | _ => true

theorem Event.isQuiet_of_isTalk {v : Event} (hv : v.isTalk = true) : v.isQuiet = true := by
  cases v with
  | native => cases hv
  | unreached | log | note | skipped | returned | filled => rfl

/-! ## Deliveries -/

namespace Slots

/-- A delivery that leaves callbacks where they are, and of which nothing but talk is heard. -/
def Harmless {α : Type} (s : Slots) (d : Delivery α) : Prop :=
  d.slots.isInstalled = s.isInstalled ∧ ∀ e ∈ d.events, e.isTalk = true

variable (s : Slots)

theorem isTalk_of_mem_notes {notes : List Note} :
    ∀ e ∈ notes.map Event.note, e.isTalk = true := by
  intro e he
  obtain ⟨n, -, rfl⟩ := List.mem_map.1 he
  rfl

theorem deliverChunk_spec (slot : Slot WriteCallback) (k : CallbackKind) (chunk : Bytes) :
    (slot.deliverChunk k chunk).2.1.callback.isSome = slot.callback.isSome ∧
      ∀ e ∈ (slot.deliverChunk k chunk).2.2, e.isTalk = true := by
  rw [Slot.deliverChunk]
  cases hc : slot.callback with
  | none =>
    refine ⟨by rw [hc], fun e he ↦ ?_⟩
    rw [List.mem_singleton.1 he]
    rfl
  | some f => exact ⟨rfl, isTalk_of_mem_notes⟩

theorem harmless_deliverWrite (chunk : Bytes) : s.Harmless (s.deliverWrite chunk) := by
  have h := deliverChunk_spec s.write .write chunk
  rw [deliverWrite]
  generalize s.write.deliverChunk .write chunk = d at h ⊢
  obtain ⟨hs, he⟩ := h
  refine ⟨?_, he⟩
  funext k
  cases k with
  | write => exact hs
  | read | header | progress => rfl

theorem harmless_deliverHeader (chunk : Bytes) : s.Harmless (s.deliverHeader chunk) := by
  have h := deliverChunk_spec s.header .header chunk
  rw [deliverHeader]
  generalize s.header.deliverChunk .header chunk = d at h ⊢
  obtain ⟨hs, he⟩ := h
  refine ⟨?_, he⟩
  funext k
  cases k with
  | header => exact hs
  | read | write | progress => rfl

theorem harmless_deliverRead (buffer : Bytes) : s.Harmless (s.deliverRead buffer) := by
  have hlog {r : LogRecord} (hr : (Event.log r).isTalk = true) :
      ∀ e ∈ [Event.log r], e.isTalk = true := by
    intro e he
    rw [List.mem_singleton.1 he]
    exact hr
  rw [deliverRead]
  cases hc : s.read.callback with
  | none => exact ⟨rfl, hlog rfl⟩
  | some f =>
    have hslots (f : ReadCallback) (d : UserData) :
        ({ s with read := ⟨some f, d⟩ } : Slots).isInstalled = s.isInstalled := by
      funext k
      cases k with
      | read => rw [isInstalled, isInstalled, hc]; rfl
      | write | header | progress => rfl
    dsimp only
    split
    · exact ⟨rfl, fun _ he ↦ absurd he List.not_mem_nil⟩
    · split
      · exact ⟨hslots _ _, isTalk_of_mem_notes⟩
      · split
        · exact ⟨hslots _ _, isTalk_of_mem_notes⟩
        · refine ⟨hslots _ _, fun e he ↦ ?_⟩
          rcases List.mem_append.1 he with he | he
          · exact isTalk_of_mem_notes e he
          · exact hlog rfl e he

theorem harmless_deliverProgress (p : Progress) : s.Harmless (s.deliverProgress p) := by
  rw [deliverProgress]
  cases hc : s.progress.callback with
  | none => exact ⟨rfl, fun _ he ↦ absurd he List.not_mem_nil⟩
  | some f =>
    refine ⟨?_, isTalk_of_mem_notes⟩
    funext k
    cases k with
    | progress => rw [isInstalled, isInstalled, hc]; rfl
    | read | write | header => rfl

end Slots

/-! ## Stirring -/

/-- Nothing of consequence has happened but to what the slots hold, and callbacks are where they
were. -/
structure State.Stir (s t : State) : Prop where
  drift : Drift [] { s with wrappers := t.wrappers } t
  ids : t.ids = s.ids
  wrapper : ∀ j, ∃ x : Slots, x.isInstalled = (s.wrapper j).slots.isInstalled ∧
    t.wrapper j = { s.wrapper j with slots := x }

namespace State.Stir

variable {s t u : State}

theorem of_drift (h : Drift [] s t) : Stir s t where
  drift :=
    { h with wrappers := rfl }
  ids := h.ids
  wrapper j := ⟨(s.wrapper j).slots, rfl, h.wrapper j⟩

theorem trans (h : Stir s t) (h' : Stir t u) : Stir s u where
  drift :=
    { h'.drift with
      handles := h'.drift.handles.trans h.drift.handles
      lists := fun n hn l hl ↦ h'.drift.lists n hn l (h.drift.lists n hn l hl)
      registry := h'.drift.registry.trans h.drift.registry
      opened := h'.drift.opened.trans h.drift.opened
      policy := h'.drift.policy.trans h.drift.policy
      strays := h'.drift.strays.trans h.drift.strays
      serials := Nat.le_trans h.drift.serials h'.drift.serials
      settling := h'.drift.settling.trans h.drift.settling }
  ids := h'.ids.trans h.ids
  wrapper j := by
    obtain ⟨x, hx, hwx⟩ := h.wrapper j
    obtain ⟨y, hy, hwy⟩ := h'.wrapper j
    rw [hwx] at hy hwy
    exact ⟨y, hy.trans hx, hwy⟩

end State.Stir

/-- A relation of states that stands talk, and stands it if the callbacks of a wrapper that is
served leave other data behind. -/
structure Talkative (R : State → State → Prop) : Prop where
  refl : ∀ s, R s s
  trans : ∀ s t u, R s t → R t u → R s u
  event : ∀ s v, v.isTalk = true → R s { s with trace := s.trace ++ [v] }
  slots : ∀ s id a (x : Slots), s.served a = some id →
    x.isInstalled = (s.wrapper id).slots.isInstalled → R s (s.withSlots id fun _ ↦ x)

/-- A calm relation that stands it if the callbacks of a wrapper that is served leave other data
behind. -/
structure Stirred (R : State → State → Prop) : Prop extends Calm R where
  slots : ∀ s id a (x : Slots), s.served a = some id →
    x.isInstalled = (s.wrapper id).slots.isInstalled → R s (s.withSlots id fun _ ↦ x)

theorem Stirred.talkative {R : State → State → Prop} (hR : Stirred R) : Talkative R where
  refl := hR.refl
  trans := hR.trans
  event s v hv := hR.event s v (Event.isQuiet_of_isTalk hv)
  slots := hR.slots

theorem stirred_stir : Stirred Stir where
  refl s := .of_drift (Drift.refl s)
  trans _ _ _ := Stir.trans
  engine s e hh hl := .of_drift (calm_drift.engine s e hh hl)
  event s v hv := .of_drift (calm_drift.event s v hv)
  settled s host settled := .of_drift (calm_drift.settled s host settled)
  slots s id _ x _ hx := by
    refine ⟨⟨rfl, fun _ _ _ h ↦ h, rfl, rfl, rfl, rfl, rfl, Nat.le_refl _, rfl⟩, ?_, fun j ↦ ?_⟩
    · exact ids_modifyWrapper s id fun w ↦ { w with slots := x }
    · have hw := wrapper_modifyWrapper_eq s id j fun w ↦ { w with slots := x }
      by_cases hj : j = id ∧ s.isAlive id = true
      · rw [if_pos hj] at hw
        obtain ⟨rfl, -⟩ := hj
        exact ⟨_, hx, hw⟩
      · rw [if_neg hj] at hw
        exact ⟨_, rfl, hw⟩

namespace Talkative

variable {R : State → State → Prop} (hR : Talkative R) {s t : State}

include hR

theorem events {vs : List Event} (hvs : ∀ v ∈ vs, v.isTalk = true) (s : State) :
    R s { s with trace := s.trace ++ vs } := events_of hR.refl hR.trans hR.event hvs s

/-! ## Trampolines -/

theorem deliver {α : Type} {id : WrapperId} {a : Address} (ha : s.served a = some id)
    {f : Slots → Delivery α} (hf : ∀ x : Slots, x.Harmless (f x)) :
    Ends (deliver id f) s fun _ t ↦ R s t := by
  obtain ⟨hi, he⟩ := hf (s.wrapper id).slots
  exact hR.trans _ _ _ (hR.slots s id a _ ha hi) (hR.events he _)

theorem guarded {α : Type} (k : CallbackKind) (cautious : α) (o : Outcome α) :
    Ends (guarded k cautious o) s fun _ t ↦ R s t := by
  cases o with
  | done a => exact hR.refl s
  | panicked m => exact hR.event _ _ rfl

theorem answer {α : Type} (h : R s t) {id : WrapperId} {a : Address} (ha : t.served a = some id)
    {f : Slots → Delivery α} (hf : ∀ x : Slots, x.Harmless (f x)) (k : CallbackKind)
    (cautious : α) :
    Ends (NativeTransfer.deliver id f) t fun o u ↦
      Ends (NativeTransfer.guarded k cautious o) u fun _ v ↦ R s v := by
  refine (hR.deliver ha hf).mono fun o u hu ↦ ?_
  refine (hR.guarded k cautious o).mono fun _ v hv ↦ ?_
  exact hR.trans _ _ _ (hR.trans _ _ _ h hu) hv

theorem findServed (a : Address) (k : CallbackKind) :
    Ends (findServed a k) s fun found t ↦ R s t ∧ ∀ id, found = some id → t.served a = some id := by
  rw [NativeTransfer.findServed, ends_bind, ends_get]
  dsimp only
  split
  · next hnone =>
    refine ⟨hR.event _ _ rfl, fun id hid ↦ ?_⟩
    have hid : s.served a = some id := hid
    rw [hid] at hnone
    cases hnone
  · exact ⟨hR.refl s, fun _ hid ↦ hid⟩

theorem onChunk (k : CallbackKind) {f : Slots → Bytes → Delivery Nat}
    (hf : ∀ (x : Slots) (b : Bytes), x.Harmless (f x b)) (context : Address) (buffer : Option Bytes)
    (size count : UInt64) : Ends (onChunk k f context buffer size count) s fun _ t ↦ R s t := by
  rw [NativeTransfer.onChunk]
  cases extent? size count with
  | none => exact hR.refl s
  | some n =>
    dsimp only
    rw [ends_bind]
    refine (hR.findServed context k).mono ?_
    rintro found t ⟨ht, hfound⟩
    cases found with
    | none => exact ht
    | some id =>
      dsimp only
      rw [ends_bind]
      exact hR.answer ht (hfound id rfl) (fun x ↦ hf x _) k _

theorem onRead (context : Address) (buffer : Option Bytes) (size count : UInt64) :
    Ends (onRead context buffer size count) s fun _ t ↦ R s t := by
  rw [NativeTransfer.onRead, ends_bind]
  refine (hR.findServed context .read).mono ?_
  rintro found t ⟨ht, hfound⟩
  cases found with
  | none => exact ht
  | some id =>
    dsimp only
    cases extent? size count with
    | none => exact ht
    | some n =>
      dsimp only
      rw [ends_bind]
      refine (hR.answer ht (hfound id rfl) (fun x ↦ x.harmless_deliverRead _) .read
        (abortCount, bufferOctets buffer n)).mono fun o u hu ↦ ?_
      rw [ends_bind]
      exact hu

theorem onProgress (context : Address) (counters : Progress) :
    Ends (onProgress context counters) s fun _ t ↦ R s t := by
  rw [NativeTransfer.onProgress, ends_bind]
  refine (hR.findServed context .progress).mono ?_
  rintro found t ⟨ht, hfound⟩
  cases found with
  | none => exact ht
  | some id =>
    dsimp only
    rw [ends_bind]
    exact hR.answer ht (hfound id rfl) (fun x ↦ x.harmless_deliverProgress _) .progress _

/-! ## Transfers -/

theorem emitted (h : R s t) {v : Event} (hv : v.isTalk = true) :
    Ends (emit v) t fun _ u ↦ R s u := hR.trans _ _ _ h (hR.event t v hv)

theorem chunk {trampoline : Option Bytes → UInt64 → UInt64 → Act Nat} (b : Bytes)
    (h : Ends (trampoline (some b) 1 (UInt64.ofNat b.length)) s fun _ t ↦ R s t) :
    Ends (Transfer.chunk trampoline b) s fun _ t ↦ R s t := by
  rw [Transfer.chunk, ends_bind]
  refine h.mono fun n t ht ↦ ?_
  rw [ends_bind]
  exact hR.emitted ht rfl

theorem step (l : Settings) (x : TransferStep) :
    Ends (Transfer.step l x) s fun _ t ↦ R s t := by
  rw [Transfer.step]
  split
  · rw [ends_bind]
    exact hR.emitted (hR.refl s) rfl
  · cases x with
    | write b =>
      exact hR.chunk b (hR.onChunk .write (fun x ↦ x.harmless_deliverWrite) _ _ _ _)
    | header b =>
      exact hR.chunk b (hR.onChunk .header (fun x ↦ x.harmless_deliverHeader) _ _ _ _)
    | read capacity =>
      dsimp only
      rw [ends_bind]
      refine (hR.onRead _ _ _ _).mono fun _ t ht ↦ ?_
      exact hR.emitted ht rfl
    | progress counters =>
      dsimp only
      rw [ends_bind]
      refine (hR.onProgress _ _).mono fun _ t ht ↦ ?_
      exact hR.emitted ht rfl

theorem steps (l : Settings) (xs : List TransferStep) :
    Ends (Transfer.steps l xs) s fun _ t ↦ R s t := by
  induction xs generalizing s with
  | nil => exact hR.refl s
  | cons x xs ih =>
    rw [Transfer.steps, ends_bind]
    refine (hR.step l x).mono fun code t ht ↦ ?_
    cases code with
    | some n => exact ht
    | none => exact ih.mono fun _ _ hu ↦ hR.trans _ _ _ ht hu

end Talkative

namespace Stirred

variable {R : State → State → Prop} (hR : Stirred R)

include hR

theorem transfer (api : Api) (h : Nat) : Within R (api.perform h) := by
  have hidle : Api.Idle fun (_ : Policy) e ↦ e.answerPerform h :=
    ⟨fun _ _ ↦ rfl, fun _ _ ↦ rfl, fun _ _ _ ↦ rfl⟩
  intro s
  rw [Api.perform_eq, leads_bind]
  refine (hR.call api .perform hidle s).mono (fun _ t ht ↦ ?_) fun _ _ ht ↦ ht
  rw [leads_bind, leads_lift, Transfer.run, ends_bind, ends_get]
  dsimp only
  split
  · exact ht
  · rw [ends_bind]
    exact (hR.talkative.steps _ _).mono fun _ _ hu ↦ hR.trans _ _ _ ht hu

end Stirred

/-! ## Requests -/

namespace Wrapper

variable {R : State → State → Prop} {s : State} {id : WrapperId}

section

variable (hR : Calm R)

include hR

theorem calm_getApi : Within R (liftM (getApi id)) := fun s ↦ hR.refl s

theorem calm_liveHandle : Within R (liveHandle id) := by
  intro s
  cases hh : (s.wrapper id).handle with
  | none =>
    rw [leads_liveHandle_none hh]
    exact hR.refl s
  | some h =>
    rw [leads_liveHandle hh]
    exact hR.refl s

theorem calm_checkText (x : String) : Within R (checkText x) := by
  rw [checkText]
  split
  · exact hR.throw _
  · exact hR.pure _

theorem calm_checkLength (x : String) : Within R (checkLength x) := by
  rw [checkLength]
  split
  · exact hR.pure _
  · exact hR.throw _

theorem calm_pause (mask : Int32) : Within R (pause id mask) := by
  refine hR.bind (calm_liveHandle hR) fun h ↦ hR.bind (calm_getApi hR) fun api ↦ ?_
  exact hR.bind (hR.pause api h mask) (hR.check api)

theorem calm_send (b : Bytes) : Within R (send id b) := by
  refine hR.bind (calm_liveHandle hR) fun h ↦ hR.bind (calm_getApi hR) fun api ↦ ?_
  exact hR.bind (hR.send api h b) fun _ ↦ hR.bind (hR.check api _) fun _ ↦ hR.pure _

theorem calm_recv (buffer : Bytes) : Ends (recv id buffer) s fun _ t ↦ R s t := by
  rw [recv, ends_bind, ends_run]
  refine (calm_liveHandle hR s).mono (fun h t ht ↦ ?_) fun _ _ ht ↦ ht
  dsimp only
  split
  · exact ht
  · rw [ends_bind, ends_getApi, ends_bind, ends_run]
    refine (hR.leads (hR.recv _ h _) ht).mono (fun r u hu ↦ ?_) fun _ _ hu ↦ hu
    dsimp only
    rw [ends_bind, ends_run]
    exact hR.leads (hR.check _ _) hu

theorem calm_impersonate (target : String) (defaultHeaders : Bool) :
    Within R (impersonate id target defaultHeaders) := by
  refine hR.bind (calm_liveHandle hR) fun h ↦ hR.bind (calm_checkText hR target) fun _ ↦ ?_
  refine hR.bind (calm_getApi hR) fun api ↦ ?_
  exact hR.bind (hR.impersonate api h target defaultHeaders) (hR.check api)

theorem calm_escape (input : String) : Within R (escape id input) := by
  refine hR.bind (calm_liveHandle hR) fun h ↦ ?_
  split
  · exact hR.pure _
  · refine hR.bind (calm_checkLength hR input) fun _ ↦ ?_
    refine hR.bind (calm_getApi hR) fun api ↦ hR.bind (hR.escape api h _) fun given ↦ ?_
    cases given with
    | none => exact hR.throw _
    | some => exact hR.bind (hR.free api _) fun _ ↦ hR.pure _

theorem calm_unescape (input : String) : Within R (unescape id input) := by
  refine hR.bind (calm_liveHandle hR) fun h ↦ ?_
  split
  · exact hR.pure _
  · refine hR.bind (calm_checkLength hR input) fun _ ↦ ?_
    refine hR.bind (calm_getApi hR) fun api ↦ hR.bind (hR.unescape api h _) fun given ↦ ?_
    cases given with
    | none => exact hR.throw _
    | some => exact hR.bind (hR.free api _) fun _ ↦ hR.pure _

theorem calm_getScalar (out : Readout) (h : Nat) (i : InfoCode) :
    Within R (getScalar id out h i) := by
  refine hR.bind (calm_getApi hR) fun api ↦ hR.bind (hR.getinfo api out h i) fun _ ↦ ?_
  exact hR.bind (hR.check api _) fun _ ↦ hR.pure _

end

theorem stir_perform (hR : Stirred R) : Within R (perform id) := by
  refine hR.bind (calm_liveHandle hR.toCalm) fun h ↦ hR.bind (calm_getApi hR.toCalm) fun api ↦ ?_
  exact hR.bind (hR.transfer api h) (hR.check api)

/-- The list that is made for an answer is freed again, and was none of the lists before. -/
theorem drifts_getList (h : Nat) (i : InfoCode) : Within (Drift []) (getList id h i) := by
  intro s
  rw [getList, leads_bind, leads_getApi, leads_bind]
  refine (Api.leads_getList _ h i).mono (fun r t ht ↦ ?_) fun _ _ ht ↦ ht
  obtain ⟨code, list⟩ := r
  obtain ⟨ht, hnew⟩ := ht
  dsimp only
  rw [leads_bind]
  refine (calm_drift.leads (calm_drift.check _ _) ht).mono (fun _ u hu ↦ ?_) fun _ _ hu ↦ hu
  cases list with
  | none => exact hu
  | some n =>
    have hback {v : State} (hv : Drift [n] u v) : Drift [] s v :=
      (hu.trans hv).tighten fun m hm ↦ hnew m (by rw [List.mem_singleton.1 hm])
    dsimp only
    rw [leads_bind, leads_get, leads_bind, leads_observed]
    refine (Api.leads_freeList _ n).mono (fun _ v hv ↦ hback hv) fun e v hv ↦ ?_
    dsimp only
    rw [leads_bind, leads_lift]
    exact (ends_report _ _ _).mono fun _ _ hw ↦ (hu.trans hv).trans hw

/-- All infos but lists are calm. -/
theorem calm_getinfo (hR : Calm R) (i : InfoCode) (hlist : ∀ h, Within R (getList id h i)) :
    Within R (getinfo id i) := by
  refine hR.bind (calm_liveHandle hR) fun h ↦ ?_
  have hscalar {out : Readout} {f : Option InfoReply → Attempt InfoValue}
      (hf : ∀ r, ∃ x, f r = pure x) : Within R (getScalar id out h i >>= f) := by
    refine hR.bind (calm_getScalar hR out h i) fun r ↦ ?_
    obtain ⟨x, hx⟩ := hf r
    rw [hx]
    exact hR.pure x
  cases i.infoClass with
  | string => exact hscalar fun r ↦ by split <;> exact ⟨_, rfl⟩
  | long => exact hscalar fun r ↦ by split <;> exact ⟨_, rfl⟩
  | double => exact hscalar fun r ↦ by split <;> exact ⟨_, rfl⟩
  | offset => exact hscalar fun r ↦ by split <;> exact ⟨_, rfl⟩
  | list =>
    dsimp only
    split
    · exact hR.throw _
    · exact hlist h
  | _ => exact hR.throw _

end Wrapper

end NativeTransfer
