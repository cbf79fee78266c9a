import NativeTransfer.Proofs.Dispatch

/-!
# Operations that need the handle

An operation on a wrapper begins by looking for the wrapper's handle. If there is none the operation
fails on the spot, and nothing has happened. If there is one, the operation makes use of it, by the
way to the engine that the wrapper has, and of no other, and it neither gives a handle out nor hands
one back. Only the making of a duplicate does, which looks for the handle all the same.

## What every operation has in common

All operations begin with the same search, and what follows is a program that heeds the handle. So
an operation without a handle is settled once for all operations, and one with a handle is settled
by taking its program apart. An operation for which nothing has to be done, such as to escape the
empty text, looks for the handle all the same, and fails without one.

Nothing that is heard meanwhile is a report on a handle. That is of use where the reports on handles
that were handed back in vain are counted.
-/

namespace NativeTransfer

open State

namespace Step

/-- The wrapper whose handle is needed. -/
def needs? : Step → Option WrapperId
  | duplicate id => some id
  | setopt id _ _ => some id
  | perform id => some id
  | pause id _ => some id
  | getinfo id _ => some id
  | send id _ => some id
  | recv id _ => some id
  | escape id _ => some id
  | unescape id _ => some id
  | impersonate id _ _ => some id
  | reset id => some id
  | create _ => none
  | release _ _ => none
  | cleanup _ => none
  | drop _ => none

end Step

namespace Wrapper

variable {α β : Type} {s : State} {r : Route} {id : WrapperId} {h : Nat}

/-! ## Without a handle -/

theorem leads_unserved (hh : (s.wrapper id).handle = none) {f : Nat → Attempt α} :
    Leads (liveHandle id >>= f) s (fun _ _ ↦ False) fun e t ↦ e = .noHandle ∧ t = s := by
  rw [leads_bind, leads_liveHandle_none hh]
  exact ⟨rfl, rfl⟩

/-! ## With a handle -/

/-- All that is done is to make use of the wrapper's handle. -/
def Tends (id : WrapperId) (x : Attempt α) : Prop :=
  ∀ s h, (s.wrapper id).handle = some h →
    Leads x s (fun _ t ↦ Minds (Event.About (s.wrapper id).api.route h) s t)
      fun _ t ↦ Minds (Event.About (s.wrapper id).api.route h) s t

theorem tends_of_heeds {f : Nat → Attempt α} (hf : ∀ r h, Heeds r id h (f h)) :
    Tends id (liveHandle id >>= f) := by
  intro s h hh
  rw [leads_bind, leads_liveHandle hh]
  exact (hf _ h s rfl).mono (fun _ _ ht ↦ ht.1) fun _ _ ht ↦ ht.1

theorem Tends.told {x : Attempt α} (hx : Tends id x) (b : β) :
    Tends id (x >>= fun _ ↦ pure b) := by
  intro s h hh
  rw [leads_bind]
  exact (hx s h hh).mono (fun _ _ ht ↦ ht) fun _ _ ht ↦ ht

theorem Tends.discard {x : Attempt α} (hx : Tends id x) : Tends id (discard x) := fun s h hh ↦
  leads_discard.2 (hx s h hh)

theorem heeds_free (api : Api) (a : Address) : Heeds r id h (api.free a) := by
  rw [Api.free_eq]
  refine (api.incidental_call .free fun _ e ↦ ?_).heeds
  cases a <;> exact ⟨rfl, rfl⟩

section

variable (api : Api) (hr : api.route = r)

include hr

theorem heeds_checked {m : Method} {answer : Policy → Engine → Answered Int32}
    {x : Attempt ResultCode} (hx : x = ResultCode.ofSigned <$> api.call m answer)
    (hc : ∀ p e, (answer p e).call.used? = some h)
    (hs : ∀ p e, (Event.native r (answer p e).call).set? = none) :
    Heeds r id h (x >>= api.check) := by
  rw [hx]
  exact ((api.heeds_call hr m hc hs).map _).bind fun code ↦ (api.incidental_check code).heeds

theorem heeds_answered {m : Method} {answer : Policy → Engine → Answered α}
    {f : α → ResultCode × β} {x : Attempt (ResultCode × β)} (hx : x = f <$> api.call m answer)
    (hc : ∀ p e, (answer p e).call.used? = some h)
    (hs : ∀ p e, (Event.native r (answer p e).call).set? = none) :
    Heeds r id h (do
      let a ← x
      api.check a.1
      return a.2) := by
  rw [hx]
  exact ((api.heeds_call hr m hc hs).map f).bind fun a ↦
    (api.incidental_check a.1).heeds.bind fun _ ↦ heeds_pure _

theorem heeds_transfer : Heeds r id h (api.perform h) := by
  rw [Api.perform_eq]
  refine (api.heeds_call hr .perform (fun _ _ ↦ rfl) fun _ _ ↦ rfl).bind fun _ ↦ ?_
  have hrun : Minor (Transfer.run h) := by
    intro s
    rw [Transfer.run, ends_bind, ends_get]
    dsimp only
    split
    · exact Minds.refl s
    · -- What the callbacks do is done on this side.
      rw [ends_bind]
      exact Minds.talkative.steps _ _
  exact hrun.incidental.heeds.bind fun _ ↦ heeds_pure _

end

theorem tends_perform : Tends id (perform id) :=
  tends_of_heeds fun _ _ ↦ heeds_getApi fun api hr ↦
    (heeds_transfer api hr).bind fun code ↦ (api.incidental_check code).heeds

theorem tends_pause (mask : Int32) : Tends id (pause id mask) :=
  tends_of_heeds fun _ h ↦ heeds_getApi fun api hr ↦
    heeds_checked api hr (api.pause_eq h mask) (fun _ _ ↦ rfl) fun _ _ ↦ rfl

theorem tends_send (b : Bytes) : Tends id (send id b) :=
  tends_of_heeds fun _ h ↦ heeds_getApi fun api hr ↦
    heeds_answered api hr (api.send_eq h b) (fun _ _ ↦ rfl) fun _ _ ↦ rfl

theorem tends_impersonate (target : String) (defaultHeaders : Bool) :
    Tends id (impersonate id target defaultHeaders) :=
  tends_of_heeds fun _ h ↦ (incidental_checkText target).heeds.bind fun _ ↦
    heeds_getApi fun api hr ↦
      heeds_checked api hr (api.impersonate_eq h target defaultHeaders) (fun _ _ ↦ rfl)
        fun _ _ ↦ rfl

/-- A text is given to the engine, unless it is empty, and what comes back is freed. -/
theorem heeds_converted (input : String) {m : Method} {answer : Policy → Engine → Answered α}
    {x : Api → Attempt α} (hx : ∀ api, x api = api.call m answer)
    {c : NativeCall} (hcall : ∀ p e, (answer p e).call = c) (hc : c.used? = some h)
    (hs : (Event.native r c).set? = none) {b : β} {f : Api → α → Attempt β}
    (hf : ∀ api a, Heeds r id h (f api a)) :
    Heeds r id h (if input = "" then pure b else do
      checkLength input
      let api ← getApi id
      f api (← x api)) := by
  split
  · exact heeds_pure b
  · refine (incidental_checkLength input).heeds.bind fun _ ↦ heeds_getApi fun api hr ↦ ?_
    rw [hx]
    refine (api.heeds_call hr m (fun p e ↦ ?_) fun p e ↦ ?_).bind (hf api)
    · rw [hcall]
      exact hc
    · rw [hcall]
      exact hs

theorem tends_escape (input : String) : Tends id (escape id input) := by
  refine tends_of_heeds fun r h ↦ ?_
  have hcall (p : Policy) (e : Engine) :
      (e.answerEscape p h (Text.utf8 input)).call = .escape h (Text.utf8 input) := by
    rw [Engine.answerEscape]
    split <;> rfl
  refine heeds_converted input (Api.escape_eq · h _) hcall rfl rfl fun api given ↦ ?_
  cases given with
  | none => exact heeds_throw rfl
  | some => exact (heeds_free api _).bind fun _ ↦ heeds_pure _

theorem tends_unescape (input : String) : Tends id (unescape id input) := by
  refine tends_of_heeds fun r h ↦ ?_
  have hcall (p : Policy) (e : Engine) :
      (e.answerUnescape p h (Text.utf8 input)).call = .unescape h (Text.utf8 input) := by
    rw [Engine.answerUnescape]
    split <;> rfl
  refine heeds_converted input (Api.unescape_eq · h _) hcall rfl rfl fun api given ↦ ?_
  cases given with
  | none => exact heeds_throw rfl
  | some => exact (heeds_free api _).bind fun _ ↦ heeds_pure _

theorem heeds_getScalar (out : Readout) (i : InfoCode) : Heeds r id h (getScalar id out h i) :=
  heeds_getApi fun api hr ↦
    heeds_answered api hr (api.getinfo_eq out h i) (fun _ _ ↦ rfl) fun _ _ ↦ rfl

/-- The list that is made for an answer is freed again, which is of no concern to any handle. -/
theorem heeds_getList (i : InfoCode) : Heeds r id h (getList id h i) := by
  refine heeds_getApi fun api hr ↦ ?_
  have hcall : Heeds r id h (api.getList h i) := by
    rw [Api.getList_eq]
    refine Heeds.map (api.heeds_call hr .getList (fun p e ↦ ?_) fun p e ↦ ?_) _
    all_goals
      simp only [Engine.answerListInfo]
      split <;> rfl
  refine hcall.bind fun reply ↦ (api.incidental_check reply.1).heeds.bind fun _ ↦ ?_
  obtain ⟨code, list⟩ := reply
  cases list with
  | none => exact heeds_pure _
  | some n =>
    intro s hs
    rw [leads_bind, leads_get]
    have hfree : Incidental (api.freeList n) fun _ ↦ True := by
      rw [Api.freeList_eq]
      exact api.incidental_call .listFree fun _ _ ↦ ⟨rfl, rfl⟩
    refine Heeds.bind (hfree.observed.heeds) (fun freed ↦ ?_) s hs
    cases freed with
    | ok => exact heeds_pure _
    | error => exact (minor_report _ _ (by decide)).incidental.heeds.bind fun _ ↦ heeds_pure _

theorem tends_getinfo (i : InfoCode) : Tends id (getinfo id i) := by
  refine tends_of_heeds fun r h ↦ ?_
  have hscalar {out : Readout} {f : Option InfoReply → Attempt InfoValue}
      (hf : ∀ a, ∃ x, f a = pure x) : Heeds r id h (getScalar id out h i >>= f) := by
    refine (heeds_getScalar out i).bind fun a ↦ ?_
    obtain ⟨x, hx⟩ := hf a
    rw [hx]
    exact heeds_pure x
  cases i.infoClass with
  | string => exact hscalar fun a ↦ by split <;> exact ⟨_, rfl⟩
  | long => exact hscalar fun a ↦ by split <;> exact ⟨_, rfl⟩
  | double => exact hscalar fun a ↦ by split <;> exact ⟨_, rfl⟩
  | offset => exact hscalar fun a ↦ by split <;> exact ⟨_, rfl⟩
  | list =>
    dsimp only
    split
    · exact heeds_throw rfl
    · exact heeds_getList i
  | _ => exact heeds_throw rfl

theorem tends_setopt (o : OptionCode) (v : Value) : Tends id (setopt id o v) := fun _ _ hh ↦
  (leads_setopt_dispatched hh rfl o v).mono (fun _ _ hd ↦ hd.minds) fun _ _ hd ↦ hd.minds

theorem tends_reset : Tends id (reset id) := by
  refine tends_of_heeds fun _ h ↦ heeds_getApi fun api hr ↦ ?_
  rw [Api.reset_eq]
  refine (api.heeds_call hr .reset (fun _ _ ↦ rfl) fun _ _ ↦ rfl).bind fun _ ↦ ?_
  refine (heeds_modifySlots _).bind fun _ ↦ ?_
  refine (minor_releaseSince 0).incidental.heeds.bind fun _ ↦ ?_
  exact (minor_report _ _ (by decide)).incidental.heeds

/-- What a duplicate is taken off is set on the duplicate itself. -/
theorem heeds_detach (k : CallbackKind) : Heeds r id h (detach id h k) := by
  refine heeds_getApi fun api hr ↦ ?_
  have hset {m : Method} {o : OptionCode} {x : Argument} :
      Heeds r id h (ResultCode.ofSigned <$> api.call m (fun p e ↦ e.answerSetopt p m h o x) >>=
        api.check) := (asks_setCall api hr m x).heeds
  have hlong : Heeds r id h (if k = .progress then api.setLong h .noProgress 1 >>= api.check
      else pure ()) := by
    split
    · rw [Api.setLong_eq]
      exact hset
    · exact heeds_pure _
  have hfunction : Heeds r id h (api.setFunction h k.functionOption .null >>= api.check) := by
    rw [Api.setFunction_eq]
    exact hset
  have hdata : Heeds r id h (api.setPointer h k.dataOption .null >>= api.check) := by
    rw [Api.setPointer_eq]
    exact hset
  have hall : Heeds r id h (do
      api.setFunction h k.functionOption .null >>= api.check
      api.setPointer h k.dataOption .null >>= api.check
      if k = .progress then api.setLong h .noProgress 1 >>= api.check else pure ()) :=
    hfunction.bind fun _ ↦ hdata.bind fun _ ↦ hlong
  simp only [bind_assoc] at hall
  exact hall

theorem heeds_detachAll (ks : List CallbackKind) : Heeds r id h (detachAll id h ks) := by
  induction ks with
  | nil => exact heeds_pure _
  | cons k ks ih => exact (heeds_detach k).bind fun _ ↦ ih

/-- Octets are received without an attempt's failing, so the two ends are looked at one by one. -/
theorem ends_recv (hh : (s.wrapper id).handle = some h) (buffer : Bytes) :
    Ends (recv id buffer) s fun _ t ↦ Minds (Event.About (s.wrapper id).api.route h) s t := by
  rw [recv, ends_bind, ends_run, leads_liveHandle hh]
  dsimp only
  split
  · exact Minds.refl s
  · rw [ends_bind, ends_getApi, ends_bind, ends_run]
    have hcall : Heeds (s.wrapper id).api.route id h ((s.wrapper id).api.recv h buffer.length) := by
      rw [Api.recv_eq]
      exact ((s.wrapper id).api.heeds_call rfl .recv (fun _ _ ↦ rfl) fun _ _ ↦ rfl).map _
    refine (hcall s rfl).mono ?_ fun _ _ ht ↦ ht.1
    rintro ⟨code, bytes, n⟩ t ⟨ht, -⟩
    dsimp only
    rw [ends_bind, ends_run]
    refine (((s.wrapper id).api.incidental_check code) t).mono (fun _ _ hu ↦ ?_) fun _ _ hu ↦ ?_
    · exact ht.trans (hu.1.mono fun _ ↦ .aside)
    · exact ht.trans (hu.1.mono fun _ ↦ .aside)

end Wrapper

/-! ## The certificate bundle -/

namespace CaBundle

theorem message_ne_of_materialize (fs : FileSystem) (cwd : Place) (pem : Bytes) (dir : Path) :
    ∀ r ∈ (materialize fs cwd pem dir).log, r.message ≠ LogRecord.unreleased := by
  have hwritten : "CA bundle written" ≠ LogRecord.unreleased := by decide
  simp only [materialize]
  split
  · exact List.forall_mem_nil _
  · split
    · exact List.forall_mem_nil _
    · split
      · exact List.forall_mem_nil _
      · exact List.forall_mem_singleton.2 hwritten

theorem message_ne_of_resolveText (x : Host) (c : TlsConfig) :
    ∀ r ∈ (resolveText x c).log, r.message ≠ LogRecord.unreleased := by
  have hempty : "configured CA bundle PEM is empty; CAINFO not set" ≠ LogRecord.unreleased := by
    decide
  have hfailed : "failed to write CA bundle" ≠ LogRecord.unreleased := by decide
  rw [resolveText]
  split
  · exact List.forall_mem_nil _
  · next pem _ =>
    split
    · exact List.forall_mem_singleton.2 hempty
    · have hlog := message_ne_of_materialize x.files x.cwd (Text.utf8 pem)
        (c.cacheDir.getD x.temporary)
      dsimp only
      split
      · next hm =>
        rw [hm] at hlog
        exact hlog
      · next hm =>
        rw [hm] at hlog
        exact List.forall_mem_append.2 ⟨hlog, List.forall_mem_singleton.2 hfailed⟩

/-- Nothing that comes of looking for a bundle is a report on a handle. -/
theorem message_ne_of_resolve (x : Host) (c : TlsConfig) :
    ∀ r ∈ (resolve x c).log, r.message ≠ LogRecord.unreleased := by
  have hmissing : "configured CA bundle does not exist" ≠ LogRecord.unreleased := by decide
  have htext := message_ne_of_resolveText x c
  rw [resolve]
  split
  · exact htext
  · split
    · exact List.forall_mem_nil _
    · exact List.forall_mem_cons.2 ⟨hmissing, htext⟩

end CaBundle

theorem minor_activeConfig : Minor Global.activeConfig := by
  intro s
  rw [Global.activeConfig, ends_bind, ends_get]
  split
  · exact Minds.refl s
  · dsimp only
    split
    · exact Minds.of_same rfl rfl rfl
    · rw [ends_bind]
      refine (minor_report _ _ (by decide) s).mono fun _ t ht ↦ ?_
      exact ht.trans (Minds.of_same rfl rfl rfl)

theorem minor_activeBundle : Minor Global.activeBundle := by
  intro s
  rw [Global.activeBundle, ends_bind, ends_get]
  split
  · exact Minds.refl s
  · rw [ends_bind]
    refine (minor_activeConfig s).mono fun c t ht ↦ ?_
    have hlog : ∀ v ∈ (CaBundle.resolve t.host c.tls).log.map Event.log, v.isAside = true := by
      intro v hv
      obtain ⟨r, hr, rfl⟩ := List.mem_map.1 hv
      exact decide_eq_true (CaBundle.message_ne_of_resolve _ _ r hr)
    exact ht.trans (Minds.of_trace rfl (fun _ ↦ rfl) (fun _ ↦ rfl) rfl hlog)

namespace Wrapper

/-- The certificate bundle is an option like any other. -/
theorem minds_applyBundle {s : State} {id : WrapperId} {h : Nat}
    (hh : (s.wrapper id).handle = some h) :
    Ends (applyBundle id) s fun _ t ↦ Minds (Event.About (s.wrapper id).api.route h) s t := by
  rw [applyBundle, ends_bind]
  refine (minor_activeBundle s).mono fun bundle t ht ↦ ?_
  cases bundle with
  | none => exact ht.mono fun _ ↦ .aside
  | some path =>
    have hback {u : State} (hu : Minds (Event.About (t.wrapper id).api.route h) t u) :
        Minds (Event.About (s.wrapper id).api.route h) s u := by
      rw [ht.api] at hu
      exact (ht.mono fun _ ↦ .aside).trans hu
    dsimp only
    rw [ends_bind, ends_run]
    refine (tends_setopt .caInfo (.text path) t h ((ht.handle id).trans hh)).mono
      (fun _ u hu ↦ hback hu) fun e u hu ↦ ?_
    refine (minor_report _ _ (by decide) u).mono fun _ v hv ↦ ?_
    exact (hback hu).trans (hv.mono fun _ ↦ .aside)

end Wrapper

/-! ## Any operation -/

namespace Step

open Wrapper

variable {x : Step} {s : State} {id : WrapperId} {h : Nat}

/-- An operation that needs a handle that is not there does nothing. -/
theorem pass_of_none (hx : x.needs? = some id) (hh : (s.wrapper id).handle = none) :
    x.pass s = ⟨x, s, .error .noHandle, s⟩ := by
  have hleads : Leads x.run s (fun _ _ ↦ False) fun e t ↦ e = .noHandle ∧ t = s := by
    cases x with
    | create | release | cleanup | drop => cases hx
    | duplicate =>
      obtain rfl := Option.some.inj hx
      exact leads_unserved hh
    | setopt | perform | pause | impersonate | reset =>
      obtain rfl := Option.some.inj hx
      rw [run, leads_bind]
      exact (leads_unserved hh).mono (fun _ _ ht ↦ ht.elim) fun _ _ ht ↦ ht
    | getinfo | send | escape | unescape =>
      obtain rfl := Option.some.inj hx
      rw [run, leads_bind, leads_discard]
      exact (leads_unserved hh).mono (fun _ _ ht ↦ ht.elim) fun _ _ ht ↦ ht
    | recv _ buffer =>
      obtain rfl := Option.some.inj hx
      rw [run, leads_bind, leads_lift, Wrapper.recv, ends_bind, ends_run, leads_liveHandle_none hh]
      exact ⟨rfl, rfl⟩
  obtain ⟨hresult, hafter⟩ : (x.pass s).result = .error .noHandle ∧ (x.pass s).after = s :=
    Step.pass_of_leads (P := fun r t ↦ r = .error .noHandle ∧ t = s)
      (hleads.mono (fun _ _ ht ↦ ht.elim) fun _ _ ht ↦ ⟨congrArg _ ht.1, ht.2⟩)
  have heta : x.pass s = ⟨x, s, (x.pass s).result, (x.pass s).after⟩ := rfl
  rw [heta, hresult, hafter]

/-- Any other operation than to duplicate is done with the wrapper's own handle alone. -/
theorem minds_of_pass (hx : x.needs? = some id) (hmakes : x.makes = false)
    (hh : (s.wrapper id).handle = some h) :
    Minds (Event.About (s.wrapper id).api.route h) s (x.pass s).after := by
  have htends (hrun : Tends id x.run) :
      Minds (Event.About (s.wrapper id).api.route h) s (x.pass s).after :=
    Step.pass_of_leads (P := fun _ t ↦ Minds (Event.About (s.wrapper id).api.route h) s t)
      (hrun s h hh)
  cases x with
  | create | release | cleanup | drop => cases hx
  | duplicate => cases hmakes
  | setopt _ o v =>
    obtain rfl := Option.some.inj hx
    exact htends ((tends_setopt o v).told _)
  | perform =>
    obtain rfl := Option.some.inj hx
    exact htends (tends_perform.told _)
  | pause _ mask =>
    obtain rfl := Option.some.inj hx
    exact htends ((tends_pause mask).told _)
  | getinfo _ i =>
    obtain rfl := Option.some.inj hx
    exact htends ((tends_getinfo i).discard.told _)
  | send _ b =>
    obtain rfl := Option.some.inj hx
    exact htends ((tends_send b).discard.told _)
  | recv _ buffer =>
    obtain rfl := Option.some.inj hx
    refine Step.pass_of_leads (P := fun _ t ↦ Minds _ s t) ?_
    rw [run, leads_bind, leads_lift]
    refine (ends_recv hh buffer).mono fun received t ht ↦ ?_
    split
    · exact ht
    · exact ht
  | escape _ input =>
    obtain rfl := Option.some.inj hx
    exact htends ((tends_escape input).discard.told _)
  | unescape _ input =>
    obtain rfl := Option.some.inj hx
    exact htends ((tends_unescape input).discard.told _)
  | impersonate _ target defaultHeaders =>
    obtain rfl := Option.some.inj hx
    exact htends ((tends_impersonate target defaultHeaders).told _)
  | reset =>
    obtain rfl := Option.some.inj hx
    exact htends (tends_reset.told _)

end Step

end NativeTransfer
