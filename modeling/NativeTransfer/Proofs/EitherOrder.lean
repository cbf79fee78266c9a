import NativeTransfer.Proofs.Acceptance
import NativeTransfer.Script.Caller

/-!
# A callback and its data in either order

A caller gives a callback its data before or after the callback itself. The two orders take
different arms: data that comes second is handed to a callback that is there, while data that comes
first waits in its slot, or brings a callback along that serves it and is replaced afterwards.
Whatever the engine holds of a wiring to begin with, both orders end alike. For the slots that is
because a callback replaces a callback and data replaces data. For the engine it is because the
whole wiring is stored in both: data that comes second stores a part of it again, and what data that
comes first stores is under the same options, and is overwritten.

## What has to be shown

Engines that agree make every call succeed, so a setting is one list of arguments stored and one
change to the slots (`Agreed`). For two settings in a row both are put together: the slots of the
one order are those of the other, and every option of the engine has the same argument in the end.
The first is about functions on slots. The second is about lists: what comes last under an option
counts, and in both orders the last list that has anything under the option of a wiring is a part of
that wiring with the arguments that the whole has.

Nothing is assumed of what the engine held to begin with, so a wiring that an earlier failure has
left in half is a case like any other.
-/

namespace NativeTransfer

open State Wrapper

/-! ## Engines that agree -/

/-- From now on the engine accepts every option of a handle, and the way that a wrapper has to it
lets every option through. -/
structure State.Agrees (s : State) (id : WrapperId) (h : Nat) : Prop where
  offered : ∀ o x, (s.wrapper id).api.refusal? (Method.storing o x) = none
  reached : (s.wrapper id).api.isInProcess = true → ∀ e : Engine, s.engine.calls ≤ e.calls →
    ∀ o x, s.policy.unreachable e (Method.storing o x) = false
  /-- Every call is counted before it is answered. -/
  accepted : ∀ e : Engine, s.engine.calls < e.calls → ∀ o x, s.policy.verdict e h o x = 0

variable {s t : State} {id : WrapperId} {h : Nat} {k : CallbackKind} {v : Value}

theorem State.Agrees.later (hs : s.Agrees id h) (hapi : (t.wrapper id).api = (s.wrapper id).api)
    (hpolicy : t.policy = s.policy) (hcalls : s.engine.calls ≤ t.engine.calls) :
    t.Agrees id h where
  offered := by
    rw [hapi]
    exact hs.offered
  reached hin e he := by
    rw [hapi] at hin
    rw [hpolicy]
    exact hs.reached hin e (hcalls.trans he)
  accepted e he := by
    rw [hpolicy]
    exact hs.accepted e (hcalls.trans_lt he)

namespace Wrapper

/-- Where the engine agrees to all that it is told, the program succeeds, and the engine goes on to
agree. -/
def Agreed (id : WrapperId) (h : Nat) (x : Attempt Unit) : Prop :=
  ∀ s : State, s.Agrees id h → Leads x s (fun _ t ↦ t.Agrees id h) fun _ _ ↦ False

section

variable {x y : Attempt Unit}

theorem Agreed.nil : Agreed id h (pure ()) := fun _ hs ↦ hs

theorem Agreed.append (hx : Agreed id h x) (hy : Agreed id h y) :
    Agreed id h (x >>= fun _ ↦ y) := by
  intro s hs
  rw [leads_bind]
  exact (hx s hs).mono (fun _ t ht ↦ hy t ht) fun _ _ ht ↦ ht

theorem Agreed.orUndo (hx : Agreed id h x) (undo : Act Unit) : Agreed id h (orUndo x undo) := by
  intro s hs
  rw [leads_orUndo]
  exact (hx s hs).mono (fun _ _ ht ↦ ht) fun _ _ ht ↦ ht.elim

theorem agreed_modifySlots (f : Slots → Slots) :
    Agreed id h (liftM (modifySlots id f)) := by
  intro s hs
  rw [leads_modifySlots]
  exact hs.later (proj_modifyWrapper s id id Wrapper.api fun _ ↦ rfl) rfl (Nat.le_refl _)

theorem agreed_getSlots {f : Slots → Attempt Unit} (hf : ∀ x, Agreed id h (f x)) :
    Agreed id h (do f (← getSlots id)) := by
  intro s hs
  rw [leads_bind, leads_getSlots]
  exact hf _ s hs

end

/-! ### Calls -/

theorem leads_gate_of_agrees {api : Api} (hs : s.Agrees id h) (hapi : (s.wrapper id).api = api)
    (o : OptionCode) (x : Argument) {err : Error → State → Prop} :
    Leads (api.gate (Method.storing o x)) s (fun _ t ↦ t = Api.counted s) err := by
  have hreach : ¬ (api.isInProcess && s.policy.unreachable s.engine (Method.storing o x)) =
      true := by
    rw [Bool.and_eq_true]
    rintro ⟨hin, hun⟩
    rw [hs.reached (hapi ▸ hin) s.engine (Nat.le_refl _)] at hun
    cases hun
  have hoffered := hs.offered o x
  rw [hapi] at hoffered
  simp only [Api.gate, leads_bind, leads_get, leads_set, hoffered]
  rw [if_neg hreach]
  rfl

/-- A native call for an option, checked. -/
theorem agreed_checked {o : OptionCode} {x : Argument} {call : Api → Attempt ResultCode}
    (hcall : ∀ api, call api = ResultCode.ofSigned <$> api.call (Method.storing o x)
      fun p e ↦ e.answerSetopt p (Method.storing o x) h o x) :
    Agreed id h (do
      let api ← getApi id
      api.check (← call api)) := by
  intro s hs
  rw [leads_bind, leads_getApi, hcall, leads_bind, leads_map]
  refine Api.leads_call_of_gate _ (leads_gate_of_agrees hs rfl o x) ?_
  rintro y rfl
  have hzero : s.policy.verdict (Api.counted s).engine h o x = 0 :=
    hs.accepted _ (Nat.lt_succ_self _) o x
  have hanswer : (Api.counted s).engine.answerSetopt s.policy (Method.storing o x) h o x =
      ⟨0, (Api.counted s).engine.modifySettings h (·.put o x),
        .setopt (Method.storing o x) h o x 0⟩ := by
    rw [Engine.answerSetopt, hzero]
    rfl
  have hpolicy : (Api.counted s).policy = s.policy := rfl
  rw [hpolicy, hanswer]
  refine (calm_drift.leads_check _ _).mono ?_ ?_
  · rintro _ _ ⟨-, rfl⟩
    exact hs.later rfl rfl (Nat.le_succ _)
  · rintro _ _ ⟨hbad, -⟩
    cases hbad

theorem agreed_setPointer (o : OptionCode) (a : Address) : Agreed id h (setPointer id h o a) :=
  agreed_checked (x := .pointer a) (Api.setPointer_eq · h o a)

theorem agreed_setFunction (o : OptionCode) (a : Address) : Agreed id h (setFunction id h o a) :=
  agreed_checked (x := .function a) (Api.setFunction_eq · h o a)

/-- Whether progress is reported is a plain integer, so it is never turned down on the way. -/
theorem agreed_setNoProgress (n : Int64) : Agreed id h (setInteger id h .noProgress n) := by
  have hwide : ¬ OptionCode.noProgress.isWide = true := by decide
  have hlong : OptionCode.noProgress.encoding = .long := by decide
  have heq : setInteger id h .noProgress n = (do
      let api ← getApi id
      api.check (← api.setLong h .noProgress n)) := by
    simp only [setInteger_eq, if_neg hwide, if_pos hlong]
  rw [heq]
  refine agreed_checked (o := .noProgress) (x := .integer n) fun api ↦ ?_
  rw [Method.storing, if_neg hwide, api.setLong_eq]

theorem agreed_wire (k : CallbackKind) : Agreed id h (wire id h k) := by
  refine (agreed_setPointer k.dataOption (.handle h)).append ?_
  by_cases hk : k = .progress
  · simp only [if_pos hk]
    exact (agreed_setNoProgress 0).append (agreed_setFunction _ _)
  · simp only [if_neg hk]
    exact Agreed.nil.append (agreed_setFunction _ _)

/-! ### Settings -/

theorem agreed_setCallback {c : Callback} (hc : c.kind = k) :
    Agreed id h (setCallback id h k (.function c)) := by
  rw [setCallback, if_pos hc]
  exact (agreed_wire k).append (agreed_modifySlots _)

theorem agreed_setStream (k : CallbackKind) (d : UserData) : Agreed id h (setStream id h k d) := by
  refine agreed_getSlots fun x ↦ (agreed_modifySlots _).append ?_
  cases x.isInstalled k with
  | true => exact agreed_wire k
  | false =>
    cases Callback.forStream? k with
    | some c => exact (agreed_modifySlots _).append ((agreed_wire k).orUndo _)
    | none => exact Agreed.nil.append ((agreed_wire k).orUndo _)

theorem agreed_setCallbackData {d : UserData} (hv : v.leaves? k = some d) :
    Agreed id h (setCallbackData id h k v) := by
  refine agreed_getSlots fun x ↦ ?_
  generalize x.isInstalled k = installed
  cases v with
  | null =>
    refine (agreed_modifySlots _).append ?_
    cases installed with
    | true => exact Agreed.nil
    | false => exact agreed_setPointer _ _
  | data =>
    refine (agreed_modifySlots _).append ?_
    cases installed with
    | true => exact agreed_setPointer _ _
    | false => exact Agreed.nil
  | sink f =>
    obtain ⟨hk, -⟩ := Option.ite_none_right_eq_some.1 hv
    simp only [if_pos hk]
    exact agreed_setStream k _
  | source f =>
    obtain ⟨hk, -⟩ := Option.ite_none_right_eq_some.1 hv
    simp only [if_pos hk]
    exact agreed_setStream k _
  | long | bool | text | bytes | list | function | pointer => cases hv

/-- A setting that has a plan carries it out, where the engine agrees. -/
theorem leads_setopt_agreed (hn : s.ids.Nodup) (hh : (s.wrapper id).handle = some h)
    (hs : s.Agrees id h) {o : OptionCode} {p : Plan}
    (hp : plan? h (s.wrapper id).slots o v = some p)
    (hf : ∀ k, o = CallbackKind.functionOption k → Agreed id h (setCallback id h k v))
    (hd : ∀ k, o = CallbackKind.dataOption k → Agreed id h (setCallbackData id h k v)) :
    Leads (setopt id o v) s
      (fun _ t ↦ t.Agrees id h ∧ Drift [] ((s.withSlots id p.kept).storeAll id h p.args) t)
      fun _ _ ↦ False := by
  have hannounced : (announced o v s).Agrees id h := hs.later rfl rfl (Nat.le_refl _)
  have hagreed : Leads (setopt id o v) s (fun _ t ↦ t.Agrees id h) fun _ _ ↦ False := by
    refine leads_setopt_of hh (fun k hk ↦ hf k hk _ hannounced) (fun k hk ↦ hd k hk _ hannounced) ?_
    intro ho
    cases (plan?_of_ne ho).symm.trans hp
  refine (hagreed.and (leads_setopt_carried hn hh o v)).mono ?_ fun _ _ ht ↦ ht.1
  rintro _ t ⟨ht, ⟨q, hq, hdrift⟩ | ⟨ho, -⟩⟩
  · obtain rfl : q = p := Option.some.inj (hq.symm.trans hp)
    exact ⟨ht, hdrift⟩
  · cases (plan?_of_ne ho).symm.trans hp

end Wrapper

/-! ## One step under an engine that agrees -/

theorem State.Drift.wrapper_planned {p : Plan} (hh : (s.wrapper id).handle = some h)
    (hd : Drift [] ((s.withSlots id p.kept).storeAll id h p.args) t) :
    t.wrapper id = { s.wrapper id with slots := p.kept (s.wrapper id).slots } := by
  rw [hd.wrapper, wrapper_storeAll, withSlots, wrapper_modifyWrapper s (isAlive_of_handle hh),
    if_pos rfl]

theorem State.Drift.ids_planned {p : Plan}
    (hd : Drift [] ((s.withSlots id p.kept).storeAll id h p.args) t) : t.ids = s.ids := by
  rw [hd.ids, ids_storeAll, withSlots, ids_modifyWrapper]

theorem Step.pass_agreed {o : OptionCode} {p : Plan}
    (hrun : Leads (Wrapper.setopt id o v) s
      (fun _ t ↦ t.Agrees id h ∧ Drift [] ((s.withSlots id p.kept).storeAll id h p.args) t)
      fun _ _ ↦ False) :
    ((Step.setopt id o v).pass s).result.isOk = true ∧
      ((Step.setopt id o v).pass s).after.Agrees id h ∧
      Drift [] ((s.withSlots id p.kept).storeAll id h p.args)
        ((Step.setopt id o v).pass s).after := by
  refine Step.pass_of_leads (P := fun r t ↦ r.isOk = true ∧ t.Agrees id h ∧
    Drift [] ((s.withSlots id p.kept).storeAll id h p.args) t) ?_
  rw [Step.run, leads_bind]
  exact hrun.mono (fun _ _ ht ↦ ⟨rfl, ht⟩) fun _ _ ht ↦ ht.elim

/-- A callback, where the engine agrees. -/
theorem Step.pass_function (hn : s.ids.Nodup) (hh : (s.wrapper id).handle = some h)
    (hs : s.Agrees id h) {c : Callback} (hc : c.kind = k) :
    ((Step.setopt id k.functionOption (.function c)).pass s).result.isOk = true ∧
      ((Step.setopt id k.functionOption (.function c)).pass s).after.Agrees id h ∧
      Drift [] ((s.withSlots id (·.install c)).storeAll id h (wiring h k))
        ((Step.setopt id k.functionOption (.function c)).pass s).after := by
  have hplan : plan? h (s.wrapper id).slots k.functionOption (.function c) =
      some ⟨wiring h k, (·.install c), fun x ↦ x⟩ := by
    rw [plan?_functionOption, functionPlan?, if_pos hc]
  refine Step.pass_agreed (leads_setopt_agreed hn hh hs hplan ?_ ?_)
  · intro j hj
    obtain rfl := CallbackKind.functionOption_injective hj
    exact agreed_setCallback hc
  · intro j hj
    exact absurd hj (CallbackKind.functionOption_ne_dataOption k j)

/-- Data, where the engine agrees. -/
theorem Step.pass_data (hn : s.ids.Nodup) (hh : (s.wrapper id).handle = some h)
    (hs : s.Agrees id h) {d : UserData} (hv : v.leaves? k = some d) :
    ∃ p : Plan, p.Leaves h k d ((s.wrapper id).slots.isInstalled k) ∧
      ((Step.setopt id k.dataOption v).pass s).result.isOk = true ∧
      ((Step.setopt id k.dataOption v).pass s).after.Agrees id h ∧
      Drift [] ((s.withSlots id p.kept).storeAll id h p.args)
        ((Step.setopt id k.dataOption v).pass s).after := by
  obtain ⟨p, hp, hleaves⟩ := exists_dataPlan? hv h ((s.wrapper id).slots.isInstalled k)
  refine ⟨p, hleaves, Step.pass_agreed (leads_setopt_agreed hn hh hs ?_ ?_ ?_)⟩
  · rw [plan?_dataOption, hp]
  · intro j hj
    exact absurd hj.symm (CallbackKind.functionOption_ne_dataOption j k)
  · intro j hj
    obtain rfl := CallbackKind.dataOption_injective hj
    exact agreed_setCallbackData hv

/-! ## Two steps -/

theorem forall_passages_two {P : Passage → Prop} {x y : Step} (hx : P (x.pass s))
    (hy : P (y.pass (x.pass s).after)) : ∀ p ∈ passages s [x, y], P p := by
  intro p hp
  rcases List.mem_cons.1 hp with rfl | hp
  · exact hx
  · rw [List.mem_singleton.1 hp]
    exact hy

theorem State.Drift.planned_twice {f g : Slots → Slots} {xs ys : List (OptionCode × Argument)}
    {u : State} (ht : Drift [] ((s.withSlots id f).storeAll id h xs) t)
    (hu : Drift [] ((t.withSlots id g).storeAll id h ys) u) :
    Drift [] ((s.storeAll id h (xs ++ ys)).withSlots id fun x ↦ g (f x)) u := by
  have hsame : (s.storeAll id h (xs ++ ys)).withSlots id (fun x ↦ g (f x)) =
      (((s.withSlots id f).storeAll id h xs).withSlots id g).storeAll id h ys := by
    simp only [storeAll_withSlots, withSlots_withSlots, storeAll_append]
  rw [hsame]
  exact ((ht.modifyWrapper id _).storeAll id h ys).trans hu

theorem State.Drift.wrapper_stored {f : Slots → Slots} {xs : List (OptionCode × Argument)}
    (hd : Drift [] ((s.storeAll id h xs).withSlots id f) t) (j : WrapperId) :
    t.wrapper j = (s.withSlots id f).wrapper j := by
  rw [hd.wrapper, ← storeAll_withSlots, wrapper_storeAll]

/-- A callback and then its data: the data finds the callback there. -/
theorem Step.pass_function_data (hn : s.ids.Nodup) (hh : (s.wrapper id).handle = some h)
    (hs : s.Agrees id h) {c : Callback} (hc : c.kind = k) {d : UserData}
    (hv : v.leaves? k = some d) :
    (∀ p ∈ passages s [.setopt id k.functionOption (.function c), .setopt id k.dataOption v],
      p.result.isOk = true) ∧
    ∃ ys, ys ⊆ wiring h k ∧
      Drift [] ((s.storeAll id h (wiring h k ++ ys)).withSlots id
          fun x ↦ (x.install c).setData d k)
        (s.after [.setopt id k.functionOption (.function c), .setopt id k.dataOption v]) := by
  obtain ⟨hok, ht, hd⟩ := Step.pass_function hn hh hs hc
  have hwrapper := State.Drift.wrapper_planned (p := ⟨wiring h k, (·.install c), fun x ↦ x⟩) hh hd
  have hinst : (((Step.setopt id k.functionOption (.function c)).pass s).after.wrapper
      id).slots.isInstalled k = true := by
    rw [hwrapper, Slots.isInstalled_install, decide_eq_true hc, Bool.true_or]
  have hids := State.Drift.ids_planned (p := ⟨wiring h k, (·.install c), fun x ↦ x⟩) hd
  obtain ⟨p, hp, hok', -, hd'⟩ := Step.pass_data (hids.symm ▸ hn) (by rw [hwrapper, hh]) ht hv
  obtain ⟨hkept, hargs⟩ := hp.beside hinst
  rw [hkept] at hd'
  exact ⟨forall_passages_two hok hok', p.args, hargs, hd.planned_twice hd'⟩

/-- Data and then its callback: whatever was put into the slot meanwhile, the callback replaces. -/
theorem Step.pass_data_function (hn : s.ids.Nodup) (hh : (s.wrapper id).handle = some h)
    (hs : s.Agrees id h) {c : Callback} (hc : c.kind = k) {d : UserData}
    (hv : v.leaves? k = some d) :
    (∀ p ∈ passages s [.setopt id k.dataOption v, .setopt id k.functionOption (.function c)],
      p.result.isOk = true) ∧
    ∃ xs, (∀ x ∈ xs, ∃ z ∈ wiring h k, x.1 = z.1) ∧
      Drift [] ((s.storeAll id h (xs ++ wiring h k)).withSlots id
          fun x ↦ (x.install c).setData d k)
        (s.after [.setopt id k.dataOption v, .setopt id k.functionOption (.function c)]) := by
  obtain ⟨p, hp, hok, ht, hd⟩ := Step.pass_data hn hh hs hv
  obtain ⟨hok', -, hd'⟩ := Step.pass_function (hd.ids_planned.symm ▸ hn)
    (by rw [hd.wrapper_planned hh, hh]) ht hc
  have hslots : (fun x ↦ (p.kept x).install c) = fun x ↦ (x.install c).setData d k := by
    funext x
    rw [hp.kept x c hc, Slots.install_setData]
  have hboth := hd.planned_twice hd'
  rw [hslots] at hboth
  exact ⟨forall_passages_two hok hok', p.args, hp.option_mem, hboth⟩

/-! ## The whole wiring -/

/-- What is stored under the options of a wiring before the wiring itself, and what is stored of it
again afterwards, makes no difference. -/
theorem setting?_storeAll_wiring (s : State) (id : WrapperId)
    {xs ys : List (OptionCode × Argument)} (hxs : ∀ x ∈ xs, ∃ z ∈ wiring h k, x.1 = z.1)
    (hys : ys ⊆ wiring h k) (g : Nat) (o : OptionCode) :
    (s.storeAll id h (xs ++ (wiring h k ++ ys))).engine.setting? g o =
      (s.storeAll id h (wiring h k)).engine.setting? g o := by
  have hall : ∀ x ∈ wiring h k ++ ys, x ∈ wiring h k := by
    intro x hx
    exact (List.mem_append.1 hx).elim (fun h ↦ h) fun h ↦ hys h
  by_cases ho : g = h ∧ ∃ z ∈ wiring h k, o = z.1
  · obtain ⟨rfl, z, hz, rfl⟩ := ho
    cases hl : s.engine.isLive g with
    | true =>
      have hstored (u : State) (hu : u.engine.isLive g = true)
          {zs : List (OptionCode × Argument)} (hzs : ∀ x ∈ zs, x ∈ wiring g k) (hmem : z ∈ zs) :
          (u.storeAll id g zs).engine.setting? g z.1 = some z.2 := by
        refine setting?_storeAll _ _ _ _ hu (fun x hx hxz ↦ ?_) (.inr hmem)
        rw [wiring_unique (hzs x hx) hz hxz]
      rw [storeAll_append, hstored s hl (fun _ hx ↦ hx) hz]
      exact hstored _ ((isLive_storeAll ..).trans hl) hall (List.mem_append_left _ hz)
    | false =>
      -- Nothing is stored for a handle that is not live.
      have hnone (zs : List (OptionCode × Argument)) :
          (s.storeAll id g zs).engine.setting? g z.1 = none := by
        have hdead : (s.storeAll id g zs).engine.isLive g = false :=
          (isLive_storeAll ..).trans hl
        rw [Engine.isLive, Option.isSome_eq_false_iff, Option.isNone_iff_eq_none] at hdead
        rw [Engine.setting?, hdead, Option.bind_none]
      rw [hnone, hnone]
  · have hne {zs : List (OptionCode × Argument)} (hzs : ∀ x ∈ zs, ∃ z ∈ wiring h k, x.1 = z.1) :
        (s.storeAll id h zs).engine.setting? g o = s.engine.setting? g o := by
      refine setting?_storeAll_of_ne _ _ _ _ _ fun hg x hx hox ↦ ?_
      obtain ⟨z, hz, hxz⟩ := hzs x hx
      exact ho ⟨hg, z, hz, hox.trans hxz⟩
    rw [hne fun x hx ↦ ⟨x, hx, rfl⟩, hne]
    intro x hx
    rcases List.mem_append.1 hx with hx | hx
    · exact hxs x hx
    · exact ⟨x, hall x hx, rfl⟩

/-- Whatever was done before with any number of wrappers, whatever the engine made of it, and
whatever was left half done: as soon as the engine agrees to all that it is told, a callback and the
data for it can be set in either order. Both settings succeed, the slot holds this callback and this
data, and neither wrappers nor engine can tell which of them came first. -/
theorem callback_and_data_commute (policy : Policy) (host : Host) (settled : Settled)
    (steps : List Step) {id : WrapperId} {h : Nat} {k : CallbackKind} {c : Callback} {v : Value}
    {d : UserData}
    (hh : (((State.start policy host settled).after steps).wrapper id).handle = some h)
    (hs : ((State.start policy host settled).after steps).Agrees id h) (hc : c.kind = k)
    (hv : v.leaves? k = some d) :
    let s := (State.start policy host settled).after steps
    let callback := Step.setopt id k.functionOption (.function c)
    let data := Step.setopt id k.dataOption v
    (∀ p ∈ passages s [callback, data] ++ passages s [data, callback], p.result.isOk = true) ∧
    ((s.after [callback, data]).wrapper id).slots =
      ((s.wrapper id).slots.install c).setData d k ∧
    (∀ j, (s.after [callback, data]).wrapper j = (s.after [data, callback]).wrapper j) ∧
    ∀ g o, (s.after [callback, data]).engine.setting? g o =
      (s.after [data, callback]).engine.setting? g o := by
  intro s callback data
  have hn : s.ids.Nodup := ((Coherent.start policy host settled).numbered.after steps).1.nodup
  obtain ⟨hok, ys, hys, hd⟩ := Step.pass_function_data hn hh hs hc hv
  obtain ⟨hok', xs, hxs, hd'⟩ := Step.pass_data_function hn hh hs hc hv
  refine ⟨fun p hp ↦ (List.mem_append.1 hp).elim (hok p) (hok' p), ?_, fun j ↦ ?_, fun g o ↦ ?_⟩
  · rw [hd.wrapper_stored, withSlots, wrapper_modifyWrapper s (isAlive_of_handle hh), if_pos rfl]
  · rw [hd.wrapper_stored, hd'.wrapper_stored]
  · have hnone : ∀ x ∈ ([] : List (OptionCode × Argument)), ∃ z ∈ wiring h k, x.1 = z.1 :=
      fun _ hx ↦ absurd hx List.not_mem_nil
    have hfirst := setting?_storeAll_wiring s id hnone hys g o
    have hlast := setting?_storeAll_wiring s id hxs (List.nil_subset _) g o
    rw [List.append_nil] at hlast
    rw [hd.setting?, hd'.setting?]
    exact hfirst.trans hlast.symm

/-- After a callback that was refused halfway, a sink brings a forwarder along, and the callback
that comes later takes the sink over. -/
theorem callback_takes_sink_over :
    let s := (State.start
      { verdict := fun e _ o _ ↦ if o = .writeFunction ∧ e.calls ≤ 3 then 43 else 0 }
      .bare .bare).after
        [.create .inProcess, .setopt 0 .writeFunction (.function (.write .forward))]
    let c := Callback.write (Script.writeCallback .write [some .write])
    let callback := Step.setopt 0 .writeFunction (.function c)
    let data := Step.setopt 0 .writeData (.sink (Script.sink []))
    s.Stale 0 .write ∧
      ((s.after [data, callback]).wrapper 0).slots =
        ((s.wrapper 0).slots.install c).setData (.writer (Script.sink [])) .write ∧
      ∀ o, (s.after [data, callback]).engine.setting? 0 o =
        (s.after [callback, data]).engine.setting? 0 o := by
  intro s c callback data
  have hcalls : s.engine.calls = 3 := by decide +kernel
  have hs : s.Agrees 0 0 := by
    refine ⟨fun _ _ ↦ rfl, fun _ _ _ _ _ ↦ rfl, fun e he o x ↦ if_neg ?_⟩
    rintro ⟨-, hle⟩
    omega
  obtain ⟨-, hslots, hwrapper, hsetting⟩ := callback_and_data_commute
    { verdict := fun e _ o _ ↦ if o = .writeFunction ∧ e.calls ≤ 3 then 43 else 0 } .bare .bare
    [.create .inProcess, .setopt 0 .writeFunction (.function (.write .forward))] (h := 0)
    (k := .write) (c := c) (v := .sink (Script.sink [])) (by decide +kernel) hs rfl rfl
  refine ⟨by decide +kernel, ?_, fun o ↦ (hsetting 0 o).symm⟩
  exact (congrArg Wrapper.slots (hwrapper 0)).symm.trans hslots

end NativeTransfer
