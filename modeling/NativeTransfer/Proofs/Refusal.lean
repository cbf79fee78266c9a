import NativeTransfer.Proofs.Wired

/-!
# What a refused setting leaves behind

A setting that wires a callback tells the engine up to three arguments, one after the other, and a
refusal in the middle takes none of them back. What was accepted by then stays with the engine, and
what had become of the slots by then is not always undone either. Both are told here exactly: the
engine's options are as they were if and only if what it had accepted by then was set already, and
the slots are as they were if and only if there was nothing in them to lose.

## What a halt leaves

`Halfway` lists what the engine may have accepted of a wiring by the time it refuses something: the
list is short, since a wiring has three arguments at most, and what is accepted is a beginning of
it. For the engine's options the question is then whether storing those arguments has changed
anything, which is whether they were stored before. A context that is stored before its function was
accepted may be left with a function that is not the library's own, and `Stale` names just that.

For the slots the question is what the plan does to them in the case of a refusal. `Disturbs` lists
the settings for which that is something, by what they find in the slot.
-/

namespace NativeTransfer

open State Wrapper

/-! ## Plans that come to a halt -/

/-- The options that the engine holds for a kind. -/
def CallbackKind.options (k : CallbackKind) : List OptionCode :=
  [k.functionOption, k.dataOption, .noProgress]

namespace Wrapper

/-- What the engine has accepted of the arguments for a kind when it refuses one of them. -/
inductive Halfway (h : Nat) (k : CallbackKind) : List (OptionCode × Argument) → Prop
  | nothing : Halfway h k []
  | context : Halfway h k [(k.dataOption, .pointer (.handle h))]
  | shown (hk : k = .progress) :
      Halfway h k [(k.dataOption, .pointer (.handle h)), (.noProgress, .integer 0)]
  | silenced : Halfway h k [(k.functionOption, .function .null)]
  | detached (hk : k = .progress) :
      Halfway h k [(k.functionOption, .function .null), (k.dataOption, .pointer .null)]

/-- A plan that comes to a halt: not all of its arguments are accepted. -/
inductive Halted : Option Plan → List (OptionCode × Argument) → (Slots → Slots) → Prop
  | unplanned : Halted none [] fun x ↦ x
  | refused {p : Plan} {done : List (OptionCode × Argument)} (hpre : done <+: p.args)
      (hne : done ≠ p.args) : Halted (some p) done p.lost

/-- The plan of an option, if it is one that wires a callback. -/
def plan? (h : Nat) (x : Slots) (o : OptionCode) (v : Value) : Option Plan :=
  match CallbackKind.ofFunctionOption? o, CallbackKind.ofDataOption? o with
  | some k, _ => functionPlan? h k v
  | none, some k => dataPlan? h k (x.isInstalled k) v
  | none, none => none

/-- What is left of the slots if the setting of an option fails. -/
def lostSlots (h : Nat) (o : OptionCode) (v : Value) (x : Slots) : Slots :=
  match plan? h x o v with
  | some p => p.lost x
  | none => x

variable {s t : State} {id : WrapperId} {h : Nat} {k : CallbackKind} {o : OptionCode} {v : Value}
  {x : Slots} {f : Slots → Slots} {done : List (OptionCode × Argument)} {plan : Option Plan}

theorem plan?_functionOption : plan? h x k.functionOption v = functionPlan? h k v := by
  rw [plan?, CallbackKind.ofFunctionOption?_functionOption]

theorem plan?_dataOption : plan? h x k.dataOption v = dataPlan? h k (x.isInstalled k) v := by
  rw [plan?, CallbackKind.ofFunctionOption?_dataOption, CallbackKind.ofDataOption?_dataOption]

theorem plan?_of_ne (ho : ∀ k : CallbackKind, k.functionOption ≠ o ∧ k.dataOption ≠ o) :
    plan? h x o v = none := by
  obtain ⟨hf, hd⟩ := CallbackKind.ofOption?_eq_none ho
  rw [plan?, hf, hd]

/-! ### How far the engine has been told -/

theorem halfway_of_wiring (hpre : done <+: wiring h k) (hne : done ≠ wiring h k) :
    Halfway h k done := by
  by_cases hk : k = .progress
  · simp only [wiring, if_pos hk, List.cons_append, List.nil_append] at hpre hne
    rcases List.prefix_cons_iff.1 hpre with rfl | ⟨l, rfl, hl⟩
    · exact .nothing
    rcases List.prefix_cons_iff.1 hl with rfl | ⟨m, rfl, hm⟩
    · exact .context
    rcases List.prefix_cons_iff.1 hm with rfl | ⟨n, rfl, hn⟩
    · exact .shown hk
    · rw [List.prefix_nil.1 hn] at hne
      exact absurd rfl hne
  · simp only [wiring, if_neg hk, List.nil_append] at hpre hne
    rcases List.prefix_cons_iff.1 hpre with rfl | ⟨l, rfl, hl⟩
    · exact .nothing
    rcases List.prefix_cons_iff.1 hl with rfl | ⟨m, rfl, hm⟩
    · exact .context
    · rw [List.prefix_nil.1 hm] at hne
      exact absurd rfl hne

theorem halfway_of_unwiring (hpre : done <+: unwiring k) (hne : done ≠ unwiring k) :
    Halfway h k done := by
  rw [unwiring] at hpre hne
  rcases List.prefix_cons_iff.1 hpre with rfl | ⟨l, rfl, hl⟩
  · exact .nothing
  rcases List.prefix_cons_iff.1 hl with rfl | ⟨m, rfl, hm⟩
  · exact .silenced
  by_cases hk : k = .progress
  · simp only [if_pos hk] at hm hne
    rcases List.prefix_cons_iff.1 hm with rfl | ⟨n, rfl, hn⟩
    · exact .detached hk
    · rw [List.prefix_nil.1 hn] at hne
      exact absurd rfl hne
  · simp only [if_neg hk] at hm hne
    rw [List.prefix_nil.1 hm] at hne
    exact absurd rfl hne

theorem halfway_of_length {xs : List (OptionCode × Argument)} (hxs : xs.length ≤ 1)
    (hpre : done <+: xs) (hne : done ≠ xs) : Halfway h k done := by
  have hlt : done.length < xs.length := by
    refine lt_of_le_of_ne hpre.length_le fun he ↦ hne ?_
    exact hpre.eq_of_length he
  rw [List.eq_nil_of_length_eq_zero (by omega : done.length = 0)]
  exact .nothing

theorem Halted.halfway (hp : Halted (plan? h x o v) done f)
    (ho : o = k.functionOption ∨ o = k.dataOption) : Halfway h k done := by
  generalize hplan : plan? h x o v = plan at hp
  cases hp with
  | unplanned => exact .nothing
  | @refused p _ hpre hne =>
    rcases ho with rfl | rfl
    · rw [plan?_functionOption] at hplan
      cases v with
      | null =>
        cases hplan
        exact halfway_of_unwiring hpre hne
      | function c =>
        rw [functionPlan?] at hplan
        split at hplan
        · cases hplan
          exact halfway_of_wiring hpre hne
        · cases hplan
      | long | bool | text | bytes | list | sink | source | data | pointer => cases hplan
    · rw [plan?_dataOption] at hplan
      have hstream (hplan : (v.stream? k).map (streamPlan h k (x.isInstalled k)) = some p) :
          Halfway h k done := by
        obtain ⟨d, -, rfl⟩ := Option.map_eq_some_iff.1 hplan
        rw [streamPlan] at hpre hne
        split at hpre
        · next hi =>
          rw [if_pos hi] at hne
          exact halfway_of_wiring hpre hne
        · next hi =>
          rw [if_neg hi] at hne
          exact halfway_of_wiring hpre hne
      cases v with
      | null | data =>
        cases hplan
        refine halfway_of_length ?_ hpre hne
        dsimp only
        split
        · simp
        · simp
      | sink | source => exact hstream hplan
      | long | bool | text | bytes | list | function | pointer => cases hplan

theorem Halfway.option_mem (hd : Halfway h k done) {y : OptionCode × Argument} (hy : y ∈ done) :
    y.1 ∈ k.options := by
  rw [CallbackKind.options]
  cases hd with
  | nothing => exact absurd hy List.not_mem_nil
  | context | silenced =>
    rw [List.mem_singleton.1 hy]
    simp
  | shown | detached =>
    rcases List.mem_cons.1 hy with rfl | hy
    · simp
    · rw [List.mem_singleton.1 hy]
      simp

theorem Halfway.nodup (hd : Halfway h k done) : (done.map Prod.fst).Nodup := by
  cases hd with
  | nothing => exact List.nodup_nil
  | context | silenced => exact List.nodup_singleton _
  | shown =>
    refine List.nodup_cons.2 ⟨fun hm ↦ ?_, List.nodup_singleton _⟩
    exact (CallbackKind.option_ne k).2.1 (List.mem_singleton.1 hm)
  | detached =>
    refine List.nodup_cons.2 ⟨fun hm ↦ ?_, List.nodup_singleton _⟩
    exact CallbackKind.functionOption_ne_dataOption k k (List.mem_singleton.1 hm)

/-! ### What a failed setting has done -/

theorem CarriesOut.halted {y : Attempt Unit} {e : Error} (hy : CarriesOut id h y s e plan) :
    Leads y s (fun _ _ ↦ True) fun _ t ↦ ∃ done f, Halted plan done f ∧
      Drift [] ((s.withSlots id f).storeAll id h done) t := by
  cases plan with
  | none =>
    refine Leads.mono hy (fun _ _ ht ↦ ht.elim) ?_
    rintro _ t ⟨-, rfl⟩
    refine ⟨[], _, .unplanned, ?_⟩
    rw [withSlots_self]
    exact Drift.refl t
  | some p =>
    refine Leads.mono hy (fun _ _ _ ↦ trivial) ?_
    rintro _ t ⟨done, hpre, hne, ht⟩
    exact ⟨done, p.lost, .refused hpre hne, ht⟩

/-- A setting that fails has come to a halt in its plan, or it has no part in the wiring. -/
theorem leads_setopt_halted (hn : s.ids.Nodup) (hh : (s.wrapper id).handle = some h)
    (o : OptionCode) (v : Value) :
    Leads (setopt id o v) s (fun _ _ ↦ True) fun e t ↦
      (∃ done f, Halted (plan? h (s.wrapper id).slots o v) done f ∧
        Drift [] ((s.withSlots id f).storeAll id h done) t) ∨
      (∀ k : CallbackKind, k.functionOption ≠ o ∧ k.dataOption ≠ o) ∧
        AfterPlain s id h o v (.error e) t := by
  have hd := drift_announced o v s
  have hwiring {y : Attempt Unit} {e : Error} {plan : Option Plan}
      (hplan : plan? h (s.wrapper id).slots o v = plan)
      (hy : CarriesOut id h y (announced o v s) e plan) :
      Leads y (announced o v s) (fun _ _ ↦ True) fun _ t ↦
        ∃ done f, Halted (plan? h (s.wrapper id).slots o v) done f ∧
          Drift [] ((s.withSlots id f).storeAll id h done) t := by
    rw [hplan]
    refine hy.halted.mono (fun _ _ _ ↦ trivial) ?_
    rintro _ t ⟨done, f, hp, ht⟩
    exact ⟨done, f, hp, ((hd.modifyWrapper id _).storeAll id h done).trans ht⟩
  refine leads_setopt_of hh ?_ ?_ ?_
  · rintro k rfl
    refine (hwiring plan?_functionOption (carriesOut_setCallback k v)).mono (fun _ _ _ ↦ trivial) ?_
    exact fun _ _ ht ↦ .inl ht
  · rintro k rfl
    refine (hwiring plan?_dataOption (carriesOut_setCallbackData k v)).mono (fun _ _ _ ↦ trivial) ?_
    exact fun _ _ ht ↦ .inl ht
  · intro ho
    have hn' : (announced o v s).ids.Nodup := hn
    refine (leads_setPlain hn' (isAlive_of_handle hh) o v).mono (fun _ _ _ ↦ trivial) ?_
    exact fun _ _ ht ↦ .inr ⟨ho, ht.of_drift hd⟩

end Wrapper

/-! ## The engine's options -/

/-- The argument of an option that was accepted. -/
def Event.accepted? : Event → Option (OptionCode × Argument)
  | .native _ (.setopt _ _ o x code) => if code = 0 then some (o, x) else none
  | _ => none

/-- The arguments that the engine accepted on the way, in their order. -/
def Passage.accepted (p : Passage) : List (OptionCode × Argument) :=
  (p.after.settling.drop p.before.settling.length).filterMap Event.accepted?

namespace State

/-- The engine would hand the handle to a function that is not the library's own, which takes it for
something else. -/
def Stale (s : State) (h : Nat) (k : CallbackKind) : Prop :=
  s.engine.setting? h k.dataOption = some (.pointer (.handle h)) ∧
    s.engine.setting? h k.functionOption ≠ some (.function (.trampoline k))

instance (s : State) (h : Nat) (k : CallbackKind) : Decidable (s.Stale h k) :=
  inferInstanceAs (Decidable (_ ∧ _))

variable {s t : State} {id : WrapperId} {h : Nat} {k : CallbackKind}
  {done : List (OptionCode × Argument)}

theorem settling_storeAll (s : State) (id : WrapperId) (h : Nat)
    (xs : List (OptionCode × Argument)) :
    (s.storeAll id h xs).settling = s.settling ++ xs.map fun x ↦
      .native (s.wrapper id).api.route (.setopt (Method.storing x.1 x.2) h x.1 x.2 0) := by
  induction xs generalizing s with
  | nil => simp [storeAll]
  | cons x xs ih =>
    have hstore : (s.store id h x.1 x.2).settling = s.settling ++
        [.native (s.wrapper id).api.route (.setopt (Method.storing x.1 x.2) h x.1 x.2 0)] :=
      List.filter_append _ _
    refine (ih (s.store id h x.1 x.2)).trans ?_
    rw [hstore, List.append_assoc]
    rfl

theorem accepted_of_drift {x : Step} {r : Except Error WrapperId} {f : Slots → Slots}
    {xs : List (OptionCode × Argument)} (hd : Drift [] ((s.withSlots id f).storeAll id h xs) t) :
    Passage.accepted ⟨x, s, r, t⟩ = xs := by
  have hs : (s.withSlots id f).settling = s.settling := rfl
  rw [Passage.accepted, hd.settling, settling_storeAll, hs, List.drop_left, List.filterMap_map]
  exact List.filterMap_some

/-- What is stored changes nothing exactly if it was there before. -/
theorem setting?_storeAll_eq_iff (id : WrapperId) (hl : s.engine.isLive h = true)
    {xs : List (OptionCode × Argument)} (hnodup : (xs.map Prod.fst).Nodup) {os : List OptionCode}
    (hos : ∀ x ∈ xs, x.1 ∈ os) :
    (∀ o ∈ os, (s.storeAll id h xs).engine.setting? h o = s.engine.setting? h o) ↔
      ∀ x ∈ xs, s.engine.setting? h x.1 = some x.2 := by
  have hstored : ∀ x ∈ xs, (s.storeAll id h xs).engine.setting? h x.1 = some x.2 := by
    intro x hx
    refine setting?_storeAll _ _ _ _ hl (fun z hz hzx ↦ ?_) (.inr hx)
    rw [List.inj_on_of_nodup_map hnodup hz hx hzx]
  constructor
  · intro hsame x hx
    rw [← hsame x.1 (hos x hx)]
    exact hstored x hx
  · intro hthere o _
    by_cases ho : ∃ x ∈ xs, x.1 = o
    · obtain ⟨x, hx, rfl⟩ := ho
      rw [hstored x hx, hthere x hx]
    · exact setting?_storeAll_of_ne _ _ _ _ _ fun _ x hx he ↦ ho ⟨x, hx, he.symm⟩

/-- When the handle is left where it does not belong. -/
theorem stale_storeAll_iff (id : WrapperId) (hl : s.engine.isLive h = true)
    (hd : Halfway h k done) :
    (s.storeAll id h done).Stale h k ↔
      done = [] ∧ s.Stale h k ∨
      (k.dataOption, .pointer (.handle h)) ∈ done ∧
        s.engine.setting? h k.functionOption ≠ some (.function (.trampoline k)) ∨
      done = [(k.functionOption, .function .null)] ∧
        s.engine.setting? h k.dataOption = some (.pointer (.handle h)) := by
  have hne := CallbackKind.functionOption_ne_dataOption k k
  obtain ⟨hf, hdata, -⟩ := CallbackKind.option_ne k
  have hstored {o : OptionCode} {x : Argument} (hx : (o, x) ∈ done) :
      (s.storeAll id h done).engine.setting? h o = some x := by
    refine setting?_storeAll _ _ _ _ hl (fun z hz hzx ↦ ?_) (.inr hx)
    rw [List.inj_on_of_nodup_map hd.nodup hz hx hzx]
  have hkept {o : OptionCode} (ho : ∀ x ∈ done, o ≠ x.1) :
      (s.storeAll id h done).engine.setting? h o = s.engine.setting? h o :=
    setting?_storeAll_of_ne _ _ _ _ _ fun _ ↦ ho
  cases hd with
  | nothing => simp [storeAll]
  | context =>
    rw [Stale, hstored List.mem_cons_self, hkept (by simpa using hne)]
    simp
  | shown =>
    rw [Stale, hstored List.mem_cons_self, hkept (by simpa using ⟨hne, hf⟩)]
    simp
  | silenced =>
    rw [Stale, hstored List.mem_cons_self, hkept (by simpa using hne.symm)]
    simp [Address.null]
  | detached =>
    rw [Stale, hstored (List.mem_cons_of_mem _ List.mem_cons_self)]
    simp [Address.null]

end State

section

variable {s : State} {id : WrapperId} {h : Nat} {k : CallbackKind} {o : OptionCode} {v : Value}

/-- A passage in which a setting has failed. -/
theorem Step.halted_of_pass (hn : s.ids.Nodup) (hh : (s.wrapper id).handle = some h)
    (hr : ((Step.setopt id o v).pass s).result.isOk = false) :
    (∃ done f, Halted (plan? h (s.wrapper id).slots o v) done f ∧
      State.Drift [] ((s.withSlots id f).storeAll id h done) ((Step.setopt id o v).pass s).after) ∨
    (∀ k : CallbackKind, k.functionOption ≠ o ∧ k.dataOption ≠ o) ∧
      ∃ e, AfterPlain s id h o v (.error e) ((Step.setopt id o v).pass s).after := by
  revert hr
  refine Step.pass_of_leads (P := fun r t ↦ r.isOk = false →
    (∃ done f, Halted (plan? h (s.wrapper id).slots o v) done f ∧
      State.Drift [] ((s.withSlots id f).storeAll id h done) t) ∨
    (∀ k : CallbackKind, k.functionOption ≠ o ∧ k.dataOption ≠ o) ∧
      ∃ e, AfterPlain s id h o v (.error e) t) ?_
  rw [Step.run, leads_bind]
  refine (leads_setopt_halted hn hh o v).mono (fun _ _ _ hok ↦ ?_) fun e _ ht _ ↦ ?_
  · cases hok
  · exact ht.imp_right fun ha ↦ ⟨ha.1, e, ha.2⟩

theorem Step.halfway_of_pass (hn : s.ids.Nodup) (hh : (s.wrapper id).handle = some h)
    (ho : o = k.functionOption ∨ o = k.dataOption)
    (hr : ((Step.setopt id o v).pass s).result.isOk = false) :
    ∃ done f, Halfway h k done ∧
      State.Drift [] ((s.withSlots id f).storeAll id h done)
        ((Step.setopt id o v).pass s).after := by
  rcases Step.halted_of_pass hn hh hr with ⟨done, f, hp, hd⟩ | ⟨hne, -⟩
  · exact ⟨done, f, hp.halfway ho, hd⟩
  · rcases ho with rfl | rfl
    · exact absurd rfl (hne k).1
    · exact absurd rfl (hne k).2

end

/-- Whatever was done before with any number of wrappers, and whatever the engine made of it: if a
setting fails that wires a callback or takes one away, the engine has accepted the beginning of what
it was told. Its options for the kind are as they were exactly if that beginning was set already,
all its other options are as they were, and the handle is left with a function that is not the
library's own in no more cases than these. -/
theorem refused_rewiring_spares_options_iff (policy : Policy) (host : Host) (settled : Settled)
    (hp : policy.Fresh) (steps : List Step) {p : Passage}
    (hmem : p ∈ passages (.start policy host settled) steps) {id : WrapperId} {o : OptionCode}
    {v : Value} {k : CallbackKind} {h : Nat} (hx : p.step = .setopt id o v)
    (ho : o = k.functionOption ∨ o = k.dataOption) (hh : (p.before.wrapper id).handle = some h)
    (hr : p.result.isOk = false) :
    Halfway h k p.accepted ∧
    (∀ g o', g ≠ h ∨ o' ∉ k.options →
      p.after.engine.setting? g o' = p.before.engine.setting? g o') ∧
    ((∀ o' ∈ k.options, p.after.engine.setting? h o' = p.before.engine.setting? h o') ↔
      ∀ x ∈ p.accepted, p.before.engine.setting? h x.1 = some x.2) ∧
    (p.after.Stale h k ↔
      p.accepted = [] ∧ p.before.Stale h k ∨
      (k.dataOption, .pointer (.handle h)) ∈ p.accepted ∧
        p.before.engine.setting? h k.functionOption ≠ some (.function (.trampoline k)) ∨
      p.accepted = [(k.functionOption, .function .null)] ∧
        p.before.engine.setting? h k.dataOption = some (.pointer (.handle h))) := by
  obtain ⟨ys, x, zs, rfl, rfl⟩ := exists_of_mem_passages hmem
  obtain rfl : x = .setopt id o v := hx
  have hc := Coherent.start policy host settled
  have hcoh : ((State.start policy host settled).after ys).Coherent :=
    (Orderly.of_policy hc hp ys).coherent hc
  obtain ⟨done, f, hdone, hd⟩ := Step.halfway_of_pass hcoh.numbered.nodup hh ho hr
  have haccepted : ((Step.setopt id o v).pass
      ((State.start policy host settled).after ys)).accepted = done := accepted_of_drift hd
  rw [haccepted]
  have hlive : (((State.start policy host settled).after ys).withSlots id f).engine.isLive h =
      true := hcoh.live id h hh
  refine ⟨hdone, fun g o' hne ↦ ?_, ?_, ?_⟩
  · refine (hd.setting? g o').trans (setting?_storeAll_of_ne _ _ _ _ _ fun hg y hy he ↦ ?_)
    refine hne.elim (· hg) fun hn ↦ hn ?_
    rw [he]
    exact hdone.option_mem hy
  · refine Iff.trans ?_ (setting?_storeAll_eq_iff id hlive hdone.nodup fun _ ↦ hdone.option_mem)
    refine forall₂_congr fun o' _ ↦ ?_
    rw [hd.setting?]
    rfl
  · rw [Stale, hd.setting?, hd.setting?]
    exact stale_storeAll_iff id hlive hdone

/-- A callback that replaces another is refused after its context, which was set already. -/
theorem refused_replacement_spares_options :
    let policy := Policy.guarded
      { verdict := fun e _ o _ ↦ if o = .writeFunction ∧ 4 ≤ e.calls then 43 else 0 }
    let p := (Step.setopt 0 .writeFunction (.function (.write .forward))).pass
      ((State.start policy .bare .bare).after
        [.create .inProcess, .setopt 0 .writeFunction (.function (.write .forward))])
    p.accepted = [(.writeData, .pointer (.handle 0))] ∧
      ∀ o ∈ CallbackKind.write.options,
        p.after.engine.setting? 0 o = p.before.engine.setting? 0 o := by
  intro policy p
  have hmem : p ∈ passages (.start policy .bare .bare)
      [.create .inProcess, .setopt 0 .writeFunction (.function (.write .forward)),
        .setopt 0 .writeFunction (.function (.write .forward))] :=
    List.mem_cons_of_mem _ (List.mem_cons_of_mem _ List.mem_cons_self)
  obtain ⟨-, -, hiff, -⟩ := refused_rewiring_spares_options_iff policy .bare .bare
    (Policy.guarded_fresh _) _ hmem (k := .write) (h := 0) rfl (.inl rfl) (by decide +kernel)
    (by decide +kernel)
  have haccepted : p.accepted = [(.writeData, .pointer (.handle 0))] := by decide +kernel
  refine ⟨haccepted, hiff.2 ?_⟩
  rw [haccepted]
  decide +kernel

/-- The engine keeps the context of a callback whose function it has refused. -/
theorem refused_function_leaves_stale_context :
    let p := (Step.setopt 0 .writeFunction (.function (.write .forward))).pass
      ((State.start { verdict := fun _ _ o _ ↦ if o = .writeFunction then 43 else 0 }
        .bare .bare).after [.create .inProcess])
    p.result.isOk = false ∧
      p.after.engine.setting? 0 .writeData ≠ p.before.engine.setting? 0 .writeData ∧
      p.after.Stale 0 .write := by
  decide +kernel

/-! ## Slots -/

namespace Slots

variable {x : Slots} {k : CallbackKind}

theorem clear_eq_self_iff : x.clear k = x ↔ x.isInstalled k = false ∧ x.data k = .empty := by
  have hslot {κ : Type} {y : Slot κ} :
      ({} : Slot κ) = y ↔ y.callback.isSome = false ∧ y.data = .empty := by
    rcases y with ⟨c, d⟩
    rw [Option.isSome_eq_false_iff, Option.isNone_iff_eq_none, Slot.mk.injEq, eq_comm,
      eq_comm (a := UserData.empty)]
  rcases x with ⟨w, r, hd, pr⟩
  cases k with
  | write => simpa [clear, isInstalled, data] using hslot (y := w)
  | read => simpa [clear, isInstalled, data] using hslot (y := r)
  | header => simpa [clear, isInstalled, data] using hslot (y := hd)
  | progress => simpa [clear, isInstalled, data] using hslot (y := pr)

theorem setData_eq_self_iff {d : UserData} : x.setData d k = x ↔ x.data k = d := by
  constructor
  · intro h
    rw [← h, data_setData, if_pos rfl]
  · rintro rfl
    cases k <;> rfl

end Slots

/-- The settings that change the slots even if they fail, by what they find there. -/
inductive Wrapper.Disturbs : OptionCode → Value → Slots → Prop
  /-- The slot is emptied before the engine is asked. -/
  | clear {k x} (hx : x.isInstalled k = true ∨ x.data k ≠ .empty) :
      Disturbs k.functionOption .null x
  | forget {k x} (hx : x.data k ≠ .empty) : Disturbs k.dataOption .null x
  | replace {k d x} (hx : x.data k ≠ .value d) : Disturbs k.dataOption (.data d) x
  /-- A callback that is there keeps the stream. -/
  | feed {k v d x} (hv : v.stream? k = some d) (hi : x.isInstalled k = true)
      (hx : x.data k ≠ d) : Disturbs k.dataOption v x
  /-- The slot is emptied with the callback that was to serve the stream. -/
  | withdraw {k v d x} (hv : v.stream? k = some d) (hi : x.isInstalled k = false)
      (hx : x.data k ≠ .empty) : Disturbs k.dataOption v x

namespace Wrapper

variable {s : State} {id : WrapperId} {h : Nat} {k : CallbackKind} {o : OptionCode} {v : Value}
  {x : Slots}

theorem disturbs_functionOption_iff :
    Disturbs k.functionOption v x ↔ v = .null ∧ (x.isInstalled k = true ∨ x.data k ≠ .empty) := by
  constructor
  · intro hd
    generalize ho : k.functionOption = o at hd
    cases hd with
    | clear hx =>
      obtain rfl := CallbackKind.functionOption_injective ho
      exact ⟨rfl, hx⟩
    | forget | replace | feed | withdraw =>
      exact absurd ho (CallbackKind.functionOption_ne_dataOption _ _)
  · rintro ⟨rfl, hx⟩
    exact .clear hx

theorem disturbs_dataOption_iff :
    Disturbs k.dataOption v x ↔
      v = .null ∧ x.data k ≠ .empty ∨ (∃ d, v = .data d ∧ x.data k ≠ .value d) ∨
      ∃ d, v.stream? k = some d ∧ (x.isInstalled k = true ∧ x.data k ≠ d ∨
        x.isInstalled k = false ∧ x.data k ≠ .empty) := by
  constructor
  · intro hd
    generalize ho : k.dataOption = o at hd
    cases hd with
    | clear => exact absurd ho.symm (CallbackKind.functionOption_ne_dataOption _ _)
    | forget hx =>
      obtain rfl := CallbackKind.dataOption_injective ho
      exact .inl ⟨rfl, hx⟩
    | replace hx =>
      obtain rfl := CallbackKind.dataOption_injective ho
      exact .inr (.inl ⟨_, rfl, hx⟩)
    | feed hv hi hx =>
      obtain rfl := CallbackKind.dataOption_injective ho
      exact .inr (.inr ⟨_, hv, .inl ⟨hi, hx⟩⟩)
    | withdraw hv hi hx =>
      obtain rfl := CallbackKind.dataOption_injective ho
      exact .inr (.inr ⟨_, hv, .inr ⟨hi, hx⟩⟩)
  · rintro (⟨rfl, hx⟩ | ⟨d, rfl, hx⟩ | ⟨d, hv, ⟨hi, hx⟩ | ⟨hi, hx⟩⟩)
    · exact .forget hx
    · exact .replace hx
    · exact .feed hv hi hx
    · exact .withdraw hv hi hx

theorem not_disturbs_of_ne (ho : ∀ k : CallbackKind, k.functionOption ≠ o ∧ k.dataOption ≠ o) :
    ¬ Disturbs o v x := by
  intro hd
  cases hd with
  | @clear k => exact (ho k).1 rfl
  | @forget k | @replace k | @feed k | @withdraw k => exact (ho k).2 rfl

/-- What becomes of the slots if the engine refuses to be wired for a stream. -/
theorem lost_streamPlan_eq_self_iff {installed : Bool} (hi : x.isInstalled k = installed)
    (d : UserData) :
    (streamPlan h k installed d).lost x = x ↔
      ¬ (installed = true ∧ x.data k ≠ d ∨ installed = false ∧ x.data k ≠ .empty) := by
  cases installed with
  | true =>
    refine Slots.setData_eq_self_iff.trans ?_
    simp
  | false =>
    refine Slots.clear_eq_self_iff.trans ?_
    simp [hi]

/-- Slots that have nothing to lose are as they were. -/
theorem lostSlots_eq_self_iff : lostSlots h o v x = x ↔ ¬ Disturbs o v x := by
  rw [lostSlots]
  rcases CallbackKind.option_cases o with ⟨k, rfl⟩ | ⟨k, rfl⟩ | ho
  · rw [plan?_functionOption, disturbs_functionOption_iff]
    cases v with
    | null =>
      refine Slots.clear_eq_self_iff.trans ?_
      simp
    | function c =>
      rw [functionPlan?]
      by_cases hc : c.kind = k
      · rw [if_pos hc]
        exact iff_of_true rfl (by simp)
      · rw [if_neg hc]
        exact iff_of_true rfl (by simp)
    | long | bool | text | bytes | list | sink | source | data | pointer =>
      exact iff_of_true rfl (by simp)
  · rw [plan?_dataOption, disturbs_dataOption_iff]
    have hstream : dataPlan? h k (x.isInstalled k) v =
        (v.stream? k).map (streamPlan h k (x.isInstalled k)) → v ≠ .null → (∀ d, v ≠ .data d) →
        ((match dataPlan? h k (x.isInstalled k) v with
          | some p => p.lost x
          | none => x) = x ↔
        ¬ (v = .null ∧ x.data k ≠ .empty ∨ (∃ d, v = .data d ∧ x.data k ≠ .value d) ∨
          ∃ d, v.stream? k = some d ∧ (x.isInstalled k = true ∧ x.data k ≠ d ∨
            x.isInstalled k = false ∧ x.data k ≠ .empty))) := by
      intro hplan hnull hdata
      rw [hplan]
      cases hv : v.stream? k with
      | none => exact iff_of_true rfl (by simp [hnull, hdata])
      | some d =>
        refine (lost_streamPlan_eq_self_iff (h := h) rfl d).trans ?_
        simp [hnull, hdata]
    cases v with
    | null =>
      refine Slots.setData_eq_self_iff.trans ?_
      simp [Value.stream?]
    | data d =>
      refine Slots.setData_eq_self_iff.trans ?_
      simp [Value.stream?]
    | sink | source => exact hstream rfl (by simp) (by simp)
    | long | bool | text | bytes | list | function | pointer =>
      exact hstream rfl (by simp) (by simp)
  · rw [plan?_of_ne ho]
    exact iff_of_true rfl (not_disturbs_of_ne ho)

end Wrapper

section

variable {s : State} {id : WrapperId} {h : Nat} {o : OptionCode} {v : Value}

theorem Step.pass_setopt_none (hh : (s.wrapper id).handle = none) :
    ((Step.setopt id o v).pass s).after = s := by
  refine Step.pass_of_leads (P := fun _ t ↦ t = s) ?_
  rw [Step.run, leads_bind]
  exact (leads_setopt_none hh o v).mono (fun _ _ ht ↦ ht.elim) fun _ _ ht ↦ ht

/-- What is lost is lost by the wrapper alone that was to be set. -/
theorem Step.slots_of_refused (hn : s.ids.Nodup) (hh : (s.wrapper id).handle = some h)
    (hr : ((Step.setopt id o v).pass s).result.isOk = false) (j : WrapperId) :
    (((Step.setopt id o v).pass s).after.wrapper j).slots =
      if j = id then lostSlots h o v (s.wrapper id).slots else (s.wrapper j).slots := by
  rcases Step.halted_of_pass hn hh hr with ⟨done, f, hp, hd⟩ | ⟨ho, e, ha⟩
  · have hf : f (s.wrapper id).slots = lostSlots h o v (s.wrapper id).slots := by
      rw [lostSlots]
      generalize plan? h (s.wrapper id).slots o v = plan at hp
      cases hp with
      | unplanned => rfl
      | refused => rfl
    rw [hd.wrapper, wrapper_storeAll, State.withSlots,
      wrapper_modifyWrapper s (isAlive_of_handle hh)]
    split
    · next hj =>
      rw [← hf, hj]
    · rfl
  · obtain ⟨as, xs, ht, -⟩ := ha.touched
    have hsame : (((Step.setopt id o v).pass s).after.wrapper j).slots = (s.wrapper j).slots := by
      rw [ht.drift.wrapper, wrapper_storeAll, withSlots_self]
      exact proj_modifyWrapper s id j Wrapper.slots fun _ ↦ rfl
    rw [hsame, lostSlots, plan?_of_ne ho]
    split
    · next hj => rw [hj]
    · rfl

end

/-- Whatever was done before with any number of wrappers, and whatever the engine made of it: if a
setting fails, no other wrapper's slots are touched, and those of its own are left as its plan has
it for that case. They are as they were exactly if the setting is none of those that change them
first, or finds nothing there to change. -/
theorem refused_setting_spares_slots_iff (policy : Policy) (host : Host) (settled : Settled)
    (steps : List Step) {p : Passage} (hmem : p ∈ passages (.start policy host settled) steps)
    {id : WrapperId} {o : OptionCode} {v : Value} (hx : p.step = .setopt id o v)
    (hr : p.result.isOk = false) :
    (∀ j, j ≠ id → (p.after.wrapper j).slots = (p.before.wrapper j).slots) ∧
    (∀ h, (p.before.wrapper id).handle = some h →
      (p.after.wrapper id).slots = lostSlots h o v (p.before.wrapper id).slots) ∧
    ((p.after.wrapper id).slots = (p.before.wrapper id).slots ↔
      ¬ ((p.before.wrapper id).handle.isSome = true ∧
        Disturbs o v (p.before.wrapper id).slots)) := by
  obtain ⟨ys, x, zs, rfl, rfl⟩ := exists_of_mem_passages hmem
  obtain rfl : x = .setopt id o v := hx
  have hn := ((Coherent.start policy host settled).numbered.after ys).1.nodup
  cases hh : (((Step.setopt id o v).pass
      ((State.start policy host settled).after ys)).before.wrapper id).handle with
  | none =>
    have hsame : ((Step.setopt id o v).pass ((State.start policy host settled).after ys)).after =
        ((Step.setopt id o v).pass ((State.start policy host settled).after ys)).before :=
      Step.pass_setopt_none hh
    rw [hsame]
    exact ⟨fun _ _ ↦ rfl, nofun, iff_of_true rfl fun hc ↦ absurd hc.1 (by simp)⟩
  | some h =>
    have hslots := Step.slots_of_refused hn hh hr
    have hid := (hslots id).trans (if_pos rfl)
    refine ⟨fun j hj ↦ (hslots j).trans (if_neg hj), ?_, ?_⟩
    · rintro g ⟨⟩
      exact hid
    · rw [hid, Option.isSome_some, eq_self_iff_true, true_and]
      exact lostSlots_eq_self_iff

/-- A callback whose function is refused is not put into its slot. -/
theorem refused_function_spares_slots :
    let policy : Policy := { verdict := fun _ _ o _ ↦ if o = .writeFunction then 43 else 0 }
    let p := (Step.setopt 0 .writeFunction (.function (.write .forward))).pass
      ((State.start policy .bare .bare).after
        [.create .inProcess, .setopt 0 .writeData (.data (.number 7))])
    (p.after.wrapper 0).slots = (p.before.wrapper 0).slots ∧
      (p.before.wrapper 0).slots.data .write = .value (.number 7) := by
  intro policy p
  have hmem : p ∈ passages (.start policy .bare .bare)
      [.create .inProcess, .setopt 0 .writeData (.data (.number 7)),
        .setopt 0 .writeFunction (.function (.write .forward))] :=
    List.mem_cons_of_mem _ (List.mem_cons_of_mem _ List.mem_cons_self)
  obtain ⟨-, -, hiff⟩ := refused_setting_spares_slots_iff policy .bare .bare _ hmem rfl
    (by decide +kernel)
  refine ⟨hiff.2 fun hc ↦ ?_, rfl⟩
  rcases (disturbs_functionOption_iff (k := .write)).1 hc.2 with ⟨hv, -⟩
  cases hv

/-- A callback is lost with a clear that the engine refuses. -/
theorem refused_clear_empties_slot :
    let policy : Policy := { verdict := fun _ _ _ x ↦ if x = .function .null then 43 else 0 }
    let p := (Step.setopt 0 .writeFunction .null).pass
      ((State.start policy .bare .bare).after
        [.create .inProcess, .setopt 0 .writeFunction (.function (.write .forward))])
    p.result.isOk = false ∧ (p.before.wrapper 0).slots.isInstalled .write = true ∧
      (p.after.wrapper 0).slots.isInstalled .write = false := by
  decide +kernel

end NativeTransfer
