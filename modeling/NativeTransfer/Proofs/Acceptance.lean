import NativeTransfer.Proofs.Refusal

/-!
# What an accepted setting has done

A setting that succeeds has carried its plan out to the end: every argument is stored, and the slots
have changed as the plan has it for that case. Together with what a refused setting leaves behind,
this says what any setting makes of the slots.

## Where plans differ

A data option has a plan for each value that fits, and which plan it is depends on whether the kind
has a callback by then. What the plans have in common is `Plan.Leaves`: a callback that is installed
later finds the same slot whichever plan it was, and what the engine is told belongs to the wiring
of the kind. Both are what is asked of a plan when it is followed by another one.
-/

namespace NativeTransfer

open State Wrapper

/-! ## What a data option leaves in a slot -/

/-- What the slot of a kind holds once its data option was given a value that fits. -/
def Value.leaves? (k : CallbackKind) : Value → Option UserData
  | .null => some .empty
  | .data d => some (.value d)
  | v => v.stream? k

theorem Value.leaves?_of_stream? {k : CallbackKind} {v : Value} {d : UserData}
    (hv : v.stream? k = some d) : v.leaves? k = some d := by
  cases v with
  | null | data => cases hv
  | sink | source => exact hv
  | long | bool | text | bytes | list | function | pointer => cases hv

namespace Slots

theorem install_setData (x : Slots) (c : Callback) (d : UserData) (k : CallbackKind) :
    (x.setData d k).install c = (x.install c).setData d k := by
  cases c <;> cases k <;> rfl

theorem install_install (x : Slots) {c c' : Callback} (hc : c.kind = c'.kind) :
    (x.install c).install c' = x.install c' := by
  cases c <;> cases c' <;> first | rfl | cases hc

end Slots

namespace Wrapper

variable {s t : State} {id : WrapperId} {h : Nat} {k : CallbackKind} {o : OptionCode} {v : Value}
  {x : Slots}

/-! ## Plans that are carried out -/

/-- What becomes of the slots if the setting of an option succeeds. -/
def keptSlots (h : Nat) (o : OptionCode) (v : Value) (x : Slots) : Slots :=
  match plan? h x o v with
  | some p => p.kept x
  | none => x

theorem CarriesOut.carried {y : Attempt Unit} {e : Error} {plan : Option Plan}
    (hy : CarriesOut id h y s e plan) :
    Leads y s (fun _ t ↦ ∃ p, plan = some p ∧
      Drift [] ((s.withSlots id p.kept).storeAll id h p.args) t) fun _ _ ↦ True := by
  cases plan with
  | none => exact Leads.mono hy (fun _ _ ht ↦ ht.elim) fun _ _ _ ↦ trivial
  | some p => exact Leads.mono hy (fun _ _ ht ↦ ⟨p, rfl, ht⟩) fun _ _ _ ↦ trivial

/-- A setting that succeeds has carried out its plan, or it has no part in the wiring. -/
theorem leads_setopt_carried (hn : s.ids.Nodup) (hh : (s.wrapper id).handle = some h)
    (o : OptionCode) (v : Value) :
    Leads (setopt id o v) s (fun _ t ↦
      (∃ p, plan? h (s.wrapper id).slots o v = some p ∧
        Drift [] ((s.withSlots id p.kept).storeAll id h p.args) t) ∨
      (∀ k : CallbackKind, k.functionOption ≠ o ∧ k.dataOption ≠ o) ∧
        AfterPlain s id h o v (.ok ()) t) fun _ _ ↦ True := by
  have hd := drift_announced o v s
  have hwiring {y : Attempt Unit} {e : Error} {plan : Option Plan}
      (hplan : plan? h (s.wrapper id).slots o v = plan)
      (hy : CarriesOut id h y (announced o v s) e plan) :
      Leads y (announced o v s) (fun _ t ↦ ∃ p, plan? h (s.wrapper id).slots o v = some p ∧
        Drift [] ((s.withSlots id p.kept).storeAll id h p.args) t) fun _ _ ↦ True := by
    rw [hplan]
    refine hy.carried.mono ?_ fun _ _ _ ↦ trivial
    rintro _ t ⟨p, hp, ht⟩
    exact ⟨p, hp, ((hd.modifyWrapper id _).storeAll id h p.args).trans ht⟩
  refine leads_setopt_of hh ?_ ?_ ?_
  · rintro k rfl
    refine (hwiring plan?_functionOption (carriesOut_setCallback k v)).mono ?_ fun _ _ _ ↦ trivial
    exact fun _ _ ht ↦ .inl ht
  · rintro k rfl
    refine (hwiring plan?_dataOption (carriesOut_setCallbackData k v)).mono ?_ fun _ _ _ ↦ trivial
    exact fun _ _ ht ↦ .inl ht
  · intro ho
    have hn' : (announced o v s).ids.Nodup := hn
    refine (leads_setPlain hn' (isAlive_of_handle hh) o v).mono ?_ fun _ _ _ ↦ trivial
    exact fun _ _ ht ↦ .inr ⟨ho, ht.of_drift hd⟩

/-! ## Plans of data options -/

/-- What a plan for the data option of a kind does, whichever value it is for. A callback that comes
later does not notice whether the plan has put one of its own into the slot. -/
structure Plan.Leaves (p : Plan) (h : Nat) (k : CallbackKind) (d : UserData) (installed : Bool) :
    Prop where
  kept : ∀ x c, c.kind = k → (p.kept x).install c = (x.setData d k).install c
  option_mem : ∀ y ∈ p.args, ∃ z ∈ wiring h k, y.1 = z.1
  /-- Where a callback is there already, the engine is told nothing that it was not told before. -/
  beside : installed = true → p.kept = (·.setData d k) ∧ p.args ⊆ wiring h k

theorem context_mem_wiring : (k.dataOption, .pointer (.handle h)) ∈ wiring h k :=
  List.mem_cons_self

theorem leaves_streamPlan {d : UserData} (hv : v.stream? k = some d) (installed : Bool) :
    (streamPlan h k installed d).Leaves h k d installed := by
  obtain ⟨f, hf, hfk⟩ := Callback.exists_forStream? hv
  cases installed with
  | true => exact ⟨fun _ _ _ ↦ rfl, fun y hy ↦ ⟨y, hy, rfl⟩, fun _ ↦ ⟨rfl, List.Subset.refl _⟩⟩
  | false =>
    refine ⟨fun x c hc ↦ ?_, fun y hy ↦ ⟨y, hy, rfl⟩, nofun⟩
    have hserve : (streamPlan h k false d).kept x = (x.setData d k).install f := by
      rw [streamPlan, if_neg Bool.false_ne_true]
      dsimp only
      rw [serve, hf]
    rw [hserve]
    exact Slots.install_install _ (hfk.trans hc.symm)

/-- Every value that fits has a plan. -/
theorem exists_dataPlan? {d : UserData} (hv : v.leaves? k = some d) (h : Nat) (installed : Bool) :
    ∃ p, dataPlan? h k installed v = some p ∧ p.Leaves h k d installed := by
  have hstream (hplan : dataPlan? h k installed v = (v.stream? k).map (streamPlan h k installed))
      (hv : v.stream? k = some d) :
      ∃ p, dataPlan? h k installed v = some p ∧ p.Leaves h k d installed :=
    ⟨_, by rw [hplan, hv, Option.map_some], leaves_streamPlan hv installed⟩
  cases v with
  | null =>
    cases hv
    refine ⟨_, rfl, fun _ _ _ ↦ rfl, fun y hy ↦ ⟨_, context_mem_wiring, ?_⟩, ?_⟩
    · split at hy
      · cases hy
      · rw [List.mem_singleton.1 hy]
    · rintro rfl
      exact ⟨rfl, List.nil_subset _⟩
  | data d =>
    cases hv
    refine ⟨_, rfl, fun _ _ _ ↦ rfl, fun y hy ↦ ⟨_, context_mem_wiring, ?_⟩, ?_⟩
    · split at hy
      · rw [List.mem_singleton.1 hy]
      · cases hy
    · rintro rfl
      exact ⟨rfl, List.cons_subset.2 ⟨context_mem_wiring, List.nil_subset _⟩⟩
  | sink | source => exact hstream rfl hv
  | long | bool | text | bytes | list | function | pointer => cases hv

end Wrapper

/-! ## Slots -/

section

variable {s : State} {id : WrapperId} {h : Nat} {o : OptionCode} {v : Value}

/-- What a setting that succeeds makes of the slots, which are those of its wrapper alone. -/
theorem Step.slots_of_accepted (hn : s.ids.Nodup) (hh : (s.wrapper id).handle = some h)
    (hr : ((Step.setopt id o v).pass s).result.isOk = true) (j : WrapperId) :
    (((Step.setopt id o v).pass s).after.wrapper j).slots =
      if j = id then keptSlots h o v (s.wrapper id).slots else (s.wrapper j).slots := by
  have hrun : Leads (Step.setopt id o v).run s (fun _ t ↦ (t.wrapper j).slots =
      if j = id then keptSlots h o v (s.wrapper id).slots else (s.wrapper j).slots)
      fun _ _ ↦ True := by
    rw [Step.run, leads_bind]
    refine (leads_setopt_carried hn hh o v).mono ?_ fun _ _ _ ↦ trivial
    rintro _ t (⟨p, hp, hd⟩ | ⟨ho, ha⟩)
    · refine (congrArg Wrapper.slots (hd.wrapper j)).trans ?_
      rw [wrapper_storeAll, State.withSlots, wrapper_modifyWrapper s (isAlive_of_handle hh),
        keptSlots, hp]
      split
      · next hj => rw [hj]
      · rfl
    · obtain ⟨as, xs, ht, -⟩ := ha.touched
      have hsame : (t.wrapper j).slots = (s.wrapper j).slots := by
        rw [ht.drift.wrapper, wrapper_storeAll, withSlots_self]
        exact proj_modifyWrapper s id j Wrapper.slots fun _ ↦ rfl
      refine hsame.trans ?_
      rw [keptSlots, plan?_of_ne ho]
      split
      · next hj => rw [hj]
      · rfl
  refine Step.pass_of_leads (P := fun r t ↦ r.isOk = true → (t.wrapper j).slots =
    if j = id then keptSlots h o v (s.wrapper id).slots else (s.wrapper j).slots) ?_ hr
  exact hrun.mono (fun _ _ ht _ ↦ ht) fun _ _ _ hok ↦ absurd hok Bool.false_ne_true

end

end NativeTransfer
