import Mathlib.Data.List.Nodup
import NativeTransfer.Proofs.Fate

/-!
# An installed callback is wired

A slot that holds a callback is of use only if the engine calls the trampoline of its kind, and
calls it with the wrapper's handle for context. Setting the options of a kind changes the slot and
stores a part of the wiring, in one order or the other and with failures anywhere in between; the
invariant is that whatever is in `wiring` is stored as soon as there is a callback. What another
kind or another option stores is under other options.

## Order and failure

A callback is in its slot before the engine knows of it in one arm, and after it in another. What
makes the invariant hold in both is that an arm which puts a callback where none was takes it out
again if the wiring fails, and that one which replaces a callback finds the wiring stored already. A
wiring that was stored in part, for a slot that ends up empty, is nothing to the invariant.

Whether progress is reported is an option that a caller may set as well, and it is left out of the
invariant from then on (`own`).
-/

namespace NativeTransfer

open State Wrapper

/-! ## The options of a kind -/

namespace CallbackKind

theorem functionOption_injective {j k : CallbackKind} (h : j.functionOption = k.functionOption) :
    j = k := by
  have hj := congrArg ofFunctionOption? h
  rw [ofFunctionOption?_functionOption, ofFunctionOption?_functionOption] at hj
  exact Option.some.inj hj

theorem dataOption_injective {j k : CallbackKind} (h : j.dataOption = k.dataOption) : j = k := by
  have hj := congrArg ofDataOption? h
  rw [ofDataOption?_dataOption, ofDataOption?_dataOption] at hj
  exact Option.some.inj hj

theorem functionOption_ne_dataOption (j k : CallbackKind) : j.functionOption ≠ k.dataOption := by
  intro h
  have hj := congrArg ofFunctionOption? h
  rw [ofFunctionOption?_functionOption, ofFunctionOption?_dataOption] at hj
  cases hj

theorem option_ne (k : CallbackKind) :
    k.functionOption ≠ .noProgress ∧ k.dataOption ≠ .noProgress ∧
      ∀ n, k.functionOption ≠ sizeOption n ∧ k.dataOption ≠ sizeOption n := by
  refine ⟨by cases k <;> decide, by cases k <;> decide, fun n ↦ ?_⟩
  rcases sizeOption_eq n with hn | hn
  · rw [hn]
    cases k <;> decide
  · rw [hn]
    cases k <;> decide

end CallbackKind

theorem noProgress_ne_sizeOption (n : Nat) : OptionCode.noProgress ≠ sizeOption n := by
  rcases sizeOption_eq n with hn | hn
  · rw [hn]
    decide
  · rw [hn]
    decide

/-- An option that one kind is wired by is no part of the wiring of another. -/
theorem eq_of_mem_wiring {h : Nat} {j k : CallbackKind} {x y : OptionCode × Argument}
    (hx : x.1 = j.dataOption ∨ x.1 = .noProgress ∧ j = .progress ∨ x.1 = j.functionOption)
    (hy : y ∈ wiring h k) (hxy : x.1 = y.1) : j = k := by
  obtain ⟨hf, hd, -⟩ := CallbackKind.option_ne j
  obtain ⟨hf', hd', -⟩ := CallbackKind.option_ne k
  rcases mem_wiring hy with rfl | ⟨rfl, hk⟩ | rfl
  · rcases hx with hx | ⟨hx, -⟩ | hx
    · exact CallbackKind.dataOption_injective (hx.symm.trans hxy)
    · exact absurd (hxy.symm.trans hx) hd'
    · exact absurd (hx.symm.trans hxy) (CallbackKind.functionOption_ne_dataOption j k)
  · rcases hx with hx | ⟨-, hj⟩ | hx
    · exact absurd (hx.symm.trans hxy) hd
    · exact hj.trans hk.symm
    · exact absurd (hx.symm.trans hxy) hf
  · rcases hx with hx | ⟨hx, -⟩ | hx
    · exact absurd (hxy.symm.trans hx) (CallbackKind.functionOption_ne_dataOption k j)
    · exact absurd (hxy.symm.trans hx) hf'
    · exact CallbackKind.functionOption_injective (hx.symm.trans hxy)

theorem wiring_unique {h : Nat} {k : CallbackKind} {x y : OptionCode × Argument}
    (hx : x ∈ wiring h k) (hy : y ∈ wiring h k) (hxy : x.1 = y.1) : x = y := by
  have hnodup : ((wiring h k).map Prod.fst).Nodup := by
    have hmap : (wiring h k).map Prod.fst = (wiring 0 k).map Prod.fst := by cases k <;> rfl
    rw [hmap]
    cases k <;> decide
  exact List.inj_on_of_nodup_map hnodup hx hy hxy

/-! ## Slots and what is stored for them -/

namespace State

/-- The whole wiring of a kind is stored for a handle. Whether progress is reported counts only
where it is the library's own business. -/
def Wired (s : State) (h : Nat) (k : CallbackKind) (own : Prop) : Prop :=
  ∀ y ∈ wiring h k, (y.1 = .noProgress → own) → s.engine.setting? h y.1 = some y.2

/-- If a wrapper has a callback of a kind, then the engine is wired to call it. -/
def Serves (s : State) (id : WrapperId) (k : CallbackKind) (own : Prop) : Prop :=
  (s.wrapper id).slots.isInstalled k = true →
    ∃ h, (s.wrapper id).handle = some h ∧ s.Wired h k own

variable {s t : State} {id : WrapperId} {h : Nat} {k : CallbackKind} {own : Prop}

theorem Serves.of_slots (hs : (s.wrapper id).slots = {}) : s.Serves id k own := by
  intro hi
  rw [hs] at hi
  cases k <;> cases hi

theorem Serves.of_steady (hk : Steady s t id) (hs : s.Serves id k own) : t.Serves id k own := by
  intro hi
  rw [hk.slots] at hi
  obtain ⟨h, hh, hwired⟩ := hs hi
  refine ⟨h, hk.handle.trans hh, fun y hy hown ↦ ?_⟩
  rw [hk.setting? hh]
  exact hwired y hy hown

end State

section

variable {s t : State} {id : WrapperId} {h : Nat} {j k : CallbackKind} {own : Prop}
  {installed : Bool} {f : Slots → Slots} {done : List (OptionCode × Argument)}
  {r : Except Error Unit}

/-- If a kind has a callback after it was rewired, nothing but its wiring was stored; and then all
of it was, or there was a callback before. -/
theorem Wrapper.Rewiring.wired (hw : Rewiring h k installed f done r) {x : Slots}
    (hx : x.isInstalled k = installed) (hi : (f x).isInstalled k = true) :
    done <+: wiring h k ∧ (installed = true ∨ done = wiring h k) := by
  have hcleared (x : Slots) (hi : (x.clear k).isInstalled k = true) : False := by
    rw [Slots.isInstalled_clear, decide_eq_false fun hc ↦ hc rfl] at hi
    cases hi
  cases hw with
  | clear => exact (hcleared x hi).elim
  | install => exact ⟨List.prefix_refl _, .inr rfl⟩
  | refuse hr => exact ⟨hr.isPrefix, .inl (hx.symm.trans hi)⟩
  | feed hinst hxs hr => exact ⟨hr.isPrefix.trans hxs, .inl hinst⟩
  | serve => exact ⟨List.prefix_refl _, .inr rfl⟩
  | withdraw => exact (hcleared _ hi).elim
  | wait hinst =>
    rw [Slots.isInstalled_setData, hx, hinst] at hi
    cases hi

/-- Rewiring one kind leaves the slots of the others. -/
theorem Wrapper.Rewiring.isInstalled_of_ne (hw : Rewiring h j installed f done r) (hk : k ≠ j)
    (x : Slots) : (f x).isInstalled k = x.isInstalled k := by
  have hinstall {c : Callback} (hc : c.kind = j) (x : Slots) :
      (x.install c).isInstalled k = x.isInstalled k := by
    rw [Slots.isInstalled_install, hc, decide_eq_false (Ne.symm hk), Bool.false_or]
  have hclear (x : Slots) : (x.clear j).isInstalled k = x.isInstalled k := by
    rw [Slots.isInstalled_clear, decide_eq_true (Ne.symm hk), Bool.true_and]
  cases hw with
  | clear => exact hclear x
  | install hc => exact hinstall hc x
  | refuse => rfl
  | feed => rw [Slots.isInstalled_setData]
  | serve _ hc => rw [hinstall hc, Slots.isInstalled_setData]
  | withdraw _ hc => rw [hclear, hinstall hc, Slots.isInstalled_setData]
  | wait => rw [Slots.isInstalled_setData]

/-! ## Setting an option -/

theorem wrapper_rewired (hh : (s.wrapper id).handle = some h)
    (hd : Drift [] ((s.withSlots id f).storeAll id h done) t) :
    t.wrapper id = { s.wrapper id with slots := f (s.wrapper id).slots } := by
  rw [hd.wrapper, wrapper_storeAll, withSlots, wrapper_modifyWrapper s (isAlive_of_handle hh),
    if_pos rfl]

theorem serves_of_rewired (hh : (s.wrapper id).handle = some h)
    (hlive : s.engine.isLive h = true)
    (hw : Rewiring h j ((s.wrapper id).slots.isInstalled j) f done r)
    (hd : Drift [] ((s.withSlots id f).storeAll id h done) t) (hs : s.Serves id k own) :
    t.Serves id k own := by
  intro hi
  have hwrapper := wrapper_rewired hh hd
  rw [hwrapper] at hi
  have hlive' : (s.withSlots id f).engine.isLive h = true := hlive
  have hthere (hi : (s.wrapper id).slots.isInstalled k = true) : s.Wired h k own := by
    obtain ⟨g, hg, hwired⟩ := hs hi
    obtain rfl : g = h := Option.some.inj (hg.symm.trans hh)
    exact hwired
  refine ⟨h, ?_, fun y hy hown ↦ ?_⟩
  · rw [hwrapper]
    exact hh
  rw [hd.setting?]
  by_cases hk : k = j
  · subst hk
    obtain ⟨hpre, hor⟩ := hw.wired rfl hi
    -- Part of the wiring may have been stored over the whole of it, which makes no difference.
    apply setting?_storeAll _ _ _ _ hlive'
    · intro z hz hzy
      rw [wiring_unique (hpre.subset hz) hy hzy]
    · rcases hor with hinst | hall
      · exact .inl (hthere hinst y hy hown)
      · right
        rw [hall]
        exact hy
  · -- The other kind is wired by other options.
    rw [hw.isInstalled_of_ne hk] at hi
    refine (setting?_storeAll_of_ne _ _ _ _ _ fun _ z hz hzy ↦ ?_).trans (hthere hi y hy hown)
    exact hk (eq_of_mem_wiring (hw.option_of_mem hz) hy hzy.symm).symm

theorem serves_of_plain {o : OptionCode} {v : Value} (hh : (s.wrapper id).handle = some h)
    (ho : ∀ k : CallbackKind, k.functionOption ≠ o ∧ k.dataOption ≠ o)
    (hown : own → o ≠ .noProgress) (ha : AfterPlain s id h o v r t) (hs : s.Serves id k own) :
    t.Serves id k own := by
  obtain ⟨as, xs, ht, hxs⟩ := ha.touched
  have hwrapper := ht.wrapper (isAlive_of_handle hh)
  intro hi
  rw [hwrapper] at hi
  obtain ⟨g, hg, hwired⟩ := hs hi
  obtain rfl : g = h := Option.some.inj (hg.symm.trans hh)
  refine ⟨g, ?_, fun y hy hown' ↦ ?_⟩
  · rw [hwrapper]
    exact hh
  rw [ht.drift.setting?]
  refine (setting?_storeAll_of_ne _ _ _ _ _ fun _ z hz hyz ↦ ?_).trans (hwired y hy hown')
  obtain ⟨hf, hdata, hsize⟩ := CallbackKind.option_ne k
  rcases hxs z hz with hz | ⟨n, hz⟩
  · rcases mem_wiring hy with rfl | ⟨rfl, -⟩ | rfl
    · exact (ho k).2 (hyz.trans hz)
    · exact hown (hown' rfl) (hyz.trans hz).symm
    · exact (ho k).1 (hyz.trans hz)
  · rcases mem_wiring hy with rfl | ⟨rfl, -⟩ | rfl
    · exact (hsize n).2 (hyz.trans hz)
    · exact noProgress_ne_sizeOption n (hyz.trans hz)
    · exact (hsize n).1 (hyz.trans hz)

theorem serves_of_afterSetopt {o : OptionCode} {v : Value} (hh : (s.wrapper id).handle = some h)
    (hlive : s.engine.isLive h = true) (hown : own → o ≠ .noProgress)
    (ha : AfterSetopt s id h o v r t) (hs : s.Serves id k own) : t.Serves id k own := by
  cases ha with
  | refused hd => exact hs.of_steady (Keeps.of_drift_nil hd).toSteady
  | plain ho ha => exact serves_of_plain hh ho hown ha hs
  | rewired _ _ hw hd => exact serves_of_rewired hh hlive hw hd hs

end

/-! ## Runs -/

section

variable {s t : State} {x : Step} {r : Except Error WrapperId} {id : WrapperId} {k : CallbackKind}
  {own : Prop}

/-- Every step leaves a callback wired, or wires it, or takes it away. -/
theorem serves_step (hc : s.Coherent) (he : Effect s x r t)
    (hown : own → ∀ v, x ≠ .setopt id .noProgress v) (hs : s.Serves id k own) :
    t.Serves id k own := by
  cases he.fate hc id with
  | kept _ hk => exact hs.of_steady hk.toSteady
  | failed hd => exact hs.of_steady (Keeps.of_drift_nil hd).toSteady
  | @set h o v _ _ hh ha =>
    refine serves_of_afterSetopt hh (hc.live id h hh) (fun hp ↦ ?_) ha hs
    rintro rfl
    exact hown hp v rfl
  | begun _ hb => exact .of_slots hb.slots
  | bundled _ hb ha =>
    exact serves_of_afterSetopt hb.handle hb.live (fun _ ↦ by decide) ha (.of_slots hb.slots)
  | twinned _ hid _ _ hd =>
    refine .of_slots ?_
    rw [hd.wrapper, wrapper_storeAll, hid, wrapper_twin hc.numbered]
  | released _ hd => exact hs.of_steady (.of_cut hd)
  | ended _ _ hslots => exact .of_slots hslots

theorem State.Orderly.serves (hc : s.Coherent) (hs : s.Serves id k own) {xs : List Step}
    (ho : s.Orderly xs) (hown : own → ∀ v, Step.setopt id .noProgress v ∉ xs) :
    (s.after xs).Serves id k own := by
  refine ho.preserved hc (P := (·.Serves id k own))
    (Q := fun p ↦ own → ∀ v, p.step ≠ .setopt id .noProgress v) hs (fun hcoh he hx ih ↦
      serves_step hcoh he hx ih) fun p hp hp' v hx ↦ ?_
  have hmem := mem_of_mem_passages hp
  rw [hx] at hmem
  exact hown hp' v hmem

end

/-- Whatever is done with any number of wrappers, and whatever the engine makes of it: a callback
that a wrapper has is wired with its own trampoline and the wrapper's own handle, and a callback for
progress is not kept from being called, unless the caller sets that option himself. -/
theorem installed_callback_is_wired (policy : Policy) (host : Host) (settled : Settled)
    (hp : policy.Fresh) (steps : List Step) (id : WrapperId) (k : CallbackKind)
    (hi : (((State.start policy host settled).after steps).wrapper id).slots.isInstalled k = true) :
    ∃ h, (((State.start policy host settled).after steps).wrapper id).handle = some h ∧
      ((State.start policy host settled).after steps).engine.setting? h k.functionOption =
        some (.function (.trampoline k)) ∧
      ((State.start policy host settled).after steps).engine.setting? h k.dataOption =
        some (.pointer (.handle h)) ∧
      (k = .progress → (∀ v, Step.setopt id .noProgress v ∉ steps) →
        ((State.start policy host settled).after steps).engine.setting? h .noProgress =
          some (.integer 0)) := by
  have hc := Coherent.start policy host settled
  have hs : (State.start policy host settled).Serves id k
      (∀ v, Step.setopt id .noProgress v ∉ steps) := .of_slots rfl
  have ho := Orderly.of_policy hc hp steps
  obtain ⟨h, hh, hwired⟩ := ho.serves hc hs (fun hown ↦ hown) hi
  obtain ⟨hf, hd, -⟩ := CallbackKind.option_ne k
  refine ⟨h, hh, ?_, ?_, ?_⟩
  · refine hwired (k.functionOption, .function (.trampoline k)) ?_ fun hc ↦ absurd hc hf
    rw [wiring]
    simp
  · refine hwired (k.dataOption, .pointer (.handle h)) ?_ fun hc ↦ absurd hc hd
    exact List.mem_cons_self
  · rintro rfl hown
    exact hwired (.noProgress, .integer 0) (by simp [wiring]) fun _ ↦ hown

/-- A duplicate gets a callback of its own, under a handle of its own. -/
theorem duplicate_is_wired :
    ∃ h, (((State.start (Policy.guarded {}) .bare .bare).after
        [.create .inProcess, .setopt 0 .headerFunction (.function (.header .forward)), .duplicate 0,
          .setopt 1 .headerFunction (.function (.header .forward))]).wrapper 1).handle = some h ∧
      ((State.start (Policy.guarded {}) .bare .bare).after
        [.create .inProcess, .setopt 0 .headerFunction (.function (.header .forward)), .duplicate 0,
          .setopt 1 .headerFunction (.function (.header .forward))]).engine.setting? h .headerData =
        some (.pointer (.handle h)) := by
  obtain ⟨h, hh, -, hd, -⟩ := installed_callback_is_wired (Policy.guarded {}) .bare .bare
    (Policy.guarded_fresh {})
    [.create .inProcess, .setopt 0 .headerFunction (.function (.header .forward)), .duplicate 0,
      .setopt 1 .headerFunction (.function (.header .forward))] 1 .header (by decide +kernel)
  exact ⟨h, hh, hd⟩

end NativeTransfer
