import NativeTransfer.Proofs.Wired

/-!
# What a duplicate is rid of

The engine gives a duplicate every option of its source, the wiring of callbacks included, and what
has to be taken away again is told by the source's slots. That is enough as long as the engine holds
nothing of a wiring whose slot is empty. A setting that fails may leave it otherwise: a callback is
taken out of its slot before the engine is asked to let go of it, and one that is refused with its
function leaves its context behind. A duplicate of such a wrapper calls back in its source's name,
and of no other.

## What is frayed

A wrapper is frayed for a kind if it has no callback of that kind and the engine holds a part of the
wiring nevertheless, be it the trampoline or a handle for its context. A duplicate is rid of what
the source's slots tell, so it is left with a part of a wiring exactly if its source was frayed for
that kind. A run begins with no wrapper that could be frayed, and a step that succeeds frays none.
So it comes down to the failures: for each of them it is told what is left of the wiring, and
`Passage.Frays` names those that fray a wrapper which was not frayed before.
-/

namespace NativeTransfer

open State Wrapper

theorem exists_of_isOk {ε α : Type} {r : Except ε α} (hr : r.isOk = true) :
    ∃ a, r = .ok a := by
  cases r with
  | ok a => exact ⟨a, rfl⟩
  | error => cases hr

theorem Slots.mem_installed {s : Slots} {k : CallbackKind} :
    k ∈ s.installed ↔ s.isInstalled k = true := by
  rw [installed, List.mem_filter]
  exact and_iff_right (CallbackKind.mem_all k)

namespace State

/-! ## Parts of a wiring -/

/-- What the engine holds for a handle leads to another: the trampoline of a kind, or the address of
that other handle for its context. -/
def Routes (s : State) (h g : Nat) (k : CallbackKind) : Prop :=
  s.engine.setting? h k.dataOption = some (.pointer (.handle g)) ∨
    s.engine.setting? h k.functionOption = some (.function (.trampoline k))

instance (s : State) (h g : Nat) (k : CallbackKind) : Decidable (s.Routes h g k) :=
  inferInstanceAs (Decidable (_ ∨ _))

/-- A wrapper has no callback of a kind, and the engine holds a part of the wiring of one. -/
def Frayed (s : State) (id : WrapperId) (k : CallbackKind) : Prop :=
  (s.wrapper id).slots.isInstalled k = false ∧
    ∃ h g, (s.wrapper id).handle = some h ∧ s.Routes h g k

variable {s t : State} {id : WrapperId} {h h' g : Nat} {k : CallbackKind}
  {xs : List (OptionCode × Argument)}

theorem Routes.of_setting? (hr : t.Routes h' g k)
    (hd : t.engine.setting? h' k.dataOption = s.engine.setting? h k.dataOption)
    (hf : t.engine.setting? h' k.functionOption = s.engine.setting? h k.functionOption) :
    s.Routes h g k := by
  rw [Routes, hd, hf] at hr
  exact hr

theorem routes_storeAll (hxs : ∀ x ∈ xs, x.1 ≠ k.dataOption ∧ x.1 ≠ k.functionOption) :
    (s.storeAll id h xs).Routes h' g k ↔ s.Routes h' g k := by
  have hd := setting?_storeAll_of_ne (s := s) id h h' k.dataOption xs fun _ x hx ↦ (hxs x hx).1.symm
  have hf := setting?_storeAll_of_ne (s := s) id h h' k.functionOption xs
    fun _ x hx ↦ (hxs x hx).2.symm
  rw [Routes, hd, hf]
  rfl

theorem Frayed.of_steady (hk : Steady s t id) (hf : t.Frayed id k) : s.Frayed id k := by
  obtain ⟨hi, h, g, hh, hr⟩ := hf
  rw [hk.slots] at hi
  rw [hk.handle] at hh
  exact ⟨hi, h, g, hh, hr.of_setting? (hk.setting? hh _) (hk.setting? hh _)⟩

theorem Blank.not_frayed (hb : s.Blank id h) : ¬ s.Frayed id k := by
  rintro ⟨-, h', g, hh, hr⟩
  obtain rfl : h = h' := Option.some.inj (hb.handle.symm.trans hh)
  have hnone (o : OptionCode) : s.engine.setting? h o = none := by
    rw [Engine.setting?, hb.table]
    rfl
  rw [Routes, hnone, hnone] at hr
  rcases hr with hr | hr
  · cases hr
  · cases hr

/-! ## Taking a wiring away -/

theorem ne_options {j : CallbackKind} (hjk : j ≠ k) {x : OptionCode × Argument}
    (hx : x.1 = j.dataOption ∨ x.1 = .noProgress ∧ j = .progress ∨ x.1 = j.functionOption) :
    x.1 ≠ k.dataOption ∧ x.1 ≠ k.functionOption := by
  constructor
  · exact fun he ↦ hjk (eq_of_mem_wiring hx (h := 0) List.mem_cons_self he)
  · have hk : (k.functionOption, Argument.function (.trampoline k)) ∈ wiring 0 k :=
      List.mem_cons_of_mem _ (List.mem_append_right _ (List.mem_singleton.2 rfl))
    exact fun he ↦ hjk (eq_of_mem_wiring hx hk he)

theorem option_of_mem_unwiring {x : OptionCode × Argument} (hx : x ∈ unwiring k) :
    x.1 = k.dataOption ∨ x.1 = .noProgress ∧ k = .progress ∨ x.1 = k.functionOption := by
  rcases mem_unwiring hx with rfl | rfl | ⟨rfl, hk⟩
  · exact .inr (.inr rfl)
  · exact .inl rfl
  · exact .inr (.inl ⟨rfl, hk⟩)

/-- After the wirings of some kinds were taken away, what is left leads where it led. -/
theorem routes_unwired (hlive : s.engine.isLive h = true) (ks : List CallbackKind) :
    (s.storeAll id h (ks.flatMap unwiring)).Routes h g k ↔ k ∉ ks ∧ s.Routes h g k := by
  by_cases hk : k ∈ ks
  · refine iff_of_false ?_ fun hr ↦ hr.1 hk
    -- Function and context of the kind are null, whichever other kinds are on the list.
    have hnull {o : OptionCode} {x : Argument} (hx : (o, x) ∈ unwiring k)
        (ho : ∀ j, ∀ z ∈ unwiring j, z.1 = o → z.2 = x) :
        (s.storeAll id h (ks.flatMap unwiring)).engine.setting? h o = some x := by
      refine setting?_storeAll _ _ _ _ hlive (fun z hz hzo ↦ ?_) (.inr ?_)
      · obtain ⟨j, -, hj⟩ := List.mem_flatMap.1 hz
        exact ho j z hj hzo
      · exact List.mem_flatMap.2 ⟨k, hk, hx⟩
    have hd := hnull (o := k.dataOption) (x := .pointer .null)
      (List.mem_cons_of_mem _ List.mem_cons_self) fun j z hz hzo ↦ by
        rcases mem_unwiring hz with rfl | rfl | ⟨rfl, -⟩
        · exact absurd hzo (CallbackKind.functionOption_ne_dataOption j k)
        · rfl
        · exact absurd hzo.symm (CallbackKind.option_ne k).2.1
    have hf := hnull (o := k.functionOption) (x := .function .null) List.mem_cons_self
      fun j z hz hzo ↦ by
        rcases mem_unwiring hz with rfl | rfl | ⟨rfl, -⟩
        · rfl
        · exact absurd hzo.symm (CallbackKind.functionOption_ne_dataOption k j)
        · exact absurd hzo.symm (CallbackKind.option_ne k).1
    rw [Routes, hd, hf]
    rintro (hr | hr)
    · cases hr
    · cases hr
  · rw [and_iff_right hk]
    refine routes_storeAll fun x hx ↦ ?_
    obtain ⟨j, hj, hx⟩ := List.mem_flatMap.1 hx
    refine ne_options (fun he ↦ hk ?_) (option_of_mem_unwiring hx)
    exact he ▸ hj

end State

/-! ## Setting an option -/

section

variable {s t : State} {id : WrapperId} {h : Nat} {j k : CallbackKind} {installed : Bool}
  {f : Slots → Slots} {done : List (OptionCode × Argument)} {r : Except Error Unit}

/-- If a kind has no callback after it was rewired with success, its wiring was taken away, or there
was no callback before and at most the context was taken away. -/
theorem Wrapper.Rewiring.unwired (hw : Rewiring h k installed f done (.ok ())) {x : Slots}
    (hx : x.isInstalled k = installed) (hi : (f x).isInstalled k = false) :
    done = unwiring k ∨
      installed = false ∧ (done = [] ∨ done = [(k.dataOption, .pointer .null)]) := by
  have hthere {c : Callback} (hc : c.kind = k) {y : Slots}
      (hi : (y.install c).isInstalled k = false) : False := by
    rw [Slots.isInstalled_install, hc, decide_eq_true rfl, Bool.true_or] at hi
    cases hi
  cases hw with
  | clear hr =>
    cases hr
    exact .inl rfl
  | install hc => exact (hthere hc hi).elim
  | feed hinst =>
    rw [Slots.isInstalled_setData, hx, hinst] at hi
    cases hi
  | serve _ hc => exact (hthere hc hi).elim
  | wait hinst hxs hr =>
    cases hr
    exact .inr ⟨hinst, hxs⟩

theorem not_frayed_of_rewired (hh : (s.wrapper id).handle = some h)
    (hlive : s.engine.isLive h = true)
    (hw : Rewiring h j ((s.wrapper id).slots.isInstalled j) f done r)
    (hd : Drift [] ((s.withSlots id f).storeAll id h done) t) (hr : r.isOk = true ∨ j ≠ k)
    (hs : ¬ s.Frayed id k) : ¬ t.Frayed id k := by
  rintro ⟨hi, h', g, hh', hroutes⟩
  rw [wrapper_rewired hh hd] at hi hh'
  obtain rfl : h = h' := Option.some.inj (hh.symm.trans hh')
  have hroutes := hroutes.of_setting? (hd.setting? h _) (hd.setting? h _)
  have hlive' : (s.withSlots id f).engine.isLive h = true := hlive
  by_cases hjk : j = k
  · subst hjk
    obtain ⟨_, rfl⟩ := exists_of_isOk (hr.resolve_right fun hne ↦ hne rfl)
    rcases hw.unwired rfl hi with rfl | ⟨hinst, hdone⟩
    · rw [← List.flatMap_singleton unwiring j, routes_unwired hlive'] at hroutes
      exact hroutes.1 (List.mem_singleton.2 rfl)
    · -- The slot was empty before, so the engine held nothing then.
      have hnone : ¬ s.Routes h g j := fun hr ↦ hs ⟨hinst, h, g, hh, hr⟩
      rcases hdone with rfl | rfl
      · exact hnone hroutes
      · rcases hroutes with hr | hr
        · rw [storeAll, List.foldl_cons, List.foldl_nil, setting?_store _ _ _ _ _ _ hlive',
            if_pos ⟨rfl, rfl⟩] at hr
          cases hr
        · rw [setting?_storeAll_of_ne] at hr
          · exact hnone (.inr hr)
          · intro _ x hx
            rw [List.mem_singleton.1 hx]
            exact CallbackKind.functionOption_ne_dataOption j j
  · rw [hw.isInstalled_of_ne (Ne.symm hjk)] at hi
    rw [routes_storeAll fun x hx ↦ ne_options hjk (hw.option_of_mem hx)] at hroutes
    exact hs ⟨hi, h, g, hh, hroutes⟩

theorem not_frayed_of_plain {o : OptionCode} {v : Value} (hh : (s.wrapper id).handle = some h)
    (ho : ∀ k : CallbackKind, k.functionOption ≠ o ∧ k.dataOption ≠ o)
    (ha : AfterPlain s id h o v r t) (hs : ¬ s.Frayed id k) : ¬ t.Frayed id k := by
  obtain ⟨as, xs, ht, hxs⟩ := ha.touched
  have hwrapper := ht.wrapper (isAlive_of_handle hh)
  rintro ⟨hi, h', g, hh', hroutes⟩
  rw [hwrapper] at hi hh'
  have hroutes := hroutes.of_setting? (ht.drift.setting? h' _) (ht.drift.setting? h' _)
  rw [routes_storeAll] at hroutes
  · exact hs ⟨hi, h', g, hh', hroutes⟩
  · intro x hx
    obtain ⟨-, -, hsize⟩ := CallbackKind.option_ne k
    rcases hxs x hx with he | ⟨n, he⟩
    · rw [he]
      exact ⟨(ho k).2.symm, (ho k).1.symm⟩
    · rw [he]
      exact ⟨(hsize n).2.symm, (hsize n).1.symm⟩

theorem not_frayed_of_afterSetopt {o : OptionCode} {v : Value}
    (hh : (s.wrapper id).handle = some h) (hlive : s.engine.isLive h = true)
    (ha : AfterSetopt s id h o v r t)
    (hr : r.isOk = true ∨ o ≠ k.functionOption ∧ o ≠ k.dataOption) (hs : ¬ s.Frayed id k) :
    ¬ t.Frayed id k := by
  cases ha with
  | refused hd => exact fun hf ↦ hs (hf.of_steady (Keeps.of_drift_nil hd).toSteady)
  | plain ho ha => exact not_frayed_of_plain hh ho ha hs
  | @rewired j _ _ _ _ ho _ hw hd =>
    refine not_frayed_of_rewired hh hlive hw hd (hr.imp_right ?_) hs
    rintro ⟨hf, hdata⟩ rfl
    exact ho.elim hf hdata

end

/-! ## Duplicates -/

section

variable {s t : State} {id : WrapperId} {g h : Nat}

/-- What a duplicate keeps of its source's wiring is what no slot of the source accounts for. -/
theorem routes_twinned (hc : s.Coherent) (hg : (s.wrapper id).handle = some g)
    (hnew : s.engine.settings? h = none)
    (hd : Drift [] ((s.twin id g h).storeAll s.opened h
      ((s.wrapper id).slots.installed.flatMap unwiring)) t) :
    (t.wrapper s.opened).handle = some h ∧ ∀ g' k, t.Routes h g' k ↔
      (s.wrapper id).slots.isInstalled k = false ∧ s.Routes g g' k := by
  have hh : ((s.twin id g h).wrapper s.opened).handle = some h := by rw [wrapper_twin hc.numbered]
  have hlive := (hc.twin hnew (mem_ids_of_handle hg)).live s.opened h hh
  refine ⟨?_, fun g' k ↦ ?_⟩
  · rw [hd.wrapper, wrapper_storeAll]
    exact hh
  · rw [Routes, hd.setting?, hd.setting?]
    refine (routes_unwired hlive _).trans (and_congr ?_ ?_)
    · rw [Slots.mem_installed, Bool.not_eq_true]
    · rw [Routes, setting?_twin hc hg, setting?_twin hc hg]
      rfl

end

/-! ## Runs -/

/-- A setting of an option of a kind fails, and leaves the wrapper frayed that was not before. -/
def Passage.Frays (p : Passage) (k : CallbackKind) : Prop :=
  ∃ id o v, p.step = .setopt id o v ∧ (o = k.functionOption ∨ o = k.dataOption) ∧
    p.result.isOk = false ∧ ¬ p.before.Frayed id k ∧ p.after.Frayed id k

section

variable {s t : State} {x : Step} {r : Except Error WrapperId} {k : CallbackKind}

/-- A step that frays no wrapper by a failure frays none at all. -/
theorem not_frayed_step (hc : s.Coherent) (he : Effect s x r t)
    (hx : ¬ Passage.Frays ⟨x, s, r, t⟩ k) (hs : ∀ id, ¬ s.Frayed id k) (id : WrapperId) :
    ¬ t.Frayed id k := by
  cases he.fate hc id with
  | kept _ hk => exact fun hf ↦ hs id (hf.of_steady hk.toSteady)
  | failed hd => exact fun hf ↦ hs id (hf.of_steady (Keeps.of_drift_nil hd).toSteady)
  | @set h o v r _ hh ha =>
    by_cases hr : r.isOk = true ∨ o ≠ k.functionOption ∧ o ≠ k.dataOption
    · exact not_frayed_of_afterSetopt hh (hc.live id h hh) ha hr (hs id)
    · obtain ⟨hr, ho⟩ := not_or.1 hr
      refine fun hf ↦ hx ⟨id, o, v, rfl, ?_, ?_, hs id, hf⟩
      · rw [not_and_or, not_not, not_not] at ho
        exact ho
      · cases r with
        | ok => exact absurd rfl hr
        | error => rfl
  | begun _ hb => exact hb.not_frayed
  | bundled _ hb ha =>
    refine not_frayed_of_afterSetopt hb.handle hb.live ha (.inr ?_) hb.not_frayed
    cases k <;> decide
  | @twinned i g h _ _ hid hg hnew hd =>
    subst hid
    obtain ⟨hh, hiff⟩ := routes_twinned hc hg hnew hd
    rintro ⟨-, h', g', hh', hroutes⟩
    obtain rfl : h = h' := Option.some.inj (hh.symm.trans hh')
    obtain ⟨hi, hroutes⟩ := (hiff g' k).1 hroutes
    exact hs i ⟨hi, g, g', hg, hroutes⟩
  | released _ hd => exact fun hf ↦ hs id (hf.of_steady (.of_cut hd))
  | ended _ hh _ =>
    rintro ⟨-, h, g, hh', -⟩
    rw [hh] at hh'
    cases hh'

theorem State.Orderly.not_frayed (hc : s.Coherent) (hs : ∀ id, ¬ s.Frayed id k) {xs : List Step}
    (ho : s.Orderly xs) (hxs : ∀ p ∈ passages s xs, ¬ p.Frays k) (id : WrapperId) :
    ¬ (s.after xs).Frayed id k :=
  ho.preserved hc (P := fun s ↦ ∀ id, ¬ s.Frayed id k) hs (fun hcoh he hx ih ↦
    not_frayed_step hcoh he hx ih) hxs id

end

/-- Whatever was done before with any number of wrappers, and whatever the engine made of it: the
callbacks of a kind lead from a duplicate to its source exactly if they do so within the source,
which has none of them in its slot; and that takes a setting of the kind that has failed. -/
theorem duplicate_routes_to_source_iff (policy : Policy) (host : Host) (settled : Settled)
    (hp : policy.Fresh) (steps : List Step) (id copy : WrapperId)
    (hr : ((Step.duplicate id).pass ((State.start policy host settled).after steps)).result =
      .ok copy) :
    ∃ g h, (((State.start policy host settled).after steps).wrapper id).handle = some g ∧
      (((State.start policy host settled).after (steps ++ [.duplicate id])).wrapper copy).handle =
        some h ∧
      ∀ k, (((State.start policy host settled).after (steps ++ [.duplicate id])).Routes h g k ↔
          (((State.start policy host settled).after steps).wrapper id).slots.isInstalled k = false ∧
          ((State.start policy host settled).after steps).Routes g g k) ∧
        (((State.start policy host settled).after (steps ++ [.duplicate id])).Routes h g k →
          ∃ p ∈ passages (.start policy host settled) steps, p.Frays k) := by
  have hc := Coherent.start policy host settled
  have ho := Orderly.of_policy hc hp (steps ++ [.duplicate id])
  obtain ⟨hcoh, he⟩ := ho.effect hc
  rw [after_concat]
  rw [hr] at he
  cases he with
  | request hx => cases hx
  | @twinned _ g h _ hg hnew hd =>
    obtain ⟨hh, hiff⟩ := routes_twinned hcoh hg hnew hd
    refine ⟨g, h, hg, hh, fun k ↦ ⟨hiff g k, fun hroutes ↦ ?_⟩⟩
    obtain ⟨hi, hroutes⟩ := (hiff g k).1 hroutes
    by_contra hnone
    refine ho.of_append.not_frayed hc (k := k) ?_ ?_ id ⟨hi, g, g, hg, hroutes⟩
    · rintro j ⟨-, h, g, hh, -⟩
      cases hh
    · exact fun p hp hf ↦ hnone ⟨p, hp, hf⟩

/-- A duplicate of a wrapper with a callback does not lead to it. -/
theorem duplicate_is_detached :
    ∃ g h, (((State.start (Policy.guarded {}) .bare .bare).after
        [.create .inProcess, .setopt 0 .headerFunction (.function (.header .forward))]).wrapper
          0).handle = some g ∧
      ∀ k, ¬ ((State.start (Policy.guarded {}) .bare .bare).after
        ([.create .inProcess, .setopt 0 .headerFunction (.function (.header .forward))] ++
          [.duplicate 0])).Routes h g k := by
  obtain ⟨copy, hcopy⟩ : ∃ copy, ((Step.duplicate 0).pass ((State.start (Policy.guarded {}) .bare
      .bare).after [.create .inProcess,
        .setopt 0 .headerFunction (.function (.header .forward))])).result = .ok copy :=
    exists_of_isOk (by decide +kernel)
  obtain ⟨g, h, hg, -, hk⟩ := duplicate_routes_to_source_iff (Policy.guarded {}) .bare .bare
    (Policy.guarded_fresh {})
    [.create .inProcess, .setopt 0 .headerFunction (.function (.header .forward))] 0 copy hcopy
  refine ⟨g, h, hg, fun k hr ↦ ?_⟩
  -- Both steps succeed, so neither of them frays anything.
  obtain ⟨p, hp, id, o, v, hstep, -, hfailed, -⟩ := (hk k).2 hr
  rcases List.mem_cons.1 hp with rfl | hp
  · cases hstep
  · rw [List.mem_singleton.1 hp] at hfailed
    have hok : ((Step.setopt 0 .headerFunction (.function (.header .forward))).pass
        ((Step.create .inProcess).pass (State.start (Policy.guarded {}) .bare
          .bare)).after).result.isOk = true := by decide +kernel
    rw [hok] at hfailed
    cases hfailed

/-- The engine does not let go of a callback that its wrapper has given up already, and calls it for
the duplicate too. -/
theorem refused_clear_routes_duplicate_to_source :
    ((Step.duplicate 0).pass ((State.start
      { verdict := fun _ _ o x ↦ if o = .headerFunction ∧ x = .function .null then 43 else 0 }
      .bare .bare).after [.create .inProcess,
        .setopt 0 .headerFunction (.function (.header .forward)),
        .setopt 0 .headerFunction .null])).result.isOk = true ∧
    ((State.start
      { verdict := fun _ _ o x ↦ if o = .headerFunction ∧ x = .function .null then 43 else 0 }
      .bare .bare).after [.create .inProcess,
        .setopt 0 .headerFunction (.function (.header .forward)),
        .setopt 0 .headerFunction .null, .duplicate 0]).Routes 1 0 .header := by
  decide +kernel

end NativeTransfer
