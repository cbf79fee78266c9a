import NativeTransfer.Proofs.Detached
import NativeTransfer.Proofs.PostBody

/-!
# What a duplicate inherits

The engine gives a duplicate every address that it holds for the source, and the two ledgers share
lists and buffers, so that either may go first. Texts are not shared, since the engine copies them
for a duplicate. The body of a post it does not copy: there the duplicate is left with an address
that only its source records, if the body was set as a text.

## Sparing

What is stated for a duplicate is stated for as long as nobody touches its body: no step sets that
option on it, resets it, ends it, or cuts its ledger from the outside. Any such step says so by its
form (`Step.spares`), and what every other step preserves is preserved by all of them in a row. The
beginning of a duplicate is a matter of the two ledgers: the shared part of the source's is recorded
for the duplicate, and the copy behind a text is no part of it.
-/

namespace NativeTransfer

open State Wrapper

/-- A wrapper's own ledger records the address that the engine holds for an option. -/
def State.Holds (s : State) (id : WrapperId) (o : OptionCode) : Prop :=
  ∃ h, h ∈ (s.wrapper id).handle ∧ ∃ a ∈ (s.wrapper id).ledger,
    s.engine.setting? h o = some (.pointer a.address)

instance (s : State) (id : WrapperId) (o : OptionCode) : Decidable (s.Holds id o) :=
  inferInstanceAs (Decidable (∃ h, h ∈ (s.wrapper id).handle ∧ ∃ a ∈ (s.wrapper id).ledger, _))

/-- Whether a step neither sets an option of a wrapper, nor takes all of them away, nor what the
wrapper keeps for them. -/
def Step.spares (id : WrapperId) (o : OptionCode) : Step → Bool
  | .setopt j o' _ => j ≠ id || o' ≠ o
  | .reset j | .release j _ | .cleanup j | .drop j => j ≠ id
  | _ => true

section

variable {s t : State} {id : WrapperId} {g h : Nat} {o : OptionCode} {v : Value} {x : Step}
  {r : Except Error WrapperId}

theorem State.Backs.holds (hb : s.Backs id o v) : s.Holds id o := by
  obtain ⟨h, hh, a, ha, hset, -⟩ := hb
  exact ⟨h, hh, a, ha, hset⟩

/-! ## The beginning of a duplicate -/

theorem setting?_twinned (hc : s.Coherent) (hg : (s.wrapper id).handle = some g)
    (hd : Drift [] ((s.twin id g h).storeAll s.opened h
      ((s.wrapper id).slots.installed.flatMap unwiring)) t) (ho : o.HoldsMemory) :
    t.engine.setting? h o = s.engine.setting? g o := by
  rw [hd.setting?, setting?_storeAll_of_ne, setting?_twin hc hg]
  rintro - x hx rfl
  obtain ⟨k, -, hx⟩ := List.mem_flatMap.1 hx
  rcases option_of_mem_unwiring hx with he | ⟨he, -⟩ | he
  · exact ho.2 k he.symm
  · exact not_holdsMemory_noProgress (he ▸ ho)
  · exact not_holdsMemory_functionOption k (he ▸ ho)

theorem wrapper_twinned (hc : s.Coherent)
    (hd : Drift [] ((s.twin id g h).storeAll s.opened h
      ((s.wrapper id).slots.installed.flatMap unwiring)) t) :
    (t.wrapper s.opened).handle = some h ∧
      (t.wrapper s.opened).ledger = (s.wrapper id).ledger.shared := by
  rw [hd.wrapper, wrapper_storeAll, wrapper_twin hc.numbered]
  exact ⟨rfl, rfl⟩

/-- What is backed for the source, and is no text, is backed for the duplicate. -/
theorem State.Backs.twinned (hc : s.Coherent) (hg : (s.wrapper id).handle = some g)
    (hnew : s.engine.settings? h = none)
    (hd : Drift [] ((s.twin id g h).storeAll s.opened h
      ((s.wrapper id).slots.installed.flatMap unwiring)) t) (ho : o.HoldsMemory)
    (hv : ∀ x, v ≠ .text x) (hb : s.Backs id o v) : t.Backs s.opened o v := by
  obtain ⟨g', hg', a, ha, hset, hcar⟩ := hb
  obtain rfl : g = g' := Option.some.inj (hg.symm.trans hg')
  obtain ⟨hh, hledger⟩ := wrapper_twinned hc hd
  have hshare : a.isShareable = true := by
    cases hcar with
    | text => exact absurd rfl (hv _)
    | bytes ha' =>
      rcases a with _ | ⟨_, _ | _⟩ | _
      · cases ha'
      · cases ha'
      · cases ha'
      · rfl
    | list ha' =>
      rcases a with _ | _ | _
      · cases ha'
      · rfl
      · cases ha'
  refine ⟨h, hh, a, ?_, ?_, hcar.of_lists fun n hn l hl ↦ ?_⟩
  · rw [hledger]
    exact List.mem_filter.2 ⟨ha, hshare⟩
  · rw [setting?_twinned hc hg hd ho]
    exact hset
  · refine hd.lists n List.not_mem_nil l ?_
    rw [list?_storeAll]
    exact (hc.keeps_twin hnew id g (hc.opened_ne (mem_ids_of_handle hg))).lists a ha n hn l hl

/-- The engine holds a copy of a text for an option. -/
def State.Lends (s : State) (id : WrapperId) (o : OptionCode) (y : String) : Prop :=
  ∃ h n, (s.wrapper id).handle = some h ∧
    s.engine.setting? h o = some (.pointer (.copy n y))

theorem abides_lends (id : WrapperId) (ho : o.HoldsMemory) (y : String) :
    Abides id o fun s ↦ s.Lends id o y where
  keeps hk := by
    rintro ⟨h, n, hh, hset⟩
    exact ⟨h, n, hk.handle.trans hh, (hk.setting? hh o).trans hset⟩
  other hh hne ha := by
    rintro ⟨h, n, hh', hset⟩
    obtain ⟨f, as, xs, ht⟩ := ha.touched
    obtain rfl := Option.some.inj (hh.symm.trans hh')
    exact ⟨_, n, ha.handle hh, (ht.setting? hne.symm ho).trans hset⟩
  released _ _ _ hd := by
    rintro ⟨h, n, hh, hset⟩
    have hk : Steady _ _ id := .of_cut hd
    exact ⟨h, n, hk.handle.trans hh, (hk.setting? hh o).trans hset⟩

theorem lends_of_afterSetopt {y : String} (hh : (s.wrapper id).handle = some h)
    (hlive : s.engine.isLive h = true) (ha : AfterSetopt s id h o (.text y) (.ok ()) t) :
    t.Lends id o y := by
  have hhandle := ha.handle hh
  cases ha with
  | rewired _ hv => cases hv
  | plain _ ha =>
    cases ha with
    | bare hv => cases hv
    | @text _ n _ _ _ _ hd =>
      refine ⟨h, n, hhandle, ?_⟩
      have hlive' : (s.recordAll id [.text n y]).engine.isLive h = true := hlive
      rw [hd.setting?, setting?_store _ _ _ _ _ _ hlive', if_pos ⟨rfl, rfl⟩]

/-- A duplicate records no text of its source's. -/
theorem State.Lends.not_holds_twinned {y : String} (hc : s.Coherent)
    (hg : (s.wrapper id).handle = some g)
    (hd : Drift [] ((s.twin id g h).storeAll s.opened h
      ((s.wrapper id).slots.installed.flatMap unwiring)) t) (ho : o.HoldsMemory)
    (hl : s.Lends id o y) : ¬ t.Holds s.opened o := by
  rintro ⟨h', hh', a, ha, hset⟩
  obtain ⟨g', n, hg', hcopy⟩ := hl
  obtain ⟨hh, hledger⟩ := wrapper_twinned hc hd
  obtain rfl : g = g' := Option.some.inj (hg.symm.trans hg')
  obtain rfl : h = h' := Option.some.inj (hh.symm.trans hh')
  rw [setting?_twinned hc hg hd ho, hcopy] at hset
  rw [hledger] at ha
  have hshare : a.isShareable = true := (List.mem_filter.1 ha).2
  have haddress : Address.copy n y = a.address := by injection Option.some.inj hset
  rcases a with _ | ⟨_, _ | _⟩ | _
  · cases hshare
  · cases haddress
  · cases haddress
  · cases haddress

/-! ## What becomes of a duplicate -/

/-- Steps that spare an option change nothing that abides. -/
theorem Abides.spared {Q : State → Prop} (hq : Abides id o Q) (hid : Q s → id ∈ s.ids)
    (hc : s.Coherent) (he : Effect s x r t) (hx : x.spares id o = true) (hs : Q s) : Q t := by
  have hopened : x.makes = true → id ≠ s.opened := fun _ ↦ hc.opened_ne (hid hs)
  by_cases htarget : x.target? = some id
  · cases he with
    | request hr =>
      rw [(Step.of_isRequest hr).1] at htarget
      cases htarget
    | failed hd => exact hq.keeps (.of_drift_nil hd) hs
    | @set j h o' v _ _ hh ha =>
      obtain rfl : j = id := Option.some.inj htarget
      have hne : o' ≠ o := by simpa [Step.spares] using hx
      exact hq.other hh hne ha hs
    | made | bundled | twinned | undone => cases htarget
    | wiped | released | cleaned | dropped =>
      exact absurd (Option.some.inj htarget) (of_decide_eq_true hx)
  · exact hq.keeps (he.keeps hc hopened htarget) hs

theorem Abides.after {Q : State → Prop} (hq : Abides id o Q) (hid : ∀ s, Q s → id ∈ s.ids)
    (hc : s.Coherent) {xs : List Step} (ho : s.Orderly xs)
    (hxs : ∀ x ∈ xs, x.spares id o = true) (hs : Q s) : Q (s.after xs) := by
  refine ho.preserved hc (P := Q) (Q := fun p ↦ p.step.spares id o = true) hs
    (fun hcoh he hx ih ↦ hq.spared (hid _) hcoh he hx ih) fun p hp ↦ hxs _ (mem_of_mem_passages hp)

end

/-- A body that stands for a wrapper is held by each duplicate of it until the duplicate itself is
given another, is reset or ends, or has its ledger cut, exactly if it is a buffer. Before that a
caller who cuts a ledger leaves in it what the engine still points to. -/
theorem duplicate_holds_body_iff (policy : Policy) (host : Host) (settled : Settled)
    (hp : policy.Fresh) (steps : List Step)
    (hsafe : ∀ p ∈ passages (.start policy host settled) steps, p.IsSafe) (id copy : WrapperId)
    (v : Value) (hv : v.isBody = true)
    (hs : standing id .postFields (passages (.start policy host settled) steps) = some v)
    (hr : ((Step.duplicate id).pass ((State.start policy host settled).after steps)).result =
      .ok copy) :
    (∀ later : List Step, (∀ x ∈ later, x.spares copy .postFields = true) →
      ((State.start policy host settled).after (steps ++ .duplicate id :: later)).Holds copy
        .postFields) ↔
    ∃ b, v = .bytes b := by
  have hc := Coherent.start policy host settled
  have ho := Orderly.of_policy hc hp (steps ++ [.duplicate id])
  have hbody : OptionCode.postFields.HoldsMemory :=
    ⟨rfl, fun k ↦ by cases k <;> decide⟩
  obtain ⟨hcoh, he⟩ := ho.effect hc
  have hend := ho.coherent hc
  have hpolicy : ((State.start policy host settled).after (steps ++ [.duplicate id])).policy =
      policy := hc.numbered.policy_after _
  have hafter (later : List Step) :
      (State.start policy host settled).after (steps ++ .duplicate id :: later) =
        ((Step.duplicate id).pass ((State.start policy host settled).after steps)).after.after
          later := by
    rw [List.append_cons, after_append, after_concat]
  simp only [hafter]
  rw [after_concat] at hend hpolicy
  rw [hr] at he
  generalize ((Step.duplicate id).pass ((State.start policy host settled).after steps)).after = t
    at he hend hpolicy ⊢
  cases he with
  | request hx => cases hx
  | @twinned _ g h _ hg hnew hd =>
    cases v with
    | text y =>
      refine iff_of_false (fun hall ↦ ?_) nofun
      have hl := (abides_lends id hbody y).stands
        (fun _ _ _ hh hlive ha ↦ lends_of_afterSetopt hh hlive ha) hc ho.of_append hsafe hs
      exact hl.not_holds_twinned hcoh hg hd hbody (hall [] (List.forall_mem_nil _))
    | bytes b =>
      refine iff_of_true (fun later hspares ↦ ?_) ⟨b, rfl⟩
      have hb := (ho.of_append.backs hc (v := .bytes b) hsafe hv hs).2.twinned hcoh hg hnew hd hbody
        fun _ h ↦ by cases h
      have hlater := Orderly.of_policy hend (hpolicy ▸ hp) later
      exact ((abides_backs _ _ (.bytes b)).after (fun _ ⟨_, _, hh, _⟩ ↦ mem_ids_of_handle hh) hend
        hlater hspares ⟨hbody, hb⟩).2.holds
    | null | long | bool | list | function | sink | source | data | pointer => cases hv

/-- A buffer that two wrappers share outlives the first of them. -/
theorem buffer_outlives_source :
    ((Step.duplicate 0).pass ((State.start (Policy.guarded {}) .bare .bare).after
      [.create .inProcess, .setopt 0 .postFields (.bytes ⟨0, [1, 2]⟩)])).result.toOption = some 1 ∧
    ((State.start (Policy.guarded {}) .bare .bare).after
      ([.create .inProcess, .setopt 0 .postFields (.bytes ⟨0, [1, 2]⟩)] ++ .duplicate 0 ::
        [.reset 0, .setopt 1 .url (.text "a"), .drop 0])).Holds 1 .postFields := by
  have hone : ((Step.duplicate 0).pass ((State.start (Policy.guarded {}) .bare .bare).after
      [.create .inProcess, .setopt 0 .postFields (.bytes ⟨0, [1, 2]⟩)])).result.toOption =
        some 1 := by
    decide +kernel
  refine ⟨hone, ?_⟩
  obtain ⟨copy, hcopy⟩ : ∃ copy, ((Step.duplicate 0).pass ((State.start (Policy.guarded {}) .bare
      .bare).after [.create .inProcess, .setopt 0 .postFields (.bytes ⟨0, [1, 2]⟩)])).result =
        .ok copy := exists_of_isOk (by decide +kernel)
  rw [hcopy] at hone
  obtain rfl : copy = 1 := Option.some.inj hone
  exact (duplicate_holds_body_iff (Policy.guarded {}) .bare .bare (Policy.guarded_fresh {})
    [.create .inProcess, .setopt 0 .postFields (.bytes ⟨0, [1, 2]⟩)]
    (isSafe_of_forall (by decide)) 0 1 (.bytes ⟨0, [1, 2]⟩) rfl rfl hcopy).2 ⟨_, rfl⟩ _ (by decide)

/-- A text does not. The engine is left with an address for the duplicate that no ledger records. -/
theorem text_does_not_outlive_source :
    ((Step.duplicate 0).pass ((State.start (Policy.guarded {}) .bare .bare).after
      [.create .inProcess, .setopt 0 .postFields (.text "a")])).result.isOk = true ∧
    ∃ s, s = (State.start (Policy.guarded {}) .bare .bare).after
      [.create .inProcess, .setopt 0 .postFields (.text "a"), .duplicate 0, .reset 0] ∧
      s.engine.setting? 1 .postFields = some (.pointer (.copy 0 "a")) ∧
      ∀ w ∈ s.wrappers, w.2.ledger.covers (.copy 0 "a") = false := by
  refine ⟨by decide +kernel, _, rfl, ?_⟩
  decide +kernel

end NativeTransfer
