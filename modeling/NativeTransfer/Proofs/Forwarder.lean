import NativeTransfer.Proofs.Acceptance
import NativeTransfer.Proofs.Trampolines
import NativeTransfer.Script.Caller

/-!
# Forwarders and their streams

A stream that is given to a slot without a callback brings one along that serves it. From then on
the library's own callback is treated like a caller's: the data option replaces the stream by
whatever it is given next, and null and plain data leave a forwarder with nothing to forward to,
which has every chunk paused and every request aborted. So the two drift apart exactly by what the
data option was given last.

Which callback is the library's own cannot be seen in the slot. It is told by what was asked for: a
`Tenure` keeps who has put the callback of a slot there, and the last value of its data option.

## What counts as the last value

A setting that is refused changes a tenure as well, since the slot is not always given back what it
had. Null for the function option takes everything away whether the engine agrees or not. A stream
for the data option stays if there was a callback, and goes together with the library's own if there
was none. `Tenure.set` follows the plans in this, case by case, and `Tells` is the invariant that
ties it to the slot.

A forwarder that was left without its stream is still a callback: it is installed, it is wired, and
the engine calls it. What it answers then is told by `Slots.Stalls`.
-/

namespace NativeTransfer

open State Wrapper

/-! ## What is in a slot -/

namespace Slots

/-- The callback of a kind. -/
def callback? (x : Slots) : CallbackKind → Option Callback
  | .write => x.write.callback.map .write
  | .read => x.read.callback.map .read
  | .header => x.header.callback.map .header
  | .progress => x.progress.callback.map .progress

variable (x : Slots)

theorem isSome_callback? (k : CallbackKind) : (x.callback? k).isSome = x.isInstalled k := by
  cases k <;> exact Option.isSome_map

theorem callback?_eq_none_iff {k : CallbackKind} :
    x.callback? k = none ↔ x.isInstalled k = false := by
  rw [← isSome_callback?, Option.isSome_eq_false_iff, Option.isNone_iff_eq_none]

@[simp] theorem callback?_install (c : Callback) (k : CallbackKind) :
    (x.install c).callback? k = if c.kind = k then some c else x.callback? k := by
  cases c <;> cases k <;> rfl

@[simp] theorem callback?_setData (d : UserData) (j k : CallbackKind) :
    (x.setData d j).callback? k = x.callback? k := by
  cases j <;> cases k <;> rfl

@[simp] theorem callback?_clear (j k : CallbackKind) :
    (x.clear j).callback? k = if j = k then none else x.callback? k := by
  cases j <;> cases k <;> rfl

@[simp] theorem data_clear (j k : CallbackKind) :
    (x.clear j).data k = if j = k then .empty else x.data k := by
  cases j <;> cases k <;> rfl

/-- The slot of a kind is as it was. -/
def Keeps (k : CallbackKind) (x y : Slots) : Prop :=
  y.callback? k = x.callback? k ∧ y.data k = x.data k

end Slots

/-- Whether data is a stream that the callback of a kind can be served from. -/
def UserData.isStream (k : CallbackKind) : UserData → Bool
  | .writer _ => k = .write ∨ k = .header
  | .reader _ => k = .read
  | _ => false

/-- What a value leaves in a slot is a stream exactly if the value is one. -/
theorem Value.isStream_iff {k : CallbackKind} {v : Value} {d : UserData}
    (hv : v.leaves? k = some d) : d.isStream k = true ↔ v.stream? k = some d := by
  have hboth {p : Prop} [Decidable p] {e : UserData} (he : e.isStream k = decide p)
      (hv : (if p then some e else none) = some d) :
      d.isStream k = true ↔ (if p then some e else none) = some d := by
    obtain ⟨hp, hd⟩ := Option.ite_none_right_eq_some.1 hv
    obtain rfl := Option.some.inj hd
    exact iff_of_true (he.trans (decide_eq_true hp)) hv
  cases v with
  | null | data =>
    cases hv
    exact iff_of_false nofun nofun
  | sink s => exact hboth (e := .writer s) rfl hv
  | source s => exact hboth (e := .reader s) rfl hv
  | long | bool | text | bytes | list | function | pointer => cases hv

theorem Slot.deliverChunk_forward {slot : Slot WriteCallback} (hc : slot.callback = some .forward)
    (hd : ∀ s, slot.data ≠ .writer s) (k : CallbackKind) (chunk : Bytes) :
    (slot.deliverChunk k chunk).1 = .done pauseCount := by
  rw [Slot.deliverChunk_some hc]
  cases hdata : slot.data with
  | writer s => exact absurd hdata (hd s)
  | empty | value | reader => rfl

namespace Slots

variable {x : Slots}

theorem deliverRead_pull (hc : x.read.callback = some .pull) (hd : ∀ s, x.read.data ≠ .reader s)
    {room : Bytes} (hroom : room ≠ []) :
    ∃ left, (x.deliverRead room).outcome = .done (abortCount, left) := by
  simp only [deliverRead, hc, if_neg hroom]
  cases hdata : x.read.data with
  | reader s => exact absurd hdata (hd s)
  | empty | value | writer => exact ⟨_, rfl⟩

/-- Nothing is ever accepted, or handed out, by the callback of a kind. -/
def Stalls (x : Slots) : CallbackKind → Prop
  | .write => ∀ chunk, (x.deliverWrite chunk).outcome = .done pauseCount
  | .header => ∀ chunk, (x.deliverHeader chunk).outcome = .done pauseCount
  | .read => ∀ room, room ≠ [] → ∃ left, (x.deliverRead room).outcome = .done (abortCount, left)
  | .progress => False

/-- A library's callback without its stream stalls. -/
theorem stalls_of_forStream? {k : CallbackKind} {c : Callback} (hf : Callback.forStream? k = some c)
    (hc : x.callback? k = some c) (hd : (x.data k).isStream k = false) : x.Stalls k := by
  cases k with
  | write =>
    cases hf
    obtain ⟨_, hslot, ⟨⟩⟩ := Option.map_eq_some_iff.1 hc
    exact x.write.deliverChunk_forward hslot (fun s hs ↦ by rw [data, hs] at hd; cases hd) _
  | header =>
    cases hf
    obtain ⟨_, hslot, ⟨⟩⟩ := Option.map_eq_some_iff.1 hc
    exact x.header.deliverChunk_forward hslot (fun s hs ↦ by rw [data, hs] at hd; cases hd) _
  | read =>
    cases hf
    obtain ⟨_, hslot, ⟨⟩⟩ := Option.map_eq_some_iff.1 hc
    exact fun room ↦ deliverRead_pull hslot fun s hs ↦ by rw [data, hs] at hd; cases hd
  | progress => cases hf

end Slots

/-! ## Settings that are about other slots -/

namespace Wrapper

variable {h : Nat} {j k : CallbackKind} {o : OptionCode} {v : Value} {p : Plan}

/-- However far a plan is carried out, it leaves the slot of a kind alone. -/
def Plan.Spares (p : Plan) (k : CallbackKind) : Prop :=
  ∀ x : Slots, x.Keeps k (p.kept x) ∧ x.Keeps k (p.lost x)

theorem spares_of_functionPlan? (hj : j ≠ k) (hp : functionPlan? h j v = some p) : p.Spares k := by
  intro x
  cases v with
  | null =>
    cases hp
    simp [Slots.Keeps, hj]
  | function c =>
    rw [functionPlan?] at hp
    split at hp
    · next hc =>
      cases hp
      simp [Slots.Keeps, hc, hj]
    · cases hp
  | long | bool | text | bytes | list | sink | source | data | pointer => cases hp

theorem spares_streamPlan (hj : j ≠ k) {d : UserData} (hv : v.stream? j = some d)
    (installed : Bool) : (streamPlan h j installed d).Spares k := by
  intro x
  obtain ⟨f, hf, hfj⟩ := Callback.exists_forStream? hv
  cases installed with
  | true => simp [streamPlan, Slots.Keeps, hj]
  | false => simp [streamPlan, serve, hf, Slots.Keeps, hfj, hj]

theorem spares_of_dataPlan? (hj : j ≠ k) {installed : Bool}
    (hp : dataPlan? h j installed v = some p) : p.Spares k := by
  have hstream (hp : (v.stream? j).map (streamPlan h j installed) = some p) : p.Spares k := by
    obtain ⟨d, hd, rfl⟩ := Option.map_eq_some_iff.1 hp
    exact spares_streamPlan hj hd installed
  cases v with
  | null | data =>
    cases hp
    intro x
    simp [Slots.Keeps, hj]
  | sink | source => exact hstream hp
  | long | bool | text | bytes | list | function | pointer => cases hp

/-- What becomes of the slots when an option is set, whether it is accepted or not. -/
def nextSlots (h : Nat) (o : OptionCode) (v : Value) (ok : Bool) (x : Slots) : Slots :=
  if ok then keptSlots h o v x else lostSlots h o v x

theorem nextSlots_of_plan? {x : Slots} (hp : plan? h x o v = some p) (ok : Bool) :
    nextSlots h o v ok x = if ok then p.kept x else p.lost x := by
  rw [nextSlots, keptSlots, lostSlots, hp]

theorem nextSlots_of_none {x : Slots} (hp : plan? h x o v = none) (ok : Bool) :
    nextSlots h o v ok x = x := by
  rw [nextSlots, keptSlots, lostSlots, hp]
  exact ite_self _

/-- The options of other kinds, and those of none, leave the slot of a kind alone. -/
theorem keeps_nextSlots (hf : o ≠ k.functionOption) (hd : o ≠ k.dataOption) (ok : Bool)
    (x : Slots) : x.Keeps k (nextSlots h o v ok x) := by
  have hspares (hp : ∀ p, plan? h x o v = some p → p.Spares k) :
      x.Keeps k (nextSlots h o v ok x) := by
    cases hplan : plan? h x o v with
    | none =>
      rw [nextSlots_of_none hplan]
      exact ⟨rfl, rfl⟩
    | some p =>
      rw [nextSlots_of_plan? hplan]
      cases ok with
      | true => exact (hp p hplan x).1
      | false => exact (hp p hplan x).2
  refine hspares fun p hp ↦ ?_
  rcases CallbackKind.option_cases o with ⟨j, rfl⟩ | ⟨j, rfl⟩ | ho
  · rw [plan?_functionOption] at hp
    exact spares_of_functionPlan? (fun hj ↦ hf (congrArg _ hj)) hp
  · rw [plan?_dataOption] at hp
    exact spares_of_dataPlan? (fun hj ↦ hd (congrArg _ hj)) hp
  · rw [plan?_of_ne ho] at hp
    cases hp

end Wrapper

/-! ## Tenures -/

/-- Who has put the callback of a slot there. -/
inductive Keeper
  | nobody
  | caller
  | library
  deriving DecidableEq

/-- What is known of a slot by what was asked for. -/
structure Tenure where
  keeper : Keeper := .nobody
  /-- The last value that the data option took. -/
  given : Value := .null

namespace Tenure

/-- The function option is set. Null takes everything away, even if the engine does not agree. -/
def setFunction (k : CallbackKind) (v : Value) (ok : Bool) (a : Tenure) : Tenure :=
  match v with
  | .null => {}
  | .function c => if c.kind = k ∧ ok = true then { a with keeper := .caller } else a
  | _ => a

/-- The data option is set. A stream that finds no callback brings the library's own along, and goes
with it if the engine does not agree. -/
def setData (k : CallbackKind) (v : Value) (ok : Bool) (a : Tenure) : Tenure :=
  match v.leaves? k, v.stream? k with
  | none, _ => a
  | some _, none => { a with given := v }
  | some _, some _ =>
    if a.keeper ≠ .nobody then { a with given := v }
    else if ok then ⟨.library, v⟩
    else {}

/-- What a setting changes. -/
def set (k : CallbackKind) (o : OptionCode) (v : Value) (ok : Bool) (a : Tenure) : Tenure :=
  if o = k.functionOption then a.setFunction k v ok
  else if o = k.dataOption then a.setData k v ok
  else a

/-- A tenure tells what is in a slot. -/
structure Tells (a : Tenure) (k : CallbackKind) (x : Slots) : Prop where
  vacant : a.keeper = .nobody ↔ x.callback? k = none
  forwarder : a.keeper = .library → x.callback? k = Callback.forStream? k
  data : a.given.leaves? k = some (x.data k)

variable {a : Tenure} {k : CallbackKind} {x y : Slots} {h : Nat} {v : Value}

theorem Tells.congr (ha : a.Tells k x) (hy : x.Keeps k y) : a.Tells k y where
  vacant := by rw [hy.1, ha.vacant]
  forwarder hl := by rw [hy.1, ha.forwarder hl]
  data := by rw [hy.2, ha.data]

theorem tells_empty (hc : x.callback? k = none) (hd : x.data k = .empty) : Tells {} k x where
  vacant := iff_of_true rfl hc
  forwarder := nofun
  data := by
    rw [hd]
    rfl

theorem tells_blank (hx : x = {}) : Tells {} k x := by
  subst hx
  cases k <;> exact tells_empty rfl rfl

theorem tells_clear : Tells {} k (x.clear k) := tells_empty (by simp) (by simp)

theorem Tells.give (ha : a.Tells k x) {d : UserData} (hv : v.leaves? k = some d) :
    Tells { a with given := v } k (x.setData d k) where
  vacant := by rw [Slots.callback?_setData, ha.vacant]
  forwarder hl := by rw [Slots.callback?_setData, ha.forwarder hl]
  data := by rw [Slots.data_setData, if_pos rfl, hv]

theorem Tells.setFunction (ha : a.Tells k x) (h : Nat) (v : Value) (ok : Bool) :
    (a.setFunction k v ok).Tells k (nextSlots h k.functionOption v ok x) := by
  cases v with
  | null =>
    have hplan : plan? h x k.functionOption .null = some ⟨unwiring k, (·.clear k), (·.clear k)⟩ :=
      plan?_functionOption
    rw [nextSlots_of_plan? hplan, ite_self]
    exact tells_clear
  | function c =>
    by_cases hc : c.kind = k
    · have hplan : plan? h x k.functionOption (.function c) =
          some ⟨wiring h k, (·.install c), fun x ↦ x⟩ := by
        rw [plan?_functionOption, functionPlan?, if_pos hc]
      rw [nextSlots_of_plan? hplan, Tenure.setFunction]
      cases ok with
      | false => simpa [hc] using ha
      | true =>
        simp only [hc, and_self, if_true]
        refine ⟨iff_of_false (by simp) ?_, by simp, ?_⟩
        · simp [hc]
        · rw [Slots.data_install]
          exact ha.data
    · have hplan : plan? h x k.functionOption (.function c) = none := by
        rw [plan?_functionOption, functionPlan?, if_neg hc]
      rw [nextSlots_of_none hplan, Tenure.setFunction, if_neg fun hok ↦ hc hok.1]
      exact ha
  | long | bool | text | bytes | list | sink | source | data | pointer =>
    rw [nextSlots_of_none plan?_functionOption]
    exact ha

/-- A stream is served by the callback that is there, and else by the library's own. -/
theorem Tells.setStream (ha : a.Tells k x) (h : Nat) {d : UserData} (hv : v.stream? k = some d)
    (ok : Bool) :
    (a.setData k v ok).Tells k (if ok then (streamPlan h k (x.isInstalled k) d).kept x
      else (streamPlan h k (x.isInstalled k) d).lost x) := by
  have hleaves := Value.leaves?_of_stream? hv
  obtain ⟨f, hf, hfk⟩ := Callback.exists_forStream? hv
  have hvacant := ha.vacant.trans x.callback?_eq_none_iff
  rw [Tenure.setData, hleaves, hv]
  cases hi : x.isInstalled k with
  | true =>
    have hkeeper : a.keeper ≠ .nobody := fun hk ↦ by
      rw [hvacant.1 hk] at hi
      cases hi
    rw [streamPlan, if_pos rfl, ite_self]
    dsimp only
    rw [if_pos hkeeper]
    exact ha.give hleaves
  | false =>
    have hserve : serve k d x = (x.setData d k).install f := by rw [serve, hf]
    rw [streamPlan, if_neg Bool.false_ne_true]
    dsimp only
    rw [if_neg (not_not_intro (hvacant.2 hi)), hserve]
    cases ok with
    | true =>
      refine ⟨iff_of_false (by simp) ?_, fun _ ↦ ?_, ?_⟩
      · simp [hfk]
      · simp [hfk, hf]
      · simpa using hleaves
    | false => exact tells_clear

theorem Tells.setData (ha : a.Tells k x) (h : Nat) (v : Value) (ok : Bool) :
    (a.setData k v ok).Tells k (nextSlots h k.dataOption v ok x) := by
  have hplain {p : Plan} {d : UserData} (hp : dataPlan? h k (x.isInstalled k) v = some p)
      (hkept : p.kept = (·.setData d k)) (hlost : p.lost = (·.setData d k))
      (hleaves : v.leaves? k = some d) (hstream : v.stream? k = none) :
      (a.setData k v ok).Tells k (nextSlots h k.dataOption v ok x) := by
    rw [nextSlots_of_plan? (plan?_dataOption.trans hp), hkept, hlost, ite_self, Tenure.setData,
      hleaves, hstream]
    exact ha.give hleaves
  have hstream (hp : dataPlan? h k (x.isInstalled k) v =
        (v.stream? k).map (streamPlan h k (x.isInstalled k)))
      (hleaves : v.leaves? k = v.stream? k) :
      (a.setData k v ok).Tells k (nextSlots h k.dataOption v ok x) := by
    cases hv : v.stream? k with
    | none =>
      rw [hv] at hp hleaves
      rw [nextSlots_of_none (plan?_dataOption.trans hp), Tenure.setData, hleaves]
      exact ha
    | some d =>
      rw [hv] at hp
      rw [nextSlots_of_plan? (plan?_dataOption.trans hp)]
      exact ha.setStream h hv ok
  cases v with
  | null | data => exact hplain rfl rfl rfl rfl rfl
  | sink | source | long | bool | text | bytes | list | function | pointer => exact hstream rfl rfl

/-- Whatever is set, and whether it is accepted or not. -/
theorem Tells.set (ha : a.Tells k x) (h : Nat) (o : OptionCode) (v : Value) (ok : Bool) :
    (a.set k o v ok).Tells k (nextSlots h o v ok x) := by
  rw [Tenure.set]
  split
  · next hf =>
    rw [hf]
    exact ha.setFunction h v ok
  · next hf =>
    split
    · next hd =>
      rw [hd]
      exact ha.setData h v ok
    · next hd => exact ha.congr (keeps_nextSlots hf hd ok x)

end Tenure

/-! ## Runs -/

/-- What is known of the slot of a kind after some passages. -/
def tenure (id : WrapperId) (k : CallbackKind) (ps : List Passage) : Tenure :=
  notes id {} (Tenure.set k) ps

/-- Whether a step sets an option of a wrapper or resets it. -/
def Step.tunes (id : WrapperId) : Step → Bool
  | .setopt j _ _ => j = id
  | .reset j => j = id
  | _ => false

/-- A tenure tells what is in a wrapper's slot. Of a wrapper that has no handle nothing is ever
accepted. -/
inductive State.Told (s : State) (id : WrapperId) (k : CallbackKind) (a : Tenure) : Prop
  | gone (hh : (s.wrapper id).handle = none) (ha : a.keeper = .nobody)
  | there {h : Nat} (hh : (s.wrapper id).handle = some h)
      (ha : a.Tells k (s.wrapper id).slots)

section

variable {s t : State} {id : WrapperId} {k : CallbackKind} {a : Tenure} {h : Nat} {o : OptionCode}
  {v : Value}

/-- What is not accepted brings nobody in. -/
theorem Tenure.keeper_set_false (ha : a.keeper = .nobody) (o : OptionCode) (v : Value) :
    (a.set k o v false).keeper = .nobody := by
  rw [Tenure.set]
  split
  · rw [Tenure.setFunction.eq_def]
    split
    · rfl
    · rw [if_neg fun hok ↦ Bool.false_ne_true hok.2]
      exact ha
    · exact ha
  · split
    · rw [Tenure.setData]
      split
      · exact ha
      · exact ha
      · split
        · exact ha
        · rfl
    · exact ha

theorem Step.setopt_spec (hn : s.ids.Nodup) (hh : (s.wrapper id).handle = some h) :
    (((Step.setopt id o v).pass s).after.wrapper id).handle = some h ∧
      (((Step.setopt id o v).pass s).after.wrapper id).slots =
        nextSlots h o v ((Step.setopt id o v).pass s).result.isOk (s.wrapper id).slots := by
  constructor
  · refine Step.pass_of_leads (P := fun _ t ↦ (t.wrapper id).handle = some h) ?_
    rw [Step.run, leads_bind]
    exact (leads_setopt hn hh o v).mono (fun _ _ ha ↦ ha.handle hh) fun _ _ ha ↦ ha.handle hh
  · rw [nextSlots]
    cases hr : ((Step.setopt id o v).pass s).result.isOk with
    | true => exact (Step.slots_of_accepted hn hh hr id).trans (if_pos rfl)
    | false => exact (Step.slots_of_refused hn hh hr id).trans (if_pos rfl)

theorem Step.isOk_setopt_none (hh : (s.wrapper id).handle = none) :
    ((Step.setopt id o v).pass s).result.isOk = false := by
  refine Step.pass_of_leads (P := fun r _ ↦ r.isOk = false) ?_
  rw [Step.run, leads_bind]
  exact (leads_setopt_none hh o v).mono (fun _ _ ht ↦ ht.elim) fun _ _ _ ↦ rfl

/-- One step keeps what is told of the slot true. -/
theorem State.Told.step (hn : s.ids.Nodup) {x : Step} (hx : x.tunes id = true)
    (ht : s.Told id k a) :
    (x.pass s).after.Told id k ((x.pass s).note id {} (Tenure.set k) a) := by
  cases x with
  | setopt j o v =>
    obtain rfl := of_decide_eq_true hx
    have hnote : ((Step.setopt j o v).pass s).note j {} (Tenure.set k) a =
        a.set k o v ((Step.setopt j o v).pass s).result.isOk := if_pos rfl
    rw [hnote]
    cases ht with
    | gone hh ha =>
      rw [Step.isOk_setopt_none hh]
      refine .gone ?_ (Tenure.keeper_set_false ha o v)
      rw [Step.pass_setopt_none hh]
      exact hh
    | there hh ha =>
      obtain ⟨hh', hslots⟩ := Step.setopt_spec (o := o) (v := v) hn hh
      refine .there hh' ?_
      rw [hslots]
      exact ha.set _ o v _
  | reset j =>
    obtain rfl := of_decide_eq_true hx
    refine Step.pass_of_leads (P := fun r t ↦
      t.Told j k (Passage.note j {} (Tenure.set k) ⟨.reset j, s, r, t⟩ a)) ?_
    rw [Step.run, leads_bind]
    cases ht with
    | gone hh ha =>
      rw [Wrapper.reset, leads_bind, leads_liveHandle_none hh]
      exact .gone hh ha
    | there hh ha =>
      refine (leads_reset hh).mono ?_ fun _ t hd ↦ ?_
      · rintro _ t ⟨loose, -, hd⟩
        have hhandle : (t.wrapper j).handle = (s.wrapper j).handle := by
          rw [hd.wrapper, handle_empty]
          rfl
        have hslots : (t.wrapper j).slots = {} := by
          rw [hd.wrapper]
          exact (wrapper_empty ..).2
        have hnote : Passage.note j {} (Tenure.set k) ⟨.reset j, s, .ok j, t⟩ a = {} := if_pos rfl
        refine .there (hhandle.trans hh) ?_
        exact hnote.symm ▸ Tenure.tells_blank hslots
      · have hwrapper := hd.wrapper j
        refine .there ((congrArg Wrapper.handle hwrapper).trans hh) ?_
        rw [hwrapper]
        exact ha
  | create | duplicate | release | cleanup | drop | perform | pause | getinfo | send | recv | escape
  | unescape | impersonate => cases hx

/-- An option that has no part in the wiring leaves the slots alone. -/
theorem Wrapper.AfterSetopt.slots_of_ne {r : Except Error Unit}
    (ho : ∀ k : CallbackKind, k.functionOption ≠ o ∧ k.dataOption ≠ o)
    (ha : AfterSetopt s id h o v r t) (j : WrapperId) :
    (t.wrapper j).slots = (s.wrapper j).slots := by
  cases ha with
  | plain _ ha =>
    obtain ⟨as, xs, ht, -⟩ := ha.touched
    rw [ht.drift.wrapper, wrapper_storeAll, withSlots_self]
    exact proj_modifyWrapper s id j Wrapper.slots fun _ ↦ rfl
  | refused hd => rw [hd.wrapper]
  | rewired hk =>
    rcases hk with rfl | rfl
    · exact absurd rfl (ho _).1
    · exact absurd rfl (ho _).2

/-- A wrapper begins with empty slots, whether it is given a certificate bundle or not. -/
theorem State.Told.create (policy : Policy) (host : Host) (settled : Settled) (api : Api)
    (k : CallbackKind) :
    ((State.start policy host settled).after [.create api]).Told 0 k
      (tenure 0 k (passages (.start policy host settled) [.create api])) := by
  have hn := (Coherent.start policy host settled).numbered
  have hcaInfo (k : CallbackKind) : k.functionOption ≠ .caInfo ∧ k.dataOption ≠ .caInfo := by
    cases k <;> decide
  have hnone : ((State.start policy host settled).wrapper 0).handle = none := rfl
  refine Step.pass_of_leads (x := .create api) (s := .start policy host settled) (P := fun r t ↦
    t.Told 0 k (Passage.note 0 {} (Tenure.set k) ⟨.create api, .start policy host settled, r, t⟩
      {})) ?_
  refine (leads_create hn api).mono ?_ ?_
  · rintro _ t ⟨rfl, h, -, ht⟩
    have hmade := wrapper_make hn h api
    have hhandle : (((State.start policy host settled).make h api).wrapper 0).handle = some h :=
      congrArg Wrapper.handle hmade
    have hslots : (((State.start policy host settled).make h api).wrapper 0).slots = {} :=
      congrArg Wrapper.slots hmade
    rcases ht with hd | ⟨path, r, ha⟩
    · have hwrapper := hd.wrapper 0
      refine .there ((congrArg Wrapper.handle hwrapper).trans hhandle) (Tenure.tells_blank ?_)
      exact (congrArg Wrapper.slots hwrapper).trans hslots
    · refine .there (ha.handle hhandle) (Tenure.tells_blank ?_)
      exact (ha.slots_of_ne hcaInfo 0).trans hslots
  · intro _ t hd
    exact .gone ((congrArg Wrapper.handle (hd.wrapper 0)).trans hnone) rfl

end

/-- All along a run of settings and resets of one wrapper, the tenure of every kind tells what is in
its slot. -/
theorem State.Told.run (policy : Policy) (host : Host) (settled : Settled) (api : Api)
    {steps : List Step} (hs : ∀ x ∈ steps, x.tunes 0 = true) (k : CallbackKind) :
    ((State.start policy host settled).after (.create api :: steps)).Told 0 k
      (tenure 0 k (passages (.start policy host settled) (.create api :: steps))) := by
  induction steps using List.reverseRecOn with
  | nil => exact .create policy host settled api k
  | append_singleton xs x ih =>
    have hn := ((Coherent.start policy host settled).numbered.after (.create api :: xs)).1.nodup
    have hxs := ih fun y hy ↦ hs y (List.mem_append_left _ hy)
    have hx := hs x (List.mem_append_right _ List.mem_cons_self)
    rw [← List.cons_append, State.after_concat, tenure, notes_concat]
    exact hxs.step hn hx

/-- In every run of settings and resets of one wrapper, whatever the engine makes of them: where the
library has put a callback of its own into a slot, this is the one that serves the kind's streams,
and it has a stream to serve exactly if the data option was last given one. Otherwise nothing is
ever accepted or handed out by it. -/
theorem forwarder_has_stream_iff (policy : Policy) (host : Host) (settled : Settled) (api : Api)
    {steps : List Step} (hs : ∀ x ∈ steps, x.tunes 0 = true) {k : CallbackKind}
    (hk : (tenure 0 k (passages (.start policy host settled) (.create api :: steps))).keeper =
      .library) :
    let x := (((State.start policy host settled).after (.create api :: steps)).wrapper 0).slots
    let given := (tenure 0 k (passages (.start policy host settled) (.create api :: steps))).given
    (∃ c, Callback.forStream? k = some c ∧ x.callback? k = some c) ∧
    given.leaves? k = some (x.data k) ∧
    ((x.data k).isStream k = true ↔ given.stream? k = some (x.data k)) ∧
    ((x.data k).isStream k = false → x.Stalls k) := by
  intro x given
  cases State.Told.run policy host settled api hs k with
  | gone _ ha =>
    rw [hk] at ha
    cases ha
  | there _ ha =>
    have hcallback := ha.forwarder hk
    obtain ⟨c, hc⟩ : ∃ c, x.callback? k = some c := by
      refine Option.ne_none_iff_exists'.1 fun hnone ↦ ?_
      have hvacant := ha.vacant.2 hnone
      rw [hk] at hvacant
      cases hvacant
    have hf : Callback.forStream? k = some c := hcallback.symm.trans hc
    exact ⟨⟨c, hf, hc⟩, ha.data, Value.isStream_iff ha.data, Slots.stalls_of_forStream? hf hc⟩

/-- A sink that comes after a caller's callback was cleared is forwarded to. -/
theorem sink_after_clear_is_served :
    let steps : List Step :=
      [.setopt 0 .writeFunction (.function (.write (Script.writeCallback .write [some .accept]))),
        .setopt 0 .writeFunction .null, .setopt 0 .writeData (.sink (Script.sink []))]
    let x := (((State.start {} .bare .bare).after (.create .inProcess :: steps)).wrapper 0).slots
    x.callback? .write = some (.write .forward) ∧ (x.data .write).isStream .write = true := by
  intro steps x
  have hs : ∀ x ∈ steps, x.tunes 0 = true := by decide
  obtain ⟨⟨c, hf, hc⟩, -, hstream, -⟩ := forwarder_has_stream_iff {} .bare .bare .inProcess hs
    (k := .write) (by decide +kernel)
  cases hf
  exact ⟨hc, hstream.2 rfl⟩

/-- A data option that is set to null takes the sink away and leaves the library's own forwarder. -/
theorem forwarder_outlasts_sink :
    let steps : List Step := [.create .inProcess, .setopt 0 .writeData (.sink (Script.sink [])),
      .setopt 0 .writeData .null]
    let x := (((State.start {} .bare .bare).after steps).wrapper 0).slots
    (∀ p ∈ passages (.start {} .bare .bare) steps, p.result.isOk = true) ∧
      (tenure 0 .write (passages (.start {} .bare .bare) steps)).keeper = .library ∧
      x.callback? .write = Callback.forStream? .write ∧
      (x.data .write).isStream .write = false ∧ x.Stalls .write := by
  intro steps x
  have hstream : (x.data .write).isStream .write = false := by decide +kernel
  have hcallback : x.callback? .write = some (.write .forward) := rfl
  exact ⟨by decide +kernel, by decide +kernel, hcallback, hstream,
    Slots.stalls_of_forStream? rfl hcallback hstream⟩

end NativeTransfer
