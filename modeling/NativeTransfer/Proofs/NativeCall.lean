import NativeTransfer.Proofs.Drift
import NativeTransfer.State.Native

/-!
# What a native call does

A call that does not reach the engine lets the state drift. One that does gets the engine's answer,
and the state is the engine's next one with the event behind the trace. For most methods that is no
more than drifting either; an option that is set is stored exactly if the answer is zero.

## The gate

Whether a call is let through depends on the way, on the method, and in the process itself on the
engine. Whatever comes of it, the attempt was counted. The gate is looked at once (`gate_cases`),
and each method then has two ends: the one at the gate, which is of no consequence, and the one with
the engine's answer, on which the method's own lemma goes on.

A relation that nothing can disturb which leaves tables and lists alone is `Calm`. All calls that
only ask for something are calm for any such relation at once, and it is not said again for each
relation.
-/

namespace NativeTransfer

open State

/-- An engine that never gives out a handle that is still in use. -/
def Policy.Fresh (p : Policy) : Prop := ∀ e h, p.newHandle e = some h → e.settings? h = none

/-- The same decisions, except that a handle in use is never given out again. -/
def Policy.guarded (p : Policy) : Policy :=
  { p with newHandle := fun e ↦ (p.newHandle e).filter fun h ↦ !e.isLive h }

theorem Policy.guarded_fresh (p : Policy) : p.guarded.Fresh := by
  intro e h hnew
  have hlive := (Option.filter_eq_some_iff.1 hnew).2
  rw [Bool.not_eq_true', Engine.isLive, Option.isSome_eq_false_iff] at hlive
  exact Option.isNone_iff_eq_none.1 hlive

/-- A state in which the next handle, if there is one, is none that is in use. -/
def State.Fresh (s : State) : Prop :=
  ∀ e : Engine, e.handles = s.engine.handles → ∀ h, s.policy.newHandle e = some h →
    s.engine.settings? h = none

theorem Policy.Fresh.fresh {s : State} (hp : s.policy.Fresh) : s.Fresh := by
  intro e he h hnew
  rw [Engine.settings?, ← he]
  exact hp e h hnew

theorem State.fresh_of_handles {s : State} (hs : s.engine.handles = []) : s.Fresh := by
  intro e _ h _
  rw [Engine.settings?, hs, List.lookup_nil]

theorem ResultCode.isOk_ofSigned (n : Int32) : (ResultCode.ofSigned n).isOk = true ↔ n = 0 := by
  rw [ResultCode.isOk_iff]
  constructor
  · intro h
    rcases n with ⟨n⟩
    cases h
    rfl
  · rintro rfl
    rfl

theorem Engine.list?_congr {e e' : Engine} (h : e.lists = e'.lists) (n : Nat) :
    e.list? n = e'.list? n := by
  cases n with
  | zero => rfl
  | succ n => rw [Engine.list?, Engine.list?, h]

/-! ## Talk -/

namespace State.Drift

variable {s : State}

/-- An engine with the same tables, and an event that settles nothing. -/
theorem of_engine {loose : List Nat} {e : Engine} {v : Event} (hh : e.handles = s.engine.handles)
    (hl : ∀ n ∉ loose, ∀ l, s.engine.list? n = some l → e.list? n = some l)
    (hv : v.settles = false) : Drift loose s { s with engine := e, trace := s.trace ++ [v] } where
  handles := hh
  lists := hl
  wrappers := rfl
  registry := rfl
  opened := rfl
  policy := rfl
  strays := rfl
  serials := Nat.le_refl _
  settling := by
    rw [State.settling, State.settling, List.filter_append,
      List.filter_cons_of_neg (by rw [hv]; exact Bool.false_ne_true), List.filter_nil,
      List.append_nil]

theorem emit {v : Event} (hv : v.settles = false) :
    Ends (emit v) s fun _ t ↦ Drift [] s t :=
  of_engine rfl (fun _ _ _ h ↦ h) hv

end State.Drift

theorem ends_report {s : State} (level : Level) (message : String)
    (fields : List (String × Field)) :
    Ends (report level message fields) s fun _ t ↦ Drift [] s t := Drift.emit rfl

/-! ## What is of no consequence -/

/-- Whether an event tells neither of a table of options nor of a list. -/
def Event.isQuiet : Event → Bool
  | .native _ (.append _ _ (some _)) => false
  | .native _ (.freeList _ _) => false
  | v => !v.settles

theorem Event.settles_of_isQuiet {v : Event} (hv : v.isQuiet = true) : v.settles = false := by
  rw [isQuiet.eq_def] at hv
  split at hv
  · cases hv
  · cases hv
  · exact Bool.not_eq_true' _ ▸ hv

/-- A relation of states that nothing can disturb which leaves tables and lists alone: the engine
may count, quiet events may happen, and what is settled for the whole process may be settled. -/
structure Calm (R : State → State → Prop) : Prop where
  refl : ∀ s, R s s
  trans : ∀ s t u, R s t → R t u → R s u
  engine : ∀ s (e : Engine), e.handles = s.engine.handles → e.lists = s.engine.lists →
    R s { s with engine := e }
  event : ∀ s v, v.isQuiet = true → R s { s with trace := s.trace ++ [v] }
  settled : ∀ s host settled, R s { s with host, settled }

/-- Where one event makes no difference, several make none. -/
theorem events_of {R : State → State → Prop} (hrefl : ∀ s, R s s)
    (htrans : ∀ s t u, R s t → R t u → R s u) {P : Event → Prop}
    (hevent : ∀ s v, P v → R s { s with trace := s.trace ++ [v] }) {vs : List Event}
    (hvs : ∀ v ∈ vs, P v) (s : State) : R s { s with trace := s.trace ++ vs } := by
  induction vs generalizing s with
  | nil =>
    rw [List.append_nil]
    exact hrefl s
  | cons v vs ih =>
    have hvs' := ih (fun w hw ↦ hvs w (List.mem_cons_of_mem _ hw))
      { s with trace := s.trace ++ [v] }
    rw [List.append_assoc] at hvs'
    exact htrans _ _ _ (hevent s v (hvs v List.mem_cons_self)) hvs'

theorem calm_drift : Calm (Drift []) where
  refl := Drift.refl
  trans _ _ _ := Drift.trans
  engine _ _ hh hl :=
    ⟨hh, fun n _ _ h ↦ (Engine.list?_congr hl n).trans h, rfl, rfl, rfl, rfl, rfl, Nat.le_refl _,
      rfl⟩
  event _ _ hv := .of_engine rfl (fun _ _ _ h ↦ h) (Event.settles_of_isQuiet hv)
  settled _ _ _ := ⟨rfl, fun _ _ _ h ↦ h, rfl, rfl, rfl, rfl, rfl, Nat.le_refl _, rfl⟩

theorem Calm.and {R R' : State → State → Prop} (hR : Calm R) (hR' : Calm R') :
    Calm fun s t ↦ R s t ∧ R' s t where
  refl s := ⟨hR.refl s, hR'.refl s⟩
  trans s t u h h' := ⟨hR.trans s t u h.1 h'.1, hR'.trans s t u h.2 h'.2⟩
  engine s e hh hl := ⟨hR.engine s e hh hl, hR'.engine s e hh hl⟩
  event s v hv := ⟨hR.event s v hv, hR'.event s v hv⟩
  settled s host settled := ⟨hR.settled s host settled, hR'.settled s host settled⟩

/-! ## The gate -/

namespace Api

variable (api : Api) {α : Type} {s : State}

/-- A state in which one more call was attempted. -/
def counted (s : State) : State := { s with engine.calls := s.engine.calls + 1 }

theorem drift_counted (s : State) : Drift [] s (counted s) := calm_drift.engine s _ rfl rfl

theorem gate_cases (m : Method) :
    Leads (api.gate m) s (fun _ t ↦ t = counted s) fun _ t ↦ t = counted s ∨
      t = { counted s with trace := s.trace ++ [.unreached m] } := by
  simp only [gate, leads_bind, leads_get, leads_set]
  split
  · exact .inl rfl
  · split
    · exact .inr rfl
    · rfl

/-- The state after an answer. -/
def answered (r : Route) (x : Answered α) (s : State) : State :=
  { s with engine := x.engine, trace := s.trace ++ [.native r x.call] }

/-- A call that reaches the engine gets the answer of the engine that has counted it, and any other
fails at the gate. -/
theorem leads_call_of_gate {m : Method} {answer : Policy → Engine → Answered α}
    {ok : α → State → Prop} {err : Error → State → Prop}
    (hgate : Leads (api.gate m) s (fun _ t ↦ t = counted s) err)
    (h : ∀ x, answer (counted s).policy (counted s).engine = x →
      ok x.result (answered api.route x (counted s))) : Leads (api.call m answer) s ok err := by
  rw [call, leads_bind]
  refine hgate.mono (fun _ t ht ↦ ?_) fun _ _ he ↦ he
  subst ht
  exact h _ rfl

/-- An answer after which every table and every list is as it was. -/
structure Idle (answer : Policy → Engine → Answered α) : Prop where
  handles : ∀ p e, (answer p e).engine.handles = e.handles
  lists : ∀ p e, (answer p e).engine.lists = e.lists
  quiet : ∀ r p e, (Event.native r (answer p e).call).isQuiet = true

end Api

/-! ## Attempts of no consequence -/

namespace Calm

variable {R : State → State → Prop} (hR : Calm R) {α β : Type} {x : Attempt α} (api : Api)
  {s t : State}

include hR

theorem pure (a : α) : Within R (pure a) := fun s ↦ hR.refl s

theorem throw (e : Error) : Within R (throw e : Attempt α) := fun s ↦ hR.refl s

theorem bind (hx : Within R x) {f : α → Attempt β} (hf : ∀ a, Within R (f a)) :
    Within R (x >>= f) := Within.bind hR.trans hx hf

theorem leads (hx : Within R x) (h : R s t) :
    Leads x t (fun _ u ↦ R s u) fun _ u ↦ R s u := hx.leads hR.trans h

theorem report (level : Level) (message : String) (fields : List (String × Field)) :
    Ends (report level message fields) s fun _ t ↦ R s t := hR.event _ _ rfl

theorem events {vs : List Event} (hvs : ∀ v ∈ vs, v.isQuiet = true) (s : State) :
    R s { s with trace := s.trace ++ vs } := events_of hR.refl hR.trans hR.event hvs s

theorem counted (s : State) : R s (Api.counted s) := hR.engine _ _ rfl rfl

theorem gate (m : Method) :
    Leads (api.gate m) s (fun _ t ↦ t = Api.counted s) fun _ t ↦ R s t := by
  refine (api.gate_cases m).mono (fun _ _ ht ↦ ht) ?_
  rintro _ _ (rfl | rfl)
  · exact hR.counted s
  · exact hR.trans _ _ _ (hR.counted s) (hR.event (Api.counted s) _ rfl)

theorem leads_call (m : Method) {answer : Policy → Engine → Answered α} {ok : α → State → Prop}
    (h : ∀ y, answer (Api.counted s).policy (Api.counted s).engine = y →
      ok y.result (Api.answered api.route y (Api.counted s))) :
    Leads (api.call m answer) s ok fun _ t ↦ R s t :=
  api.leads_call_of_gate (hR.gate api m) h

theorem told {e : Engine} {v : Event} (hh : e.handles = s.engine.handles)
    (hl : e.lists = s.engine.lists) (hv : v.isQuiet = true) :
    R s { s with engine := e, trace := s.trace ++ [v] } :=
  hR.trans _ _ _ (hR.engine s e hh hl) (hR.event { s with engine := e } v hv)

theorem call (m : Method) {answer : Policy → Engine → Answered α} (h : Api.Idle answer) :
    Within R (api.call m answer) := by
  intro s
  refine hR.leads_call api m ?_
  rintro y rfl
  exact hR.trans _ _ _ (hR.counted s) (hR.told (h.handles _ _) (h.lists _ _) (h.quiet _ _ _))

theorem strerror (c : ResultCode) : Ends (api.strerror c) s fun _ t ↦ R s t := by
  rw [Api.strerror_eq]
  split
  · exact hR.told rfl rfl rfl
  · rw [ends_bind, ends_run]
    have h : Api.Idle fun p e ↦ e.answerStrerror p c.toSigned :=
      ⟨fun _ _ ↦ rfl, fun _ _ ↦ rfl, fun _ _ _ ↦ rfl⟩
    exact hR.call api _ h s

theorem leads_check (c : ResultCode) :
    Leads (api.check c) s (fun _ t ↦ c.isOk = true ∧ t = s)
      fun _ t ↦ c.isOk = false ∧ R s t := by
  rw [Api.check]
  split
  · next h =>
    rw [leads_bind, leads_lift]
    exact (hR.strerror api c).mono fun _ t ht ↦ ⟨Bool.eq_false_iff.2 h, ht⟩
  · next h => exact ⟨Decidable.of_not_not h, rfl⟩

theorem check (c : ResultCode) : Within R (api.check c) := by
  intro s
  refine (hR.leads_check api c).mono (fun _ t ht ↦ ?_) fun _ _ ht ↦ ht.2
  rw [ht.2]
  exact hR.refl s

/-! ### Requests -/

theorem pause (h : Nat) (mask : Int32) : Within R (api.pause h mask) := by
  rw [Api.pause_eq]
  exact (hR.call api _ ⟨fun _ _ ↦ rfl, fun _ _ ↦ rfl, fun _ _ _ ↦ rfl⟩).map _

theorem impersonate (h : Nat) (target : String) (defaultHeaders : Bool) :
    Within R (api.impersonate h target defaultHeaders) := by
  rw [Api.impersonate_eq]
  exact (hR.call api _ ⟨fun _ _ ↦ rfl, fun _ _ ↦ rfl, fun _ _ _ ↦ rfl⟩).map _

theorem getinfo (out : Readout) (h : Nat) (i : InfoCode) : Within R (api.getinfo out h i) := by
  rw [Api.getinfo_eq]
  exact (hR.call api _ ⟨fun _ _ ↦ rfl, fun _ _ ↦ rfl, fun _ _ _ ↦ rfl⟩).map _

theorem send (h : Nat) (b : Bytes) : Within R (api.send h b) := by
  rw [Api.send_eq]
  exact (hR.call api _ ⟨fun _ _ ↦ rfl, fun _ _ ↦ rfl, fun _ _ _ ↦ rfl⟩).map _

theorem recv (h : Nat) (capacity : Nat) : Within R (api.recv h capacity) := by
  rw [Api.recv_eq]
  exact (hR.call api _ ⟨fun _ _ ↦ rfl, fun _ _ ↦ rfl, fun _ _ _ ↦ rfl⟩).map _

theorem escape (h : Nat) (input : Bytes) : Within R (api.escape h input) := by
  rw [Api.escape_eq]
  refine hR.call api _ ⟨fun p e ↦ ?_, fun p e ↦ ?_, fun _ p e ↦ ?_⟩
  all_goals
    rw [Engine.answerEscape]
    split <;> rfl

theorem unescape (h : Nat) (input : Bytes) : Within R (api.unescape h input) := by
  rw [Api.unescape_eq]
  refine hR.call api _ ⟨fun p e ↦ ?_, fun p e ↦ ?_, fun _ p e ↦ ?_⟩
  all_goals
    rw [Engine.answerUnescape]
    split <;> rfl

theorem free (a : Address) : Within R (api.free a) := by
  rw [Api.free_eq]
  refine hR.call api _ ⟨fun _ _ ↦ ?_, fun _ _ ↦ ?_, fun _ _ _ ↦ ?_⟩
  all_goals cases a <;> rfl

end Calm

namespace Api

variable (api : Api) {α : Type} {s : State}

theorem leads_call (m : Method) {answer : Policy → Engine → Answered α} {ok : α → State → Prop}
    (h : ∀ x, answer (counted s).policy (counted s).engine = x →
      ok x.result (answered api.route x (counted s))) :
    Leads (api.call m answer) s ok fun _ t ↦ Drift [] s t := calm_drift.leads_call api m h

/-! ## Codes -/

theorem leads_checked {x : Attempt ResultCode} {ok : PUnit → State → Prop}
    {err : Error → State → Prop}
    (h : Leads x s (fun c t ↦ (c.isOk = true → ok ⟨⟩ t) ∧
      (c.isOk = false → ∀ e u, Drift [] t u → err e u)) err) :
    Leads (x >>= api.check) s ok err := by
  rw [leads_bind]
  refine h.mono (fun c t ht ↦ ?_) fun _ _ ht ↦ ht
  refine (calm_drift.leads_check api c).mono (fun _ u hu ↦ ?_) fun e u hu ↦ ht.2 hu.1 e u hu.2
  obtain ⟨hc, rfl⟩ := hu
  exact ht.1 hc

/-! ## Options -/

/-- An option is stored exactly if the answer is zero, whichever method it is set by. -/
theorem leads_setopt {id : WrapperId} (hapi : (s.wrapper id).api = api) (h : Nat) (o : OptionCode)
    (x : Argument) :
    Leads (ResultCode.ofSigned <$> api.call (Method.storing o x)
        fun p e ↦ e.answerSetopt p (Method.storing o x) h o x) s
      (fun c t ↦ if c.isOk then Drift [] (s.store id h o x) t else Drift [] s t)
      fun _ t ↦ Drift [] s t := by
  rw [leads_map]
  refine leads_call api _ ?_
  intro y hy
  rw [Engine.answerSetopt] at hy
  by_cases hn : (counted s).policy.verdict (counted s).engine h o x = 0
  · rw [if_pos hn] at hy
    subst hy hapi
    rw [if_pos ((ResultCode.isOk_ofSigned _).2 hn), hn]
    exact (drift_counted s).store id h o x
  · rw [if_neg hn] at hy
    subst hy
    rw [if_neg (mt (ResultCode.isOk_ofSigned _).1 hn)]
    exact (drift_counted s).trans (Drift.of_engine rfl (fun _ _ _ h ↦ h) (decide_eq_false hn))

/-! ## Handles -/

theorem drift_told (x : Answered α) {tables : List (Nat × Settings)} (r : Route)
    (hh : x.engine.handles = tables) (hl : x.engine.lists = s.engine.lists) :
    Drift [] (s.told tables r x.call) (answered r x s) where
  handles := hh
  lists n _ _ h := (Engine.list?_congr hl n).trans h
  wrappers := rfl
  registry := rfl
  opened := rfl
  policy := rfl
  strays := rfl
  serials := Nat.le_refl _
  settling := rfl

theorem leads_init :
    Leads api.init s
      (fun given t ↦ match given with
        | none => Drift [] s t
        | some h => (s.Fresh → s.engine.settings? h = none) ∧ Drift [] (s.begin api.route h) t)
      fun _ t ↦ Drift [] s t := by
  rw [init_eq]
  refine leads_call api _ fun x hx ↦ ?_
  rw [Engine.answerInit] at hx
  split at hx
  · subst hx
    exact (drift_counted s).trans (Drift.of_engine rfl (fun _ _ _ h ↦ h) rfl)
  · next h hg =>
    subst hx
    refine ⟨fun hf ↦ hf (counted s).engine rfl h hg, ((drift_counted s).begin api.route h).trans ?_⟩
    exact drift_told ⟨_, _, _⟩ api.route rfl rfl

theorem leads_duphandle (g : Nat) :
    Leads (api.duphandle g) s
      (fun given t ↦ match given with
        | none => Drift [] s t
        | some h => (s.Fresh → s.engine.settings? h = none) ∧ Drift [] (s.copy api.route g h) t)
      fun _ t ↦ Drift [] s t := by
  rw [duphandle_eq]
  refine leads_call api _ fun x hx ↦ ?_
  rw [Engine.answerDuphandle] at hx
  split at hx
  · subst hx
    exact (drift_counted s).trans (Drift.of_engine rfl (fun _ _ _ h ↦ h) rfl)
  · next h hg =>
    subst hx
    refine ⟨fun hf ↦ hf (counted s).engine rfl h hg,
      ((drift_counted s).copy api.route g h).trans ?_⟩
    exact drift_told ⟨_, _, _⟩ api.route rfl rfl

theorem leads_cleanup (h : Nat) :
    Leads (api.cleanup h) s (fun _ t ↦ Drift [] (s.close api.route h) t)
      fun _ t ↦ Drift [] s t := by
  rw [cleanup_eq]
  refine leads_call api _ ?_
  rintro x rfl
  exact (drift_counted s).close api.route h

theorem leads_reset (h : Nat) :
    Leads (api.reset h) s (fun _ t ↦ Drift [] (s.clear api.route h) t) fun _ t ↦ Drift [] s t := by
  rw [reset_eq]
  refine leads_call api _ ?_
  rintro x rfl
  exact (drift_counted s).clear api.route h

/-! ## Lists -/

/-- A new list, which none of the old ones was. -/
theorem drift_newList {x : Answered α} {e : Engine} {items : List (Option Bytes)} (r : Route)
    (hx : x.engine = (e.newList items).1) (hh : e.handles = s.engine.handles)
    (hl : e.lists = s.engine.lists) (hv : (Event.native r x.call).settles = false) :
    s.engine.list? (e.newList items).2 = none ∧ Drift [] s (answered r x s) ∧
      x.engine.list? (e.newList items).2 = some { items } := by
  have hnew : s.engine.list? (e.newList items).2 = none := by
    rw [← Engine.list?_congr hl]
    exact List.getElem?_eq_none (Nat.le_refl _)
  refine ⟨hnew, Drift.of_engine ?_ (fun n _ l h ↦ ?_) hv, ?_⟩
  · rw [hx]
    exact hh
  · have hne : n ≠ (e.newList items).2 := by
      rintro rfl
      exact absurd (h.symm.trans hnew) nofun
    rw [hx, Engine.list?_newList, if_neg hne, Engine.list?_congr hl]
    exact h
  · rw [hx, Engine.list?_newList, if_pos rfl]

theorem drift_modifyList {x : Answered α} {e : Engine} {n : Nat} {f : StringList → StringList}
    (r : Route) (hx : x.engine = e.modifyList n f) (hh : e.handles = s.engine.handles)
    (hl : e.lists = s.engine.lists) (hv : (Event.native r x.call).settles = false) :
    Drift [n] s (answered r x s) ∧ x.engine.list? n = (s.engine.list? n).map f := by
  refine ⟨Drift.of_engine ?_ (fun m hm l h ↦ ?_) hv, ?_⟩
  · rw [hx, ← hh]
    cases n with
    | zero => rfl
    | succ n => rfl
  · rw [hx, Engine.list?_modifyList, if_neg (by simpa using hm), Engine.list?_congr hl]
    exact h
  · rw [hx, Engine.list?_modifyList, if_pos rfl, Engine.list?_congr hl]

/-- A list that is made for an answer is new. -/
theorem leads_getList (h : Nat) (i : InfoCode) :
    Leads (api.getList h i) s
      (fun r t ↦ Drift [] s t ∧ ∀ n, r.2 = some n → s.engine.list? n = none)
      fun _ t ↦ Drift [] s t := by
  rw [getList_eq, leads_map]
  refine leads_call api _ fun x hx ↦ ?_
  simp only [Engine.answerListInfo] at hx
  split at hx
  · obtain ⟨hn, hd, -⟩ := drift_newList (s := counted s) api.route
      (congrArg Answered.engine hx.symm) rfl rfl (by rw [← hx]; rfl)
    rw [← hx] at hd ⊢
    refine ⟨(drift_counted s).trans hd, ?_⟩
    rintro _ ⟨⟩
    exact hn
  · subst hx
    exact ⟨(drift_counted s).trans (Drift.of_engine rfl (fun _ _ _ h ↦ h) rfl), nofun⟩

/-- A first item makes a new list. -/
theorem leads_append_none (item : String) :
    Leads (api.append none item) s
      (fun given t ↦ match given with
        | none => Drift [] s t
        | some n => s.engine.list? n = none ∧ Drift [] s t ∧
          t.engine.list? n = some { items := [some (Text.utf8 item)] })
      fun _ t ↦ Drift [] s t := by
  rw [append_eq]
  refine leads_call api _ fun x hx ↦ ?_
  simp only [Engine.answerAppend] at hx
  split at hx
  · subst hx
    exact (drift_counted s).trans (Drift.of_engine rfl (fun _ _ _ h ↦ h) rfl)
  · obtain ⟨hn, hd, hl⟩ := drift_newList (s := counted s) api.route
      (congrArg Answered.engine hx.symm) rfl rfl (by rw [← hx]; rfl)
    rw [← hx] at hd hl ⊢
    exact ⟨hn, (drift_counted s).trans hd, hl⟩

/-- Any other item makes the list one longer. -/
theorem leads_append_some (n : Nat) (item : String) :
    Leads (api.append (some n) item) s
      (fun given t ↦ match given with
        | none => Drift [] s t
        | some m => m = n ∧ Drift [n] s t ∧ t.engine.list? n = (s.engine.list? n).map fun l ↦
            { l with items := l.items ++ [some (Text.utf8 item)] })
      fun _ t ↦ Drift [] s t := by
  rw [append_eq]
  refine leads_call api _ fun x hx ↦ ?_
  simp only [Engine.answerAppend] at hx
  split at hx
  · subst hx
    exact (drift_counted s).trans (Drift.of_engine rfl (fun _ _ _ h ↦ h) rfl)
  · obtain ⟨hd, hl⟩ := drift_modifyList (s := counted s) api.route
      (congrArg Answered.engine hx.symm) rfl rfl (by rw [← hx]; rfl)
    rw [← hx] at hd hl ⊢
    exact ⟨rfl, (drift_counted s).trans hd, hl⟩

theorem leads_freeList (n : Nat) :
    Leads (api.freeList n) s (fun _ t ↦ Drift [n] s t) fun _ t ↦ Drift [] s t := by
  rw [freeList_eq]
  refine leads_call api _ ?_
  rintro x rfl
  exact (drift_counted s).trans (drift_modifyList (s := counted s) api.route rfl rfl rfl rfl).1

end Api

end NativeTransfer
