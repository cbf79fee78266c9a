import NativeTransfer.Proofs.Requests
import NativeTransfer.Wrapper.Setting

/-!
# What the engine is asked on the way

The trace only grows, so what happened between two states can be read off the end of it. Most of
what a program does on the way is of no concern to any handle: lists are built and taken down, codes
are put into words, things are reported. What is left are calls that take one handle, always the
program's own, and by the way to the engine that its wrapper has. `Asks` says this of a program, and
along with it which options the engine was asked to set. Programs are taken apart along their binds,
and what the parts ask for is joined.

## The two layers

Programs that no handle has a part in are settled first. An act of that sort is `Minor`, and an
attempt `Incidental`; both can be put anywhere in a program without a change to what it asks for. On
top of them `Asks` has a postcondition on the list of what was asked, one for success and one for
failure, and the list of a bind is the list of the first part followed by that of the second. Where
nothing more is needed than that no other handle is touched, `Heeds` leaves the lists out.

A mismatch between option and value is the only error that these lemmas tell from all others, since
it is the only one that is raised before the engine was asked for anything.
-/

namespace NativeTransfer

open State

/-! ## Handles in events -/

/-- The handle that a call makes use of, and is left with. -/
def NativeCall.used? : NativeCall → Option Nat
  | .reset h => some h
  | .perform h => some h
  | .pause h _ _ => some h
  | .setopt _ h _ _ _ => some h
  | .getinfo _ h _ _ => some h
  | .send h _ _ => some h
  | .recv h _ _ => some h
  | .escape h _ => some h
  | .unescape h _ => some h
  | .impersonate h _ _ _ => some h
  | _ => none

/-- The handle that a call takes. -/
def NativeCall.handle? : NativeCall → Option Nat
  | .duphandle h _ => some h
  | .cleanup h => some h
  | c => c.used?

/-- The handle that comes of a call. -/
def NativeCall.given? : NativeCall → Option Nat
  | .init given => given
  | .duphandle _ given => given
  | _ => none

theorem NativeCall.of_used? {c : NativeCall} {h : Nat} (hc : c.used? = some h) :
    c.handle? = some h ∧ c.given? = none ∧ ∀ g, c ≠ .cleanup g := by
  rw [used?.eq_def] at hc
  split at hc
  all_goals first
    | exact ⟨hc, rfl, nofun⟩
    | cases hc

/-- An argument that the engine was asked to take for an option. -/
structure SetCall where
  method : Method
  handle : Nat
  option : OptionCode
  argument : Argument
  deriving DecidableEq

namespace Event

/-- What an event asks the engine to set. -/
def set? : Event → Option SetCall
  | .native _ (.setopt m h o x _) => some ⟨m, h, o, x⟩
  | _ => none

/-- Whether an event is of no concern to any handle. -/
def isAside : Event → Bool
  | .native _ c => c.handle?.isNone && c.given?.isNone
  | v => v.isTalk

/-- Whether the event only makes use of a handle. -/
inductive About (r : Route) (h : Nat) : Event → Prop
  | aside {v : Event} (hv : v.isAside = true) : About r h v
  | use {c : NativeCall} (hc : c.used? = some h) : About r h (.native r c)

theorem isAside_of_isTalk {v : Event} (hv : v.isTalk = true) : v.isAside = true := by
  cases v with
  | native => cases hv
  | unreached | log | note | skipped | returned | filled => exact hv

theorem set?_of_isAside {v : Event} (hv : v.isAside = true) : v.set? = none := by
  rw [set?.eq_def]
  split
  · cases hv
  · rfl

end Event

/-! ## Between two states -/

namespace State

/-- What has happened since. -/
def since (s t : State) : List Event := t.trace.drop s.trace.length

/-- What the engine was asked to set since. -/
def asked (s t : State) : List SetCall := (s.since t).filterMap Event.set?

/-- It is the same engine, every wrapper has the handle and the way to the engine that it had, and
all that has happened is such. -/
structure Minds (V : Event → Prop) (s t : State) : Prop where
  policy : t.policy = s.policy
  handle : ∀ j, (t.wrapper j).handle = (s.wrapper j).handle
  api : ∀ j, (t.wrapper j).api = (s.wrapper j).api
  trace : t.trace = s.trace ++ s.since t
  events : ∀ v ∈ s.since t, V v

variable {V V' : Event → Prop} {s t u : State}

theorem since_of_eq {vs : List Event} (h : t.trace = s.trace ++ vs) : s.since t = vs := by
  rw [since, h, List.drop_left]

theorem since_self (s : State) : s.since s = [] := since_of_eq (List.append_nil _).symm

theorem asked_self (s : State) : s.asked s = [] := by
  rw [asked, since_self]
  rfl

theorem since_of_trace (ht : t.trace = s.trace ++ s.since t) (hu : u.trace = t.trace ++ t.since u) :
    s.since u = s.since t ++ t.since u :=
  since_of_eq (by rw [hu, ht, since_of_eq (s := s) ht, List.append_assoc])

namespace Minds

theorem of_trace (hp : t.policy = s.policy) (hh : ∀ j, (t.wrapper j).handle = (s.wrapper j).handle)
    (ha : ∀ j, (t.wrapper j).api = (s.wrapper j).api) {vs : List Event}
    (ht : t.trace = s.trace ++ vs) (hvs : ∀ v ∈ vs, V v) : Minds V s t := by
  have hsince := since_of_eq ht
  refine ⟨hp, hh, ha, ?_, ?_⟩
  · rw [hsince]
    exact ht
  · rw [hsince]
    exact hvs

theorem of_same (hp : t.policy = s.policy) (hw : t.wrappers = s.wrappers)
    (ht : t.trace = s.trace) : Minds V s t := by
  refine of_trace hp (fun j ↦ ?_) (fun j ↦ ?_) (ht.trans (List.append_nil _).symm)
    fun _ hv ↦ absurd hv List.not_mem_nil
  · rw [wrapper_congr hw]
  · rw [wrapper_congr hw]

theorem refl (s : State) : Minds V s s := of_same rfl rfl rfl

theorem since_eq (h : Minds V s t) (h' : Minds V' t u) : s.since u = s.since t ++ t.since u :=
  since_of_trace h.trace h'.trace

theorem asked_eq (h : Minds V s t) (h' : Minds V' t u) : s.asked u = s.asked t ++ t.asked u := by
  rw [asked, h.since_eq h', List.filterMap_append]
  rfl

theorem trans (h : Minds V s t) (h' : Minds V t u) : Minds V s u := by
  have htrace : u.trace = s.trace ++ (s.since t ++ t.since u) := by
    rw [h'.trace, ← List.append_assoc, ← h.trace]
  refine of_trace (h'.policy.trans h.policy) (fun j ↦ (h'.handle j).trans (h.handle j))
    (fun j ↦ (h'.api j).trans (h.api j)) htrace fun v hv ↦ ?_
  exact (List.mem_append.1 hv).elim (h.events v) (h'.events v)

theorem mono (h : Minds V s t) (hV : ∀ v, V v → V' v) : Minds V' s t :=
  { h with events := fun v hv ↦ hV v (h.events v hv) }

theorem of_event (s : State) (e : Engine) {v : Event} (hv : V v) :
    Minds V s { s with engine := e, trace := s.trace ++ [v] } :=
  of_trace rfl (fun _ ↦ rfl) (fun _ ↦ rfl) rfl fun w hw ↦ by rwa [List.mem_singleton.1 hw]

theorem modifyWrapper (s : State) (id : WrapperId) {f : Wrapper → Wrapper}
    (hh : ∀ w, (f w).handle = w.handle) (ha : ∀ w, (f w).api = w.api) :
    Minds V s (s.modifyWrapper id f) :=
  of_trace rfl (fun j ↦ proj_modifyWrapper s id j Wrapper.handle hh)
    (fun j ↦ proj_modifyWrapper s id j Wrapper.api ha) (List.append_nil _).symm
    fun _ hv ↦ absurd hv List.not_mem_nil

theorem asked_of_event (s : State) (e : Engine) (v : Event) :
    s.asked { s with engine := e, trace := s.trace ++ [v] } = v.set?.toList := by
  have hsince : s.since { s with engine := e, trace := s.trace ++ [v] } = [v] := since_of_eq rfl
  rw [asked, hsince]
  cases hv : v.set? with
  | none => rw [List.filterMap_cons_none hv]; rfl
  | some c => rw [List.filterMap_cons_some hv]; rfl

theorem asked_eq_nil (h : Minds (fun v ↦ v.isAside = true) s t) : s.asked t = [] :=
  List.filterMap_eq_nil_iff.2 fun v hv ↦ Event.set?_of_isAside (h.events v hv)

theorem talkative : Talkative (Minds fun v ↦ v.isAside = true) where
  refl := refl
  trans _ _ _ := trans
  event s _ hv := of_event s s.engine (Event.isAside_of_isTalk hv)
  slots s id _ _ _ _ := modifyWrapper s id (fun _ ↦ rfl) fun _ ↦ rfl

end Minds

end State

/-! ## Programs that mind their own business -/

/-- The value did not fit the option. -/
def Error.isMismatch : Error → Bool
  | .typeMismatch _ _ _ => true
  | _ => false

/-- Nothing that an act does is of concern to any handle. -/
def Minor {α : Type} (x : Act α) : Prop :=
  ∀ s, Ends x s fun _ t ↦ Minds (fun v ↦ v.isAside = true) s t

/-- Nothing that an attempt does is of concern to any handle, and if it fails it is not for a value
that does not fit. -/
def Incidental {α : Type} (x : Attempt α) (P : α → Prop) : Prop :=
  ∀ s, Leads x s (fun a t ↦ Minds (fun v ↦ v.isAside = true) s t ∧ P a) fun e t ↦
    Minds (fun v ↦ v.isAside = true) s t ∧ e.isMismatch = false

/-- A program for a handle, by a way to the engine, asks the engine to set some options, and what it
comes to goes with what it has asked for by then. -/
def Asks {α : Type} (r : Route) (id : WrapperId) (h : Nat) (x : Attempt α)
    (ok : α → List SetCall → Prop) (err : Error → List SetCall → Prop) : Prop :=
  ∀ s : State, (s.wrapper id).api.route = r →
    Leads x s (fun a t ↦ Minds (Event.About r h) s t ∧ ok a (s.asked t)) fun e t ↦
      Minds (Event.About r h) s t ∧ err e (s.asked t)

section

variable {α β : Type} {r : Route} {id : WrapperId} {h : Nat} {x : Attempt α} {f : α → Attempt β}
  {P : α → Prop} {Q : β → Prop} {ok : α → List SetCall → Prop}
  {ok' : β → List SetCall → Prop} {err err' : Error → List SetCall → Prop}

/-! ### Acts -/

theorem Minor.bind {x : Act α} {f : α → Act β} (hx : Minor x) (hf : ∀ a, Minor (f a)) :
    Minor (x >>= f) := by
  intro s
  rw [ends_bind]
  exact (hx s).mono fun a t ht ↦ (hf a t).mono fun _ _ hu ↦ ht.trans hu

theorem Minor.discard {x : Act α} (hx : Minor x) : Minor (Functor.discard x) :=
  fun s ↦ ends_discard.2 (hx s)

theorem minor_report (level : Level) {message : String} (fields : List (String × Field))
    (hm : message ≠ LogRecord.unreleased) : Minor (report level message fields) :=
  fun s ↦ Minds.of_event s s.engine (decide_eq_true hm)

theorem Incidental.run (hx : Incidental x P) : Minor x.run := fun s ↦
  ends_run.2 ((hx s).mono (fun _ _ ht ↦ ht.1) fun _ _ ht ↦ ht.1)

/-! ### Incidental attempts -/

theorem Incidental.mono {P' : α → Prop} (hx : Incidental x P) (hP : ∀ a, P a → P' a) :
    Incidental x P' := fun s ↦
  (hx s).mono (fun a _ ht ↦ ⟨ht.1, hP a ht.2⟩) fun _ _ ht ↦ ht

theorem Minor.incidental {x : Act α} (hx : Minor x) :
    Incidental (liftM x : Attempt α) fun _ ↦ True := fun s ↦
  leads_lift.2 ((hx s).mono fun _ _ ht ↦ ⟨ht, trivial⟩)

theorem incidental_pure {a : α} (ha : P a) : Incidental (pure a) P := fun s ↦ ⟨Minds.refl s, ha⟩

theorem incidental_throw {e : Error} (he : e.isMismatch = false) :
    Incidental (throw e : Attempt α) P := fun s ↦ ⟨Minds.refl s, he⟩

theorem Incidental.bind (hx : Incidental x P) (hf : ∀ a, P a → Incidental (f a) Q) :
    Incidental (x >>= f) Q := by
  intro s
  rw [leads_bind]
  refine (hx s).mono (fun a t ht ↦ ?_) fun _ _ ht ↦ ht
  exact (hf a ht.2 t).mono (fun _ _ hu ↦ ⟨ht.1.trans hu.1, hu.2⟩)
    fun _ _ hu ↦ ⟨ht.1.trans hu.1, hu.2⟩

theorem Incidental.map (hx : Incidental x P) {g : α → β} (hg : ∀ a, P a → Q (g a)) :
    Incidental (g <$> x) Q := fun s ↦
  leads_map.2 ((hx s).mono (fun a _ ht ↦ ⟨ht.1, hg a ht.2⟩) fun _ _ ht ↦ ht)

theorem Incidental.discard (hx : Incidental x P) :
    Incidental (Functor.discard x) fun _ ↦ True := hx.map fun _ _ ↦ trivial

theorem Incidental.observed (hx : Incidental x P) :
    Incidental (NativeTransfer.observed x) fun a ↦ match a with
      | .ok a => P a
      | .error e => e.isMismatch = false := fun s ↦
  leads_observed.2 ((hx s).mono (fun _ _ ht ↦ ht) fun _ _ ht ↦ ht)

/-! ### Attempts that ask -/

theorem Asks.mono (hx : Asks r id h x ok err) {ok' : α → List SetCall → Prop}
    {err' : Error → List SetCall → Prop} (hok : ∀ a cs, ok a cs → ok' a cs)
    (herr : ∀ e cs, err e cs → err' e cs) : Asks r id h x ok' err' := fun s hs ↦
  (hx s hs).mono (fun _ _ ht ↦ ⟨ht.1, hok _ _ ht.2⟩) fun _ _ ht ↦ ⟨ht.1, herr _ _ ht.2⟩

theorem Incidental.asks (hx : Incidental x P) : Asks r id h x (fun a cs ↦ P a ∧ cs = [])
    fun e cs ↦ e.isMismatch = false ∧ cs = [] := fun s _ ↦
  (hx s).mono (fun _ _ ht ↦ ⟨ht.1.mono fun _ ↦ .aside, ht.2, ht.1.asked_eq_nil⟩)
    fun _ _ ht ↦ ⟨ht.1.mono fun _ ↦ .aside, ht.2, ht.1.asked_eq_nil⟩

theorem Asks.bind (hx : Asks r id h x ok fun e cs ↦ err e cs)
    (hf : ∀ a cs, ok a cs →
      Asks r id h (f a) (fun b ds ↦ ok' b (cs ++ ds)) fun e ds ↦ err e (cs ++ ds)) :
    Asks r id h (x >>= f) ok' err := by
  intro s hs
  rw [leads_bind]
  refine (hx s hs).mono (fun a t ht ↦ ?_) fun _ _ ht ↦ ht
  have hroute : (t.wrapper id).api.route = r := by
    rw [ht.1.api]
    exact hs
  refine (hf a _ ht.2 t hroute).mono (fun _ u hu ↦ ⟨ht.1.trans hu.1, ?_⟩)
    fun _ u hu ↦ ⟨ht.1.trans hu.1, ?_⟩
  · rw [ht.1.asked_eq hu.1]
    exact hu.2
  · rw [ht.1.asked_eq hu.1]
    exact hu.2

/-- What was of no concern to any handle may as well have happened as a part of the program. -/
theorem Asks.leads_of_minds (hx : Asks r id h x ok err) {s u : State}
    (hs : (s.wrapper id).api.route = r) (hu : Minds (fun v ↦ v.isAside = true) s u) :
    Leads x u (fun a t ↦ Minds (Event.About r h) s t ∧ ok a (s.asked t)) fun e t ↦
      Minds (Event.About r h) s t ∧ err e (s.asked t) := by
  have hroute : (u.wrapper id).api.route = r := by
    rw [hu.api]
    exact hs
  have hasked {t : State} (ht : Minds (Event.About r h) u t) : s.asked t = u.asked t := by
    rw [hu.asked_eq ht, hu.asked_eq_nil, List.nil_append]
  refine (hx u hroute).mono (fun _ t ht ↦ ⟨(hu.mono fun _ ↦ .aside).trans ht.1, ?_⟩)
    fun _ t ht ↦ ⟨(hu.mono fun _ ↦ .aside).trans ht.1, ?_⟩
  · rw [hasked ht.1]
    exact ht.2
  · rw [hasked ht.1]
    exact ht.2

theorem Incidental.bind_asks (hx : Incidental x P)
    (hf : ∀ a, P a → Asks r id h (f a) ok' err) (herr : ∀ e, e.isMismatch = false → err e []) :
    Asks r id h (x >>= f) ok' err := by
  have hfirst : Asks r id h x (fun a cs ↦ P a ∧ cs = []) err := by
    refine hx.asks.mono (fun _ _ ha ↦ ha) ?_
    rintro e _ ⟨he, rfl⟩
    exact herr e he
  refine hfirst.bind ?_
  rintro a _ ⟨ha, rfl⟩
  exact hf a ha

theorem Asks.orUndo (hx : Asks r id h x ok err) {undo : Act Unit} (hu : Minor undo) :
    Asks r id h (orUndo x undo) ok err := by
  intro s hs
  rw [leads_orUndo]
  refine (hx s hs).mono (fun _ _ ht ↦ ht) fun e t ht ↦ ?_
  refine (hu t).mono fun _ u hu ↦ ⟨ht.1.trans (hu.mono fun _ ↦ .aside), ?_⟩
  rw [ht.1.asked_eq hu, hu.asked_eq_nil, List.append_nil]
  exact ht.2

/-! ### Attempts that heed the handle -/

/-- Whatever is asked of the engine, and whatever becomes of it, use is made of no other handle, and
no value is said not to fit. -/
def Heeds (r : Route) (id : WrapperId) (h : Nat) (x : Attempt α) : Prop :=
  Asks r id h x (fun _ _ ↦ True) fun e _ ↦ e.isMismatch = false

theorem Asks.heeds (hx : Asks r id h x ok err) (herr : ∀ e cs, err e cs → e.isMismatch = false) :
    Heeds r id h x := hx.mono (fun _ _ _ ↦ trivial) herr

theorem Heeds.bind (hx : Heeds r id h x) (hf : ∀ a, Heeds r id h (f a)) :
    Heeds r id h (x >>= f) := Asks.bind hx fun a _ _ ↦ hf a

theorem Heeds.map (hx : Heeds r id h x) (g : α → β) : Heeds r id h (g <$> x) := fun s hs ↦
  leads_map.2 (hx s hs)

theorem Incidental.heeds (hx : Incidental x P) : Heeds r id h x := hx.asks.heeds fun _ _ he ↦ he.1

theorem heeds_pure (a : α) : Heeds r id h (pure a : Attempt α) :=
  (incidental_pure (P := fun _ ↦ True) trivial).heeds

theorem heeds_throw {e : Error} (he : e.isMismatch = false) :
    Heeds r id h (throw e : Attempt α) := (incidental_throw (P := fun _ ↦ True) he).heeds

end

/-! ## Native calls -/

namespace Api

variable (api : Api) {α : Type} {r : Route} {id : WrapperId} {h : Nat}

theorem isMismatch_of_refusal? {m : Method} {e : Error} (he : api.refusal? m = some e) :
    e.isMismatch = false := by
  cases api with
  | inProcess => cases he
  | linked =>
    rw [refusal?] at he
    split at he
    · cases he
      rfl
    · cases he
  | dynamic module =>
    rw [refusal?] at he
    split at he
    · cases he
    · next e' hentry =>
      cases he
      cases module with
      | ok m =>
        rw [Library.Loaded.entry, Library.Module.entry] at hentry
        split at hentry
        · cases hentry
        · cases hentry
          rfl
      | error reason =>
        cases hentry
        rfl

theorem incidental_gate (m : Method) : Incidental (api.gate m) fun _ ↦ True := by
  intro s
  simp only [gate, leads_bind, leads_get, leads_set]
  split
  · next e he => exact ⟨Minds.of_same rfl rfl rfl, api.isMismatch_of_refusal? he⟩
  · split
    · exact ⟨(Minds.of_event (V := fun v ↦ v.isAside = true) s
        { s.engine with calls := s.engine.calls + 1 } (v := .unreached m) rfl), rfl⟩
    · exact ⟨Minds.of_same rfl rfl rfl, trivial⟩

theorem leads_call_answered (m : Method) {answer : Policy → Engine → Answered α}
    {ok : α → State → Prop} {s : State} (h : ∀ x, answer (counted s).policy (counted s).engine = x →
      ok x.result (answered api.route x (counted s))) :
    Leads (api.call m answer) s ok fun e t ↦
      Minds (fun v ↦ v.isAside = true) s t ∧ e.isMismatch = false :=
  api.leads_call_of_gate (((api.gate_cases m).and (api.incidental_gate m s)).mono
    (fun _ _ ht ↦ ht.1) fun _ _ ht ↦ ht.2) h

theorem incidental_call (m : Method) {answer : Policy → Engine → Answered α}
    (hc : ∀ p e, (answer p e).call.handle? = none ∧ (answer p e).call.given? = none) :
    Incidental (api.call m answer) fun _ ↦ True := by
  refine (api.incidental_gate m).bind fun _ _ s ↦ ⟨Minds.of_event s _ ?_, trivial⟩
  obtain ⟨hh, hg⟩ := hc s.policy s.engine
  rw [Event.isAside, hh, hg]
  rfl

/-- A call that only makes use of a handle. -/
theorem asks_call (hr : api.route = r) (m : Method) {answer : Policy → Engine → Answered α}
    (hc : ∀ p e, (answer p e).call.used? = some h) {cs : List SetCall}
    (hcs : ∀ p e, (Event.native r (answer p e).call).set?.toList = cs) :
    Asks r id h (api.call m answer) (fun _ ds ↦ ds = cs)
      fun e ds ↦ e.isMismatch = false ∧ ds = [] := by
  refine (api.incidental_gate m).bind_asks (fun _ _ s _ ↦ ?_) fun e he ↦ ⟨he, rfl⟩
  constructor
  · refine Minds.of_event s _ ?_
    rw [hr]
    exact .use (hc _ _)
  · refine (Minds.asked_of_event s _ _).trans ?_
    rw [hr]
    exact hcs _ _

theorem heeds_call (hr : api.route = r) (m : Method) {answer : Policy → Engine → Answered α}
    (hc : ∀ p e, (answer p e).call.used? = some h)
    (hs : ∀ p e, (Event.native r (answer p e).call).set? = none) :
    Heeds r id h (api.call m answer) := by
  have hnone (p : Policy) (e : Engine) : (Event.native r (answer p e).call).set?.toList = [] := by
    rw [hs]
    rfl
  exact (api.asks_call hr m hc hnone).heeds fun _ _ he ↦ he.1

theorem minor_strerror (code : ResultCode) : Minor (api.strerror code) := by
  rw [strerror_eq]
  split
  · exact fun s ↦ Minds.of_event s _ rfl
  · refine Minor.bind (Incidental.run (api.incidental_call .strerror fun _ _ ↦ ⟨rfl, rfl⟩))
      fun r s ↦ ?_
    cases r with
    | ok => exact Minds.refl s
    | error => exact Minds.refl s

theorem incidental_check (code : ResultCode) : Incidental (api.check code) fun _ ↦ True := by
  rw [check]
  split
  · exact (api.minor_strerror code).incidental.bind fun _ _ ↦ incidental_throw rfl
  · exact incidental_pure trivial

end Api

/-! ## Texts, ledgers and lists -/

namespace Wrapper

variable {r : Route} {id : WrapperId} {h : Nat}

theorem minor_getApi : Minor (getApi id) := fun s ↦ Minds.refl s

theorem asks_getApi : Asks r id h (liftM (getApi id)) (fun api cs ↦ api.route = r ∧ cs = [])
    fun _ _ ↦ False := fun s hs ↦ ⟨Minds.refl s, hs, asked_self s⟩

theorem heeds_getApi {α : Type} {f : Api → Attempt α}
    (hf : ∀ api, api.route = r → Heeds r id h (f api)) :
    Heeds r id h (liftM (getApi id) >>= f) := by
  refine Asks.bind (asks_getApi.mono (fun _ _ ha ↦ ha) fun _ _ he ↦ he.elim) ?_
  rintro api _ ⟨hr, -⟩
  exact hf api hr

theorem minor_getLedger : Minor (getLedger id) := fun s ↦ Minds.refl s

theorem minor_getSlots : Minor (getSlots id) := fun s ↦ Minds.refl s

theorem minor_modifySlots (f : Slots → Slots) : Minor (modifySlots id f) := fun s ↦
  Minds.modifyWrapper s id (fun _ ↦ rfl) fun _ ↦ rfl

theorem minor_modifyLedger (f : Ledger → Ledger) : Minor (modifyLedger id f) := fun s ↦
  Minds.modifyWrapper s id (fun _ ↦ rfl) fun _ ↦ rfl

theorem minor_record (a : Allocation) : Minor (record id a) := by
  intro s
  refine (ends_record a).mono ?_
  rintro _ t rfl
  have hnoted : Minds (fun v ↦ v.isAside = true) s (s.noting id a) := by
    rw [State.noting_eq]
    exact Minds.of_same rfl rfl rfl
  exact hnoted.trans (Minds.modifyWrapper _ id (fun _ ↦ rfl) fun _ ↦ rfl)

theorem minor_recordEach (as : List Allocation) : Minor (recordEach id as) := by
  induction as with
  | nil => exact fun s ↦ Minds.refl s
  | cons a as ih => exact (minor_record a).bind fun _ ↦ ih

theorem minor_newSerial : Minor newSerial := fun _ ↦ Minds.of_same rfl rfl rfl

theorem minor_freeNativeList (api : Api) (head : Option Nat) :
    Minor (freeNativeList api head) := by
  cases head with
  | none => exact fun s ↦ Minds.refl s
  | some n =>
    rw [freeNativeList, Api.freeList_eq]
    refine (api.incidental_call .listFree fun _ _ ↦ ⟨rfl, rfl⟩).run.bind fun r ↦ ?_
    cases r with
    | ok => exact fun s ↦ Minds.refl s
    | error => exact minor_report _ _ (by decide)

theorem minor_freeNativeLists (api : Api) (as : List Allocation) :
    Minor (freeNativeLists api as) := by
  induction as with
  | nil => exact fun s ↦ Minds.refl s
  | cons a as ih => exact (minor_freeNativeList api _).bind fun _ ↦ ih

theorem minor_releaseSince (mark : Nat) : Minor (releaseSince id mark) := by
  refine minor_getLedger.bind fun l ↦ (minor_modifyLedger _).bind fun _ ↦ ?_
  refine Minor.bind (x := get) (fun s ↦ Minds.refl s) fun w ↦ minor_getApi.bind fun api ↦ ?_
  exact (minor_freeNativeLists api _).bind fun _ s ↦ Minds.refl s

theorem incidental_checkText (x : String) : Incidental (checkText x) fun _ ↦ True := by
  rw [checkText]
  split
  · exact incidental_throw rfl
  · exact incidental_pure trivial

theorem incidental_checkLength (x : String) : Incidental (checkLength x) fun _ ↦ True := by
  rw [checkLength]
  split
  · exact incidental_pure trivial
  · exact incidental_throw rfl

theorem incidental_recordText (x : String) :
    Incidental (recordText id x) fun a ↦ ∃ n, a = .copy n x := by
  refine (incidental_checkText x).bind fun _ _ ↦ minor_newSerial.incidental.bind fun n _ ↦ ?_
  exact (minor_record _).incidental.bind fun _ _ ↦ incidental_pure ⟨n, rfl⟩

theorem incidental_appendItem (head : Option Nat) (item : String) :
    Incidental (appendItem id head item) fun _ ↦ True := by
  refine minor_getApi.incidental.bind fun api _ ↦ ?_
  refine (incidental_recordText item).discard.bind fun _ _ ↦ ?_
  rw [Api.append_eq]
  refine (api.incidental_call .listAppend fun p e ↦ ?_).bind fun given _ ↦ ?_
  · simp only [Engine.answerAppend]
    split
    · exact ⟨rfl, rfl⟩
    · split <;> exact ⟨rfl, rfl⟩
  · cases given with
    | none => exact incidental_throw rfl
    | some n => exact incidental_pure trivial

/-- A list is there once it has an item. -/
theorem incidental_buildList (o : OptionCode) (mark : Nat) (items : List String)
    (head : Option Nat) : Incidental (buildList id o mark head items) fun given ↦
      given = none ↔ head = none ∧ items = [] := by
  induction items generalizing head with
  | nil => exact incidental_pure (by simp)
  | cons item rest ih =>
    rw [buildList]
    refine (incidental_appendItem head item).observed.bind fun appended he ↦ ?_
    cases appended with
    | ok n => exact (ih (some n)).mono fun _ hg ↦ hg.trans (by simp)
    | error e =>
      refine (minor_releaseSince mark).discard.incidental.bind fun _ _ ↦ ?_
      refine minor_getApi.incidental.bind fun api _ ↦ ?_
      refine (minor_freeNativeList api head).incidental.bind fun _ _ ↦ ?_
      exact (minor_report _ _ (by decide)).incidental.bind fun _ _ ↦ incidental_throw he

end Wrapper

end NativeTransfer
