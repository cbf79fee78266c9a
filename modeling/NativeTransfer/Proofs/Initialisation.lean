import Mathlib.Data.List.Induction
import NativeTransfer.Proofs.Asking
import NativeTransfer.Proofs.Run
import NativeTransfer.State.Global

/-!
# Initialisation and cleaning up

A caller may name any way to the engine when it asks for the engine to be initialised, or to be
cleaned up, but whether that is done already is told by one flag for the whole process. A request
whose work is done calls nothing. Any other makes one native call, and the flag is changed only if
that call succeeds. So the calls that succeed take turns, whichever ways they went by.

Which way a turn went by is not kept, and with several ways in use this shows. Taken together they
have been initialised once more than cleaned up exactly while the flag is set. Of each way by itself
this can be said only as long as nothing that is asked for while one way is initialised names
another.

## Turns in the trace

A turn is a native call for the engine as a whole that has succeeded. Turns are read off the trace,
and what alternates is the list of them, so nothing is assumed of how often or by which way anything
is asked for. `Turn.Alternating` has the flag for an index, and one request either leaves both as
they are or adds the one turn that the flag lets through (`Outcome`). The way that a turn went by is
kept beside it in `moves`, where it is of use to what is said of several ways.

A request that fails settles nothing. That is so even if the engine was called, and it is the reason
why the list of turns is of calls that have succeeded and not of calls.
-/

namespace NativeTransfer

open State

/-! ## Turns -/

/-- What a native call that succeeds does for the engine as a whole. -/
inductive Turn
  | init
  | cleanup
  deriving DecidableEq

/-- The flag after it. -/
def Turn.flag : Turn → Bool
  | init => true
  | cleanup => false

/-- Turns that are taken in turn, the first of them an initialisation, and the flag after them. -/
inductive Turn.Alternating : Bool → List Turn → Prop
  | nil : Alternating false []
  | concat {b : Bool} {ts : List Turn} {x : Turn} (h : Alternating b ts) (hx : b ≠ x.flag) :
      Alternating x.flag (ts ++ [x])

namespace Turn.Alternating

variable {b : Bool} {ts : List Turn}

theorem length_mod_two (h : Alternating b ts) : ts.length % 2 = if b then 1 else 0 := by
  induction h with
  | nil => rfl
  | @concat b ts x _ hx ih =>
    rw [List.length_append, List.length_singleton]
    cases x with
    | init =>
      rw [Bool.eq_false_iff.2 hx] at ih
      rw [Nat.add_mod, ih]
      rfl
    | cleanup =>
      rw [Bool.of_not_eq_false hx] at ih
      rw [Nat.add_mod, ih]
      rfl

/-- The turns stand in their places. -/
theorem getElem (h : Alternating b ts) (n : Nat) (hn : n < ts.length) :
    ts[n] = if n % 2 = 0 then .init else .cleanup := by
  induction h with
  | nil => cases hn
  | @concat b ts x h hx ih =>
    rw [List.length_append, List.length_singleton] at hn
    by_cases hlast : n < ts.length
    · rw [List.getElem_append_left hlast]
      exact ih hlast
    · obtain rfl : n = ts.length := by omega
      rw [List.getElem_concat_length rfl, h.length_mod_two]
      cases x with
      | init => rw [Bool.eq_false_iff.2 hx]; rfl
      | cleanup => rw [Bool.of_not_eq_false hx]; rfl

theorem getLast?_eq_init_iff (h : Alternating b ts) : ts.getLast? = some .init ↔ b = true := by
  cases h with
  | nil => exact ⟨nofun, nofun⟩
  | @concat b ts x h hx =>
    rw [List.getLast?_concat, Option.some_inj]
    cases x with
    | init => exact ⟨fun _ ↦ rfl, fun _ ↦ rfl⟩
    | cleanup => exact ⟨nofun, nofun⟩

theorem count_init (h : Alternating b ts) :
    ts.count .init = ts.count .cleanup + if b then 1 else 0 := by
  induction h with
  | nil => rfl
  | @concat b ts x _ hx ih =>
    rw [List.count_append, List.count_append, ih]
    cases x with
    | init => rw [Bool.eq_false_iff.2 hx]; rfl
    | cleanup => rw [Bool.of_not_eq_false hx]; rfl

end Turn.Alternating

/-- What an event did for the engine as a whole. -/
def Event.turn? : Event → Option Turn
  | .native _ (.globalInit _ code) => if code = 0 then some .init else none
  | .native _ .globalCleanup => some .cleanup
  | _ => none

namespace State

/-- What was done for the engine as a whole since. -/
def turns (s t : State) : List Turn := (s.since t).filterMap Event.turn?

/-- What happens on the way comes behind the trace, and these are the turns that are taken. -/
structure Takes (s : State) (ts : List Turn) (t : State) : Prop where
  trace : t.trace = s.trace ++ s.since t
  turns : s.turns t = ts

/-- No turn is taken, and nothing is settled. -/
structure Bides (s t : State) : Prop extends s.Takes [] t where
  settled : t.settled = s.settled

variable {s t u : State}

namespace Takes

variable {ts us : List Turn}

theorem of_trace {vs : List Event} (ht : t.trace = s.trace ++ vs) :
    s.Takes (vs.filterMap Event.turn?) t where
  trace := by rw [since_of_eq ht, ht]
  turns := by rw [State.turns, since_of_eq ht]

theorem of_same (ht : t.trace = s.trace) : s.Takes [] t :=
  of_trace (ht.trans (List.append_nil _).symm)

theorem trans (h : s.Takes ts t) (h' : t.Takes us u) : s.Takes (ts ++ us) u where
  trace := by
    rw [since_of_trace h.trace h'.trace, ← List.append_assoc, ← h.trace]
    exact h'.trace
  turns := by
    rw [State.turns, since_of_trace h.trace h'.trace, List.filterMap_append]
    exact congrArg₂ _ h.turns h'.turns

theorem of_event (s : State) (e : Engine) (v : Event) :
    s.Takes v.turn?.toList { s with engine := e, trace := s.trace ++ [v] } := by
  have h := of_trace (s := s) (t := { s with engine := e, trace := s.trace ++ [v] }) rfl
  cases hv : v.turn? with
  | none => rwa [List.filterMap_cons_none hv] at h
  | some x => rwa [List.filterMap_cons_some hv] at h

theorem settle (h : s.Takes ts t) (settled : Settled) (r : LogRecord) :
    s.Takes ts { t with settled, trace := t.trace ++ [.log r] } := by
  have hlog : t.Takes ([Event.log r].filterMap Event.turn?)
      { t with settled, trace := t.trace ++ [.log r] } := of_trace rfl
  rw [← List.append_nil ts]
  exact h.trans hlog

end Takes

namespace Bides

theorem of_event (s : State) (e : Engine) {v : Event} (hv : v.turn? = none) :
    s.Bides { s with engine := e, trace := s.trace ++ [v] } where
  toTakes := by
    have h := Takes.of_event s e v
    rwa [hv] at h
  settled := rfl

theorem trans (h : s.Bides t) (h' : t.Bides u) : s.Bides u :=
  ⟨h.toTakes.trans h'.toTakes, h'.settled.trans h.settled⟩

theorem counted (s : State) : s.Bides (Api.counted s) := ⟨.of_same rfl, rfl⟩

theorem of_records (s : State) (records : List LogRecord) :
    s.Bides { s with trace := s.trace ++ records.map .log } where
  toTakes := by
    have h : s.Takes ((records.map Event.log).filterMap Event.turn?)
        { s with trace := s.trace ++ records.map .log } := Takes.of_trace rfl
    rwa [List.filterMap_map, List.filterMap_eq_nil_iff.2 (by intro _ _; rfl)] at h
  settled := rfl

end Bides

end State

/-! ## Native calls -/

namespace Api

variable (api : Api) {α : Type} {s : State}

theorem bides_gate (m : Method) :
    Leads (api.gate m) s (fun _ t ↦ t = counted s) fun _ t ↦ s.Bides t := by
  refine (api.gate_cases m).mono (fun _ _ ht ↦ ht) ?_
  rintro _ _ (rfl | rfl)
  · exact .counted s
  · exact (Bides.counted s).trans (.of_event (counted s) _ rfl)

theorem takes_call (m : Method) {answer : Policy → Engine → Answered α} :
    Leads (api.call m answer) s
      (fun a t ↦ t.settled = s.settled ∧ ∃ p e, (answer p e).result = a ∧
        s.Takes (Event.native api.route (answer p e).call).turn?.toList t)
      fun _ t ↦ s.Bides t := by
  refine api.leads_call_of_gate (api.bides_gate m) ?_
  rintro x rfl
  exact ⟨rfl, _, _, rfl, (Bides.counted s).toTakes.trans (.of_event (counted s) _ _)⟩

theorem takes_globalInit (flags : Int64) :
    Leads (api.globalInit flags) s
      (fun code t ↦ t.settled = s.settled ∧ s.Takes (if code.isOk then [.init] else []) t)
      fun _ t ↦ s.Bides t := by
  rw [globalInit_eq, leads_map]
  refine (api.takes_call .globalInit).mono ?_ fun _ _ ht ↦ ht
  rintro _ t ⟨hs, p, e, rfl, ht⟩
  refine ⟨hs, ?_⟩
  rw [Engine.answerGlobalInit, Event.turn?] at ht
  rw [Engine.answerGlobalInit]
  by_cases hc : p.code e .globalInit = 0
  · rw [if_pos hc] at ht
    rwa [if_pos ((ResultCode.isOk_ofSigned _).2 hc)]
  · rw [if_neg hc] at ht
    rwa [if_neg (mt (ResultCode.isOk_ofSigned _).1 hc)]

theorem takes_globalCleanup :
    Leads api.globalCleanup s (fun _ t ↦ t.settled = s.settled ∧ s.Takes [.cleanup] t)
      fun _ t ↦ s.Bides t := by
  rw [globalCleanup_eq]
  refine (api.takes_call .globalCleanup).mono ?_ fun _ _ ht ↦ ht
  rintro _ t ⟨hs, _, _, -, ht⟩
  exact ⟨hs, ht⟩

theorem bides_strerror (c : ResultCode) : Ends (api.strerror c) s fun _ t ↦ s.Bides t := by
  rw [strerror_eq]
  split
  · exact .of_event s _ rfl
  · rw [ends_bind, ends_run]
    refine (api.takes_call .strerror).mono ?_ fun _ _ ht ↦ ht
    rintro _ t ⟨hs, _, _, -, ht⟩
    exact ⟨ht, hs⟩

theorem bides_check (c : ResultCode) :
    Leads (api.check c) s (fun _ t ↦ c.isOk = true ∧ t = s)
      fun _ t ↦ c.isOk = false ∧ s.Bides t := by
  rw [check]
  split
  · next hc =>
    rw [leads_bind, leads_lift]
    exact (api.bides_strerror c).mono fun _ t ht ↦ ⟨Bool.eq_false_iff.2 hc, ht⟩
  · next hc => exact ⟨Decidable.of_not_not hc, rfl⟩

end Api

/-! ## Requests -/

namespace Global

/-- What is asked for the engine as a whole, by one of several ways. -/
inductive Request (ι : Type)
  | init (way : ι) (flags : Int64)
  | cleanup (way : ι)

namespace Request

variable {ι : Type}

def way : Request ι → ι
  | init way _ => way
  | cleanup way => way

/-- The turn that it is to take. -/
def turn : Request ι → Turn
  | init _ _ => .init
  | cleanup _ => .cleanup

/-- Asks for it. -/
def run (ways : ι → Api) : Request ι → Attempt Unit
  | init way flags => Global.init (ways way) flags
  | cleanup way => Global.cleanup (ways way)

end Request

/-- What a request comes to. -/
inductive Outcome (s : State) (x : Turn) : Except Error Unit → State → Prop
  | done (records : List LogRecord) (hx : s.settled.initialized = x.flag) :
      Outcome s x (.ok ()) { s with trace := s.trace ++ records.map .log }
  | taken {t} (hx : s.settled.initialized ≠ x.flag) (ht : s.Takes [x] t)
      (hf : t.settled.initialized = x.flag) : Outcome s x (.ok ()) t
  | failed {e t} (hx : s.settled.initialized ≠ x.flag) (ht : s.Bides t) : Outcome s x (.error e) t

theorem outcome_init (api : Api) (flags : Int64) (s : State) :
    Leads (init api flags) s (fun _ t ↦ Outcome s .init (.ok ()) t)
      fun e t ↦ Outcome s .init (.error e) t := by
  rw [init_eq, leads_bind, leads_get]
  split
  · next hs => exact .done [⟨.debug, "global init already done", []⟩] hs
  · next hs =>
    rw [leads_bind]
    refine (api.takes_globalInit flags).mono (fun code t ht ↦ ?_) fun _ _ ht ↦ .failed hs ht
    rw [leads_bind]
    refine (api.bides_check code).mono ?_ ?_
    · rintro _ _ ⟨hc, rfl⟩
      rw [if_pos hc] at ht
      exact .taken hs (ht.2.settle _ _) rfl
    · rintro e u ⟨hc, hu⟩
      rw [hc, if_neg Bool.false_ne_true] at ht
      exact .failed hs (Bides.trans ⟨ht.2, ht.1⟩ hu)

theorem outcome_cleanup (api : Api) (s : State) :
    Leads (cleanup api) s (fun _ t ↦ Outcome s .cleanup (.ok ()) t)
      fun e t ↦ Outcome s .cleanup (.error e) t := by
  rw [cleanup, leads_bind, leads_get]
  split
  · next hs =>
    have h := Outcome.done (x := .cleanup) [] (Bool.eq_false_iff.2 hs)
    rwa [List.map_nil, List.append_nil] at h
  · next hs =>
    have hs : s.settled.initialized ≠ Turn.cleanup.flag := fun h ↦ hs (Bool.eq_false_iff.1 h)
    rw [leads_bind]
    refine api.takes_globalCleanup.mono (fun _ t ht ↦ ?_) fun _ _ ht ↦ .failed hs ht
    exact .taken hs (ht.2.settle _ _) rfl

/-- A request that was made. -/
structure Reply (ι : Type) where
  request : Request ι
  before : State
  result : Except Error Unit
  after : State

section

variable {ι : Type} (ways : ι → Api) (s : State)

/-- A request made in a state. -/
def Request.reply (x : Request ι) : Reply ι :=
  ⟨x, s, ((x.run ways).run.run s).1, ((x.run ways).run.run s).2⟩

/-- Requests made one after the other. -/
def replies (s : State) : List (Request ι) → List (Reply ι)
  | [] => []
  | x :: xs => x.reply ways s :: replies (x.reply ways s).after xs

/-- The state after some requests. -/
def after (xs : List (Request ι)) : State := xs.foldl (fun s x ↦ (x.reply ways s).after) s

theorem after_concat (xs : List (Request ι)) (x : Request ι) :
    after ways s (xs ++ [x]) = (x.reply ways (after ways s xs)).after := List.foldl_append

theorem replies_concat (xs : List (Request ι)) (x : Request ι) :
    replies ways s (xs ++ [x]) = replies ways s xs ++ [x.reply ways (after ways s xs)] := by
  induction xs generalizing s with
  | nil => rfl
  | cons y xs ih =>
    rw [List.cons_append, replies, replies, ih]
    rfl

variable {s}

theorem Request.reply_of_leads {x : Request ι} {P : Except Error Unit → State → Prop}
    (h : Leads (x.run ways) s (fun a t ↦ P (.ok a) t) fun e t ↦ P (.error e) t) :
    P (x.reply ways s).result (x.reply ways s).after := by
  rw [reply]
  rw [Leads] at h
  generalize (x.run ways).run.run s = r at h ⊢
  rcases r with ⟨_ | _, t⟩
  · exact h
  · exact h

theorem Outcome.of_reply (x : Request ι) :
    Outcome s x.turn (x.reply ways s).result (x.reply ways s).after := by
  refine Request.reply_of_leads ways ?_
  cases x with
  | init way flags => exact outcome_init (ways way) flags s
  | cleanup way => exact outcome_cleanup (ways way) s

theorem Outcome.of_mem_replies {xs : List (Request ι)} {p : Reply ι}
    (hp : p ∈ replies ways s xs) : Outcome p.before p.request.turn p.result p.after := by
  induction xs generalizing s with
  | nil => cases hp
  | cons x xs ih =>
    rcases List.mem_cons.1 hp with rfl | hp
    · exact .of_reply ways x
    · exact ih hp

/-! ## Taking turns -/

theorem Outcome.takes {x : Turn} {r : Except Error Unit} {t : State} (h : Outcome s x r t) :
    s.Takes [x] t ∧ s.settled.initialized ≠ x.flag ∧ t.settled.initialized = x.flag ∨
      s.Bides t := by
  cases h with
  | done => exact .inr (.of_records _ _)
  | taken hx ht hf => exact .inl ⟨ht, hx, hf⟩
  | failed hx ht => exact .inr ht

theorem Outcome.of_failed {x : Turn} {r : Except Error Unit} {t : State} (h : Outcome s x r t)
    (hr : r ≠ .ok ()) : t.settled.initialized = s.settled.initialized := by
  cases h with
  | done => exact absurd rfl hr
  | taken => exact absurd rfl hr
  | failed _ ht => rw [ht.settled]

/-- The turns that some requests took, each with the way that it went by. -/
def moves (s : State) (xs : List (Request ι)) : List (ι × Turn) :=
  (replies ways s xs).flatMap fun p ↦ (p.before.turns p.after).map (p.request.way, ·)

/-- What one request adds to the turns. -/
theorem moves_concat (xs : List (Request ι)) (x : Request ι) :
    (moves ways s (xs ++ [x]) = moves ways s xs ++ [(x.way, x.turn)] ∧
      (after ways s xs).Takes [x.turn] (after ways s (xs ++ [x])) ∧
        (after ways s xs).settled.initialized ≠ x.turn.flag ∧
          (after ways s (xs ++ [x])).settled.initialized = x.turn.flag) ∨
    moves ways s (xs ++ [x]) = moves ways s xs ∧
      (after ways s xs).Bides (after ways s (xs ++ [x])) := by
  have hmoves : moves ways s (xs ++ [x]) = moves ways s xs ++
      ((after ways s xs).turns (after ways s (xs ++ [x]))).map (x.way, ·) := by
    rw [moves, replies_concat, List.flatMap_append, after_concat]
    exact congrArg _ (List.append_nil _)
  rw [hmoves, after_concat]
  rcases (Outcome.of_reply ways x).takes with ⟨hx, hne, hflag⟩ | hx
  · rw [hx.turns]
    exact .inl ⟨rfl, hx, hne, hflag⟩
  · rw [hx.turns]
    exact .inr ⟨List.append_nil _, hx⟩

/-- All turns are in the trace, and with the ways forgotten they alternate. -/
theorem alternating_moves (hs : s.settled.initialized = false) (xs : List (Request ι)) :
    s.Takes ((moves ways s xs).map Prod.snd) (after ways s xs) ∧
      Turn.Alternating (after ways s xs).settled.initialized ((moves ways s xs).map Prod.snd) := by
  induction xs using List.reverseRecOn with
  | nil =>
    refine ⟨.of_same rfl, ?_⟩
    change Turn.Alternating s.settled.initialized []
    rw [hs]
    exact .nil
  | append_singleton xs x ih =>
    obtain ⟨ht, halt⟩ := ih
    rcases moves_concat ways xs x with ⟨hm, hx, hne, hflag⟩ | ⟨hm, hx⟩
    · rw [hm, hflag, List.map_append]
      exact ⟨ht.trans hx, halt.concat hne⟩
    · rw [hm, hx.settled]
      exact ⟨List.append_nil ((moves ways s xs).map Prod.snd) ▸ ht.trans hx.toTakes, halt⟩

/-- A request whose work is done succeeds, and there is nothing but records to show for it. -/
theorem Outcome.of_done {x : Turn} {r : Except Error Unit} {t : State} (h : Outcome s x r t)
    (hx : s.settled.initialized = x.flag) :
    r = .ok () ∧ ∃ records : List LogRecord,
      t = { s with trace := s.trace ++ records.map .log } := by
  cases h with
  | done => exact ⟨rfl, _, rfl⟩
  | taken hne => exact absurd hx hne
  | failed hne => exact absurd hx hne

theorem Outcome.of_not_done {x : Turn} {r : Except Error Unit} {t : State} (h : Outcome s x r t)
    (hx : s.settled.initialized ≠ x.flag) :
    s.turns t = if r = .ok () then [x] else [] := by
  cases h with
  | done _ hd => exact absurd hd hx
  | taken _ ht => rw [ht.turns, if_pos rfl]
  | failed _ ht => rw [ht.turns, if_neg nofun]

/-- The native calls that succeed take turns, whichever ways they go by and whatever fails in
between, and the flag tells which of the two came last. A request that fails leaves the flag alone.
One whose work is done already succeeds without a call, and any other succeeds exactly if it takes
its turn. -/
theorem turns_alternate (hs : s.settled.initialized = false) (xs : List (Request ι)) :
    (∃ ts, s.Takes ts (after ways s xs) ∧
      (∀ n (hn : n < ts.length), ts[n] = if n % 2 = 0 then .init else .cleanup) ∧
      ((after ways s xs).settled.initialized = true ↔ ts.getLast? = some .init)) ∧
    ∀ p ∈ replies ways s xs,
      (p.result ≠ .ok () → p.after.settled.initialized = p.before.settled.initialized) ∧
      (p.before.settled.initialized = p.request.turn.flag →
        p.result = .ok () ∧ ∃ records : List LogRecord,
          p.after = { p.before with trace := p.before.trace ++ records.map .log }) ∧
      (p.before.settled.initialized ≠ p.request.turn.flag →
        p.before.turns p.after = if p.result = .ok () then [p.request.turn] else []) := by
  constructor
  · obtain ⟨ht, halt⟩ := alternating_moves ways hs xs
    exact ⟨_, ht, halt.getElem, halt.getLast?_eq_init_iff.symm⟩
  · intro p hp
    have h := Outcome.of_mem_replies ways hp
    exact ⟨h.of_failed, h.of_done, h.of_not_done⟩

/-- An engine that refuses once, is initialised when it is asked again, and is cleaned up. -/
theorem turns_alternate_refused_once :
    let s := State.start { code := fun e _ ↦ if e.calls = 1 then 27 else 0 } .bare {}
    let t := after (fun _ : Unit ↦ .inProcess) s [.init () 3, .init () 3, .init () 3, .cleanup ()]
    s.settled.initialized = false ∧ s.turns t = [.init, .cleanup] ∧ ∃ ts, s.Takes ts t ∧
      (∀ n (hn : n < ts.length), ts[n] = if n % 2 = 0 then .init else .cleanup) ∧
      (t.settled.initialized = true ↔ ts.getLast? = some .init) :=
  ⟨rfl, by decide, (turns_alternate _ rfl _).1⟩

end

end Global

end NativeTransfer
