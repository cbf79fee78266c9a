import NativeTransfer.Proofs.NativeCall

/-!
# States that mirror each other

A module that exports everything and shares the engine with all other ways is as good as a linked
library. `State.plain` takes one for the other, and leaves out what was logged, since a record may
name the way to the engine. Two states mirror each other if they are the same but for that, and
`Agrees` and `Concurs` say of two programs that they keep such states so and come to the same.

## Why the log is left out

A record may name the way to the engine, and two ways have different names. Nothing that the library
does depends on what was logged before, so the log can be left out of what is compared without any
loss to the rest: results, native calls in their order, wrappers, options, lists and what is settled
for the process are all compared.

`Agrees` is about acts and `Concurs` about attempts, and both are closed under binds. So a program
concurs with itself as soon as its calls do, and the calls are settled once, in `concurs_call`.
-/

namespace NativeTransfer

/-! ## Ways that are as good as each other -/

/-- A module that exports every entry point, of the engine that all ways share. -/
def Library.Module.IsComplete (m : Library.Module) : Prop := m.missing = [] ∧ m.file.banner = none

instance (m : Library.Module) : Decidable m.IsComplete := inferInstanceAs (Decidable (_ ∧ _))

namespace Api

/-- The way to the engine, with a complete module taken for a linked library. -/
def plain : Api → Api
  | .dynamic (.ok m) => if m.IsComplete then .linked else .dynamic (.ok m)
  | api => api

theorem plain_of_isComplete {m : Library.Module} (hm : m.IsComplete) :
    plain (.dynamic (.ok m)) = .linked := if_pos hm

theorem proj_plain {γ : Type} {p : Api → γ}
    (hp : ∀ m : Library.Module, m.IsComplete → p (.dynamic (.ok m)) = p .linked) (api : Api) :
    p api.plain = p api := by
  rw [plain.eq_def]
  split
  · next m =>
    split
    · next hm => exact (hp m hm).symm
    · rfl
  · rfl

theorem absent?_of_missing {m : Library.Module} (hm : m.missing = []) (e : EntryPoint) :
    m.absent? e = none := by
  have h := List.filter_eq_nil_iff.1 hm e (EntryPoint.mem_all e)
  rwa [Bool.not_eq_true, Option.isSome_eq_false_iff, Option.isNone_iff_eq_none] at h

theorem refusal?_of_isComplete {m : Library.Module} (hm : m.IsComplete) {x : Method}
    (hx : x ≠ .impersonate) : refusal? (.dynamic (.ok m)) x = refusal? .linked x := by
  obtain ⟨a, ha⟩ := Library.Module.entry_of_present (absent?_of_missing hm.1 x.entry)
  rw [refusal?, refusal?, if_neg hx, Library.Loaded.entry, ha]

theorem isInProcess_plain (api : Api) : api.plain.isInProcess = api.isInProcess :=
  proj_plain (fun _ _ ↦ rfl) api

theorem banner?_plain (api : Api) : api.plain.banner? = api.banner? := by
  refine proj_plain (p := banner?) ?_ api
  exact fun _ hm ↦ hm.2

theorem route_plain (api : Api) : api.plain.route = api.route := by
  rw [route, route, isInProcess_plain, banner?_plain]

theorem refusal?_plain {x : Method} (hx : x ≠ .impersonate) (api : Api) :
    api.plain.refusal? x = api.refusal? x := by
  refine proj_plain (p := (refusal? · x)) ?_ api
  exact fun _ hm ↦ refusal?_of_isComplete hm hx

end Api

/-! ## Plain states -/

def Wrapper.plain (w : Wrapper) : Wrapper := { w with api := w.api.plain }

def Event.isLog : Event → Bool
  | .log _ => true
  | _ => false

/-- Everything but the ways to the engine and the log. -/
def State.plain (s : State) : State :=
  { s with
    wrappers := s.wrappers.map fun x ↦ (x.1, x.2.plain)
    settled := { s.settled with native := s.settled.native.map Api.plain }
    trace := s.trace.filter (!·.isLog) }

/-- Two states differ in nothing but ways to the engine that are as good as each other, and in what
was logged. -/
def State.Mirrors (s t : State) : Prop := s.plain = t.plain

open State

variable {s t : State}

theorem lookup_map {κ α β : Type} [BEq κ] (f : α → β) (k : κ) (l : List (κ × α)) :
    (l.map fun x ↦ (x.1, f x.2)).lookup k = (l.lookup k).map f := by
  induction l with
  | nil => rfl
  | cons x l ih =>
    rw [List.map_cons, List.lookup_cons, List.lookup_cons, ih]
    split
    · rfl
    · rfl

namespace State

theorem wrapper_plain (s : State) (id : WrapperId) : s.plain.wrapper id = (s.wrapper id).plain := by
  rw [wrapper, wrapper, plain, lookup_map]
  cases s.wrappers.lookup id with
  | none => rfl
  | some w => rfl

theorem isAlive_plain (s : State) : s.plain.isAlive = s.isAlive := by
  funext id
  rw [isAlive, isAlive, plain, lookup_map, Option.isSome_map]

theorem modifyWrapper_plain (s : State) (id : WrapperId) {f : Wrapper → Wrapper}
    (hf : ∀ w, (f w).plain = f w.plain) :
    (s.modifyWrapper id f).plain = s.plain.modifyWrapper id f := by
  have h : (Pairs.adjust id f s.wrappers).map (fun x ↦ (x.1, x.2.plain)) =
      Pairs.adjust id f (s.wrappers.map fun x ↦ (x.1, x.2.plain)) := by
    rw [Pairs.adjust, Pairs.adjust, List.map_map, List.map_map]
    refine List.map_congr_left fun x _ ↦ ?_
    by_cases hx : x.1 = id
    · simp [hx, hf]
    · simp [hx]
  rw [plain, modifyWrapper, h]
  rfl

namespace Mirrors

section

variable (h : s.Mirrors t)

include h

theorem engine : s.engine = t.engine := congrArg (·.engine) h

theorem policy : s.policy = t.policy := congrArg (·.policy) h

theorem host : s.host = t.host := congrArg (·.host) h

theorem registry : s.registry = t.registry := congrArg (·.registry) h

theorem opened : s.opened = t.opened := congrArg (·.opened) h

theorem serials : s.serials = t.serials := congrArg (·.serials) h

theorem config : s.settled.config = t.settled.config := congrArg (·.settled.config) h

theorem bundle : s.settled.bundle = t.settled.bundle := congrArg (·.settled.bundle) h

theorem initialized : s.settled.initialized = t.settled.initialized :=
  congrArg (·.settled.initialized) h

theorem linked : s.settled.linked = t.settled.linked := congrArg (·.settled.linked) h

theorem native : s.settled.native.map Api.plain = t.settled.native.map Api.plain :=
  congrArg (·.settled.native) h

theorem wrapper (id : WrapperId) : (s.wrapper id).plain = (t.wrapper id).plain := by
  rw [← wrapper_plain, ← wrapper_plain, h]

theorem handle (id : WrapperId) : (s.wrapper id).handle = (t.wrapper id).handle :=
  congrArg (·.handle) (h.wrapper id)

theorem slots (id : WrapperId) : (s.wrapper id).slots = (t.wrapper id).slots :=
  congrArg (·.slots) (h.wrapper id)

theorem ledger (id : WrapperId) : (s.wrapper id).ledger = (t.wrapper id).ledger :=
  congrArg (·.ledger) (h.wrapper id)

theorem api (id : WrapperId) : (s.wrapper id).api.plain = (t.wrapper id).api.plain :=
  congrArg (·.api) (h.wrapper id)

theorem isAlive : s.isAlive = t.isAlive :=
  (isAlive_plain s).symm.trans ((congrArg State.isAlive h).trans (isAlive_plain t))

theorem holds : s.holds = t.holds := by
  have hplain (s : State) : s.plain.holds = s.holds := by
    funext a
    rw [State.holds, State.holds, plain, List.any_map]
    rfl
  exact (hplain s).symm.trans ((congrArg State.holds h).trans (hplain t))

theorem served (a : Address) : s.served a = t.served a := by
  rw [State.served, State.served, h.registry, h.isAlive]

theorem withEngine {e e' : Engine} (he : e = e') :
    Mirrors { s with engine := e } { t with engine := e' } := by
  rw [← he]
  exact congrArg (fun s : State ↦ { s with engine := e }) h

theorem wrappers : s.wrappers.map (fun x ↦ (x.1, x.2.plain)) =
    t.wrappers.map fun x ↦ (x.1, x.2.plain) := congrArg (·.wrappers) h

theorem withWrappers {ws ws' : List (WrapperId × Wrapper)}
    (hw : ws.map (fun x ↦ (x.1, x.2.plain)) = ws'.map fun x ↦ (x.1, x.2.plain)) :
    Mirrors { s with wrappers := ws } { t with wrappers := ws' } := by
  rw [Mirrors, plain, plain, hw]
  generalize ws'.map (fun x ↦ (x.1, x.2.plain)) = plainly
  exact congrArg (fun s : State ↦ { s with wrappers := plainly }) h

theorem map {f g : State → State} {k : State → State} (hf : ∀ s, (f s).plain = k s.plain)
    (hg : ∀ s, (g s).plain = k s.plain) : (f s).Mirrors (g t) := by
  rw [Mirrors, hf, hg, h]

theorem modifyWrapper (id : WrapperId) {f : Wrapper → Wrapper}
    (hf : ∀ w, (f w).plain = f w.plain) :
    (s.modifyWrapper id f).Mirrors (t.modifyWrapper id f) :=
  h.map (k := (State.modifyWrapper · id f)) (modifyWrapper_plain · id hf)
    (modifyWrapper_plain · id hf)

theorem events (vs : List Event) :
    Mirrors { s with trace := s.trace ++ vs } { t with trace := t.trace ++ vs } := by
  refine h.map (k := fun s ↦ { s with trace := s.trace ++ vs.filter (!·.isLog) })
    (f := fun s ↦ { s with trace := s.trace ++ vs })
    (g := fun s ↦ { s with trace := s.trace ++ vs }) (fun s ↦ ?_) fun s ↦ ?_
  all_goals
    rw [plain, plain, List.filter_append]

theorem log (r r' : LogRecord) :
    Mirrors { s with trace := s.trace ++ [.log r] } { t with trace := t.trace ++ [.log r'] } := by
  refine h.map (k := fun s ↦ s) (f := fun s ↦ { s with trace := s.trace ++ [.log r] })
    (g := fun s ↦ { s with trace := s.trace ++ [.log r'] }) (fun s ↦ ?_) fun s ↦ ?_
  all_goals
    rw [plain, List.filter_append]
    exact congrArg (fun l ↦ { s.plain with trace := l }) (List.append_nil _)

end

end Mirrors

end State

/-! ## Programs that come to the same -/

/-- Started in states that mirror each other, two acts come to results that go together, and to
states that mirror each other. -/
structure Agrees {α β : Type} (R : α → β → Prop) (x : Act α) (y : Act β) : Prop where
  apply : ∀ s t, Mirrors s t → R (x.run s).1 (y.run t).1 ∧ Mirrors (x.run s).2 (y.run t).2

/-- Results that go together, or the same failure. -/
inductive Likewise {α β : Type} (R : α → β → Prop) : Except Error α → Except Error β → Prop
  | ok {a b} (h : R a b) : Likewise R (.ok a) (.ok b)
  | error (e : Error) : Likewise R (.error e) (.error e)

/-- Started in states that mirror each other, two attempts fail likewise or succeed likewise. -/
def Concurs {α β : Type} (R : α → β → Prop) (x : Attempt α) (y : Attempt β) : Prop :=
  Agrees (Likewise R) x.run y.run

section

variable {α β γ δ : Type} {R : α → β → Prop} {Q : γ → δ → Prop}

theorem likewise_eq {r r' : Except Error α} : Likewise Eq r r' ↔ r = r' := by
  constructor
  · rintro (rfl | _)
    · rfl
    · rfl
  · rintro rfl
    cases r with
    | ok => exact .ok rfl
    | error e => exact .error e

/-! ### Acts -/

theorem agrees_pure {a : α} {b : β} (h : R a b) : Agrees R (pure a) (pure b) :=
  ⟨fun _ _ hst ↦ ⟨h, hst⟩⟩

theorem Agrees.bind {x : Act α} {y : Act β} {f : α → Act γ} {g : β → Act δ} (hx : Agrees R x y)
    (hf : ∀ a b, R a b → Agrees Q (f a) (g b)) : Agrees Q (x >>= f) (y >>= g) := by
  refine ⟨fun s t hst ↦ ?_⟩
  obtain ⟨hr, hst'⟩ := hx.apply s t hst
  exact (hf _ _ hr).apply _ _ hst'

theorem Agrees.andThen {x y : Act α} {f : α → Act γ} {g : α → Act δ} (hx : Agrees Eq x y)
    (hf : ∀ a, Agrees Q (f a) (g a)) : Agrees Q (x >>= f) (y >>= g) :=
  hx.bind fun a b hab ↦ by rw [← hab]; exact hf a

theorem Agrees.discard {x y : Act α} (hx : Agrees Eq x y) : Agrees Eq (discard x) (discard y) :=
  hx.andThen fun _ ↦ agrees_pure rfl

theorem agrees_get {f : State → Act α} {g : State → Act β}
    (h : ∀ s t, Mirrors s t → Agrees R (f s) (g t)) : Agrees R (get >>= f) (get >>= g) :=
  ⟨fun s t hst ↦ (h s t hst).apply s t hst⟩

theorem agrees_modify {f g : State → State} (h : ∀ s t, Mirrors s t → Mirrors (f s) (g t)) :
    Agrees Eq (modify f : Act Unit) (modify g) := ⟨fun s t hst ↦ ⟨rfl, h s t hst⟩⟩

theorem agrees_modifyWrapper (id : WrapperId) {f : Wrapper → Wrapper}
    (hf : ∀ w, (f w).plain = f w.plain) :
    Agrees Eq (modify fun s ↦ s.modifyWrapper id f : Act Unit)
      (modify fun s ↦ s.modifyWrapper id f) :=
  agrees_modify fun _ _ hst ↦ hst.modifyWrapper id hf

theorem agrees_emit (v : Event) : Agrees Eq (emit v) (emit v) :=
  ⟨fun _ _ hst ↦ ⟨rfl, hst.events [v]⟩⟩

theorem agrees_report {level : Level} {message : String} {fields fields' : List (String × Field)} :
    Agrees Eq (report level message fields) (report level message fields') :=
  ⟨fun _ _ hst ↦ ⟨rfl, hst.log _ _⟩⟩

/-! ### Attempts -/

theorem concurs_pure {a : α} {b : β} (h : R a b) : Concurs R (pure a) (pure b) :=
  agrees_pure (.ok h)

theorem concurs_throw (e : Error) : Concurs R (throw e) (throw e) := agrees_pure (.error e)

namespace Concurs

theorem bind {x : Attempt α} {y : Attempt β} {f : α → Attempt γ} {g : β → Attempt δ}
    (hx : Concurs R x y) (hf : ∀ a b, R a b → Concurs Q (f a) (g b)) :
    Concurs Q (x >>= f) (y >>= g) := by
  rw [Concurs, ExceptT.run_bind, ExceptT.run_bind]
  refine Agrees.bind hx fun a b hab ↦ ?_
  cases hab with
  | ok h => exact hf _ _ h
  | error e => exact agrees_pure (.error e)

theorem andThen {x y : Attempt α} {f : α → Attempt γ} {g : α → Attempt δ} (hx : Concurs Eq x y)
    (hf : ∀ a, Concurs Q (f a) (g a)) : Concurs Q (x >>= f) (y >>= g) :=
  hx.bind fun a b hab ↦ by rw [← hab]; exact hf a

theorem map {x y : Attempt α} (hx : Concurs Eq x y) (f : α → β) :
    Concurs Eq (f <$> x) (f <$> y) := by
  rw [← bind_pure_comp, ← bind_pure_comp]
  exact hx.andThen fun _ ↦ concurs_pure rfl

theorem discard {x y : Attempt α} (hx : Concurs Eq x y) : Concurs Eq (discard x) (discard y) :=
  hx.map _

theorem run {x y : Attempt α} (h : Concurs Eq x y) : Agrees Eq x.run y.run :=
  ⟨fun s t hst ↦ (h.apply s t hst).imp_left likewise_eq.1⟩

end Concurs

theorem concurs_lift {x : Act α} {y : Act β} (h : Agrees R x y) :
    Concurs R (liftM x : Attempt α) (liftM y : Attempt β) :=
  Agrees.bind (R := R) h fun _ _ hab ↦ agrees_pure (.ok hab)

theorem concurs_get {f : State → Attempt α} {g : State → Attempt β}
    (h : ∀ s t, Mirrors s t → Concurs R (f s) (g t)) : Concurs R (get >>= f) (get >>= g) :=
  ⟨fun s t hst ↦ (h s t hst).apply s t hst⟩

theorem concurs_set (h : Mirrors s t) : Concurs Eq (set s : Attempt PUnit) (set t) :=
  ⟨fun _ _ _ ↦ ⟨.ok rfl, h⟩⟩

theorem concurs_modify {f g : State → State} (h : ∀ s t, Mirrors s t → Mirrors (f s) (g t)) :
    Concurs Eq (modify f : Attempt Unit) (modify g) := ⟨fun s t hst ↦ ⟨.ok rfl, h s t hst⟩⟩

theorem Concurs.observed {x y : Attempt α} (h : Concurs Eq x y) :
    Concurs Eq (observed x) (observed y) := concurs_lift h.run

theorem Concurs.orUndo {x y : Attempt α} {u v : Act Unit} (h : Concurs Eq x y)
    (hu : Agrees Eq u v) : Concurs Eq (orUndo x u) (orUndo y v) := by
  refine ⟨fun s t hst ↦ ?_⟩
  have hxy := h.apply s t hst
  change Likewise Eq ((NativeTransfer.orUndo x u).run.run s).1 _ ∧
    Mirrors ((NativeTransfer.orUndo x u).run.run s).2 _
  rw [run_orUndo, run_orUndo]
  generalize x.run.run s = r at hxy ⊢
  generalize y.run.run t = r' at hxy ⊢
  obtain ⟨r, s'⟩ := r
  obtain ⟨r', t'⟩ := r'
  obtain ⟨hr, hst'⟩ := hxy
  cases hr with
  | ok hab => exact ⟨.ok hab, hst'⟩
  | error e => exact ⟨.error e, (hu.apply _ _ hst').2⟩

end

/-! ## Native calls -/

/-- By ways that are as good as each other a call comes to the same, but for the one that a linked
library never has. -/
theorem concurs_call {α : Type} {api api' : Api} (ha : api.plain = api'.plain) {m : Method}
    (hm : m ≠ .impersonate) (answer : Policy → Engine → Answered α) :
    Concurs Eq (api.call m answer) (api'.call m answer) := by
  have hproc : api.isInProcess = api'.isInProcess := by
    rw [← api.isInProcess_plain, ha, api'.isInProcess_plain]
  have hrefusal : api.refusal? m = api'.refusal? m := by
    rw [← api.refusal?_plain hm, ha, api'.refusal?_plain hm]
  have hroute : api.route = api'.route := by rw [← api.route_plain, ha, api'.route_plain]
  have hgate : Concurs Eq (api.gate m) (api'.gate m) := by
    refine concurs_get fun s t hst ↦ ?_
    have hcounted := hst.withEngine (congrArg (fun e ↦ { e with calls := e.calls + 1 }) hst.engine)
    refine (concurs_set hcounted).andThen fun _ ↦ ?_
    rw [hrefusal, hproc, hst.policy, hst.engine]
    split
    · exact concurs_throw _
    · split
      · exact (concurs_lift (agrees_emit _)).andThen fun _ ↦ concurs_throw _
      · exact concurs_pure rfl
  refine hgate.andThen fun _ ↦ ⟨fun s t hst ↦ ?_⟩
  have hanswer : answer s.policy s.engine = answer t.policy t.engine := by
    rw [hst.policy, hst.engine]
  have htold := (hst.withEngine (congrArg Answered.engine hanswer)).events
    [.native api.route (answer s.policy s.engine).call]
  change Likewise Eq (.ok (answer s.policy s.engine).result)
      (.ok (answer t.policy t.engine).result) ∧
    Mirrors (Api.answered api.route (answer s.policy s.engine) s)
      (Api.answered api'.route (answer t.policy t.engine) t)
  rw [hanswer] at htold ⊢
  rw [hroute] at htold ⊢
  exact ⟨.ok rfl, htold⟩

end NativeTransfer
