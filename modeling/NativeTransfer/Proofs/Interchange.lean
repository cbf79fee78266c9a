import NativeTransfer.Proofs.Concord
import NativeTransfer.Proofs.Run

/-!
# A loaded module in place of a linked library

Whether the engine is linked in or loaded makes no difference but for the entry points that a module
lacks. Where it lacks none, whole runs come to the same. Where it lacks some, each call that it can
make is the call that a linked library makes, and each one that it cannot make is refused: it is
counted, it fails with the reason that was recorded, and that is all that happens. A module that
could not be loaded refuses every call in this way.

## Methods that were written apart

The ways have their methods each in its own words, and nothing is shared between them. That they
come to the same is therefore proved method by method, in the equations that take each of the three
to one form. `Query` lists the methods by what they give back, and `isCall_run` is where the
equations come in: every query is one call of its method, followed by something that depends on the
answer alone.

## What a missing entry point does

`DoesWithout` goes through everything that uses an entry point. A query fails with the reason, a
code keeps its own name for a text, and where the failure is of no use to the caller it is reported
and what comes next goes on. A module that was never loaded does without all of them.
-/

namespace NativeTransfer

open State

/-! ## Queries -/

/-- A call of the engine that may fail, by what it gives back. -/
inductive Query : Type → Type
  | version : Query String
  | globalInit (flags : Int64) : Query ResultCode
  | globalCleanup : Query Unit
  | init : Query (Option Nat)
  | duphandle (h : Nat) : Query (Option Nat)
  | cleanup (h : Nat) : Query Unit
  | reset (h : Nat) : Query Unit
  | perform (h : Nat) : Query ResultCode
  | pause (h : Nat) (mask : Int32) : Query ResultCode
  | impersonate (h : Nat) (target : String) (defaultHeaders : Bool) : Query ResultCode
  | setLong (h : Nat) (o : OptionCode) (n : Int64) : Query ResultCode
  | setOffset (h : Nat) (o : OptionCode) (n : Int64) : Query ResultCode
  | setPointer (h : Nat) (o : OptionCode) (a : Address) : Query ResultCode
  | setFunction (h : Nat) (o : OptionCode) (a : Address) : Query ResultCode
  /-- An info by the method for its type. -/
  | getinfo (out : Readout) (h : Nat) (i : InfoCode) : Query (ResultCode × Option InfoReply)
  | getList (h : Nat) (i : InfoCode) : Query (ResultCode × Option Nat)
  | send (h : Nat) (b : Bytes) : Query (ResultCode × UInt64)
  | recv (h : Nat) (capacity : Nat) : Query (ResultCode × Bytes × UInt64)
  | escape (h : Nat) (input : Bytes) : Query (Option (Address × Bytes))
  | unescape (h : Nat) (input : Bytes) : Query (Option (Address × Bytes × Int32))
  | free (a : Address) : Query Unit
  | append (list : Option Nat) (item : String) : Query (Option Nat)
  | freeList (n : Nat) : Query Unit

namespace Query

variable {α : Type}

def method : Query α → Method
  | version => .version
  | globalInit _ => .globalInit
  | globalCleanup => .globalCleanup
  | init => .init
  | duphandle _ => .duphandle
  | cleanup _ => .cleanup
  | reset _ => .reset
  | perform _ => .perform
  | pause _ _ => .pause
  | impersonate _ _ _ => .impersonate
  | setLong _ _ _ => .setLong
  | setOffset _ _ _ => .setOffset
  | setPointer _ _ _ => .setPointer
  | setFunction _ _ _ => .setFunction
  | getinfo out _ _ => out.method
  | getList _ _ => .getList
  | send _ _ => .send
  | recv _ _ => .recv
  | escape _ _ => .escape
  | unescape _ _ => .unescape
  | free _ => .free
  | append _ _ => .listAppend
  | freeList _ => .listFree

/-- Makes the call. -/
def run (api : Api) : Query α → Attempt α
  | version => api.version
  | globalInit flags => api.globalInit flags
  | globalCleanup => api.globalCleanup
  | init => api.init
  | duphandle h => api.duphandle h
  | cleanup h => api.cleanup h
  | reset h => api.reset h
  | perform h => api.perform h
  | pause h mask => api.pause h mask
  | impersonate h target defaultHeaders => api.impersonate h target defaultHeaders
  | setLong h o n => api.setLong h o n
  | setOffset h o n => api.setOffset h o n
  | setPointer h o a => api.setPointer h o a
  | setFunction h o a => api.setFunction h o a
  | getinfo out h i => api.getinfo out h i
  | getList h i => api.getList h i
  | send h b => api.send h b
  | recv h capacity => api.recv h capacity
  | escape h input => api.escape h input
  | unescape h input => api.unescape h input
  | free a => api.free a
  | append list item => api.append list item
  | freeList n => api.freeList n

/-- What is one call of a method, by whatever way, and then something made of the answer. -/
def IsCall (x : Method) (f : Api → Attempt α) : Prop :=
  ∃ (β : Type) (answer : Policy → Engine → Answered β) (next : Option String → β → Attempt α),
    ∀ api, f api = api.call x answer >>= next api.banner?

theorem IsCall.of_eq {x : Method} {answer : Policy → Engine → Answered α} {f : Api → Attempt α}
    (h : ∀ api, f api = api.call x answer) : IsCall x f :=
  ⟨α, answer, fun _ ↦ pure, fun api ↦ (h api).trans (bind_pure _).symm⟩

theorem IsCall.of_eq_map {β : Type} {x : Method} {answer : Policy → Engine → Answered β} {g : β → α}
    {f : Api → Attempt α} (h : ∀ api, f api = g <$> api.call x answer) : IsCall x f :=
  ⟨β, answer, fun _ b ↦ pure (g b), fun api ↦ (h api).trans (bind_pure_comp _ _).symm⟩

/-- Every query is one call of its method. This is where the three sets of methods come in, each
with what it says by itself: the equations are those of the methods. -/
theorem isCall_run (q : Query α) : IsCall q.method fun api ↦ q.run api := by
  cases q with
  -- The one answer that depends on the way: a module may have a banner of its own.
  | version =>
    exact ⟨_, _, fun b shared ↦ pure (textOrEmpty ((b.map Text.utf8).or shared)), Api.version_eq⟩
  | perform h => exact ⟨_, _, fun _ _ ↦ _, (Api.perform_eq · h)⟩
  | globalInit flags => exact .of_eq_map (Api.globalInit_eq · flags)
  | pause h mask => exact .of_eq_map (Api.pause_eq · h mask)
  | impersonate h target headers => exact .of_eq_map (Api.impersonate_eq · h target headers)
  | setLong h o n => exact .of_eq_map (Api.setLong_eq · h o n)
  | setOffset h o n => exact .of_eq_map (Api.setOffset_eq · h o n)
  | setPointer h o a => exact .of_eq_map (Api.setPointer_eq · h o a)
  | setFunction h o a => exact .of_eq_map (Api.setFunction_eq · h o a)
  | getinfo out h i => exact .of_eq_map (Api.getinfo_eq · out h i)
  | getList h i => exact .of_eq_map (Api.getList_eq · h i)
  | send h b => exact .of_eq_map (Api.send_eq · h b)
  | recv h capacity => exact .of_eq_map (Api.recv_eq · h capacity)
  | globalCleanup => exact .of_eq Api.globalCleanup_eq
  | init => exact .of_eq Api.init_eq
  | duphandle h => exact .of_eq (Api.duphandle_eq · h)
  | cleanup h => exact .of_eq (Api.cleanup_eq · h)
  | reset h => exact .of_eq (Api.reset_eq · h)
  | escape h input => exact .of_eq (Api.escape_eq · h input)
  | unescape h input => exact .of_eq (Api.unescape_eq · h input)
  | free a => exact .of_eq (Api.free_eq · a)
  | append list item => exact .of_eq (Api.append_eq · list item)
  | freeList n => exact .of_eq (Api.freeList_eq · n)

end Query

/-! ## Refusals -/

namespace Api

variable {α β : Type} {api : Api} {x : Method} {e : Error}

/-- What becomes of a call that the library refuses. -/
def refused (e : Error) : Attempt α := do
  modify counted
  throw e

theorem call_of_refusal (h : api.refusal? x = some e) (answer : Policy → Engine → Answered α) :
    api.call x answer = refused e := by
  rw [call, gate, h]
  rfl

theorem run_of_refusal {q : Query α} (h : api.refusal? q.method = some e) :
    q.run api = refused e := by
  obtain ⟨β, answer, next, hq⟩ := q.isCall_run
  exact (hq api).trans (by rw [call_of_refusal h]; rfl)

section

variable {api api' : Api} (hp : api.isInProcess = api'.isInProcess)
  (hb : api.banner? = api'.banner?)

include hp hb

theorem call_congr (hr : api.refusal? x = api'.refusal? x)
    (answer : Policy → Engine → Answered α) : api.call x answer = api'.call x answer := by
  rw [call, call, gate, gate, hp, hr, route, route, hp, hb]

theorem run_congr {q : Query α} (hr : api.refusal? q.method = api'.refusal? q.method) :
    q.run api = q.run api' := by
  obtain ⟨β, answer, next, hq⟩ := q.isCall_run
  exact (hq api).trans (by rw [call_congr hp hb hr, hb]; exact (hq api').symm)

theorem strerror_congr (hr : api.refusal? .strerror = api'.refusal? .strerror) (c : ResultCode) :
    api.strerror c = api'.strerror c := by
  rw [strerror_eq, strerror_eq, hp, call_congr hp hb hr]

end

/-! ## Entry points -/

/-- Whatever goes through an entry point comes to the same by two ways. -/
structure ActsAs (api api' : Api) (e : EntryPoint) : Prop where
  query : ∀ {α : Type} (q : Query α), q.method.entry = e → q.run api = q.run api'
  strerror : e = .strerror → ∀ c, api.strerror c = api'.strerror c

/-- What is left of a call whose failure nobody is told of. -/
def forgone (message : String) (fields : List (String × Field)) (e : Error) : Act Unit := do
  modify counted
  report .warn message (fields ++ [("error", .text e.message)])

/-- Whatever needs an entry point does without it. Queries fail, a code keeps its own name for a
text, and where a failure is of no use to the caller it is reported and the rest goes on. -/
structure DoesWithout (api : Api) (e : EntryPoint) (why : Error) : Prop where
  query : ∀ {α : Type} (q : Query α), q.method.entry = e → q.run api = refused why
  strerror : e = .strerror → ∀ c : ResultCode, api.strerror c = do
    modify counted
    return c.text
  freeNativeList : e = .listFree → ∀ n : Nat,
    Wrapper.freeNativeList api (some n) = forgone "failed to free native list" [] why
  getList : e = .listFree → ∀ id h i s, (s.wrapper id).api = api →
    (Wrapper.getList id h i).run.run s = (do
      let (code, list) ← api.getList h i
      api.check code
      match list with
      | none => return .list []
      | some n =>
        let items := Wrapper.texts ((← get).engine.items n)
        forgone "failed to free info list" [("info", .text i.text)] why
        return .list items : Attempt InfoValue).run.run s
  cleanup : e = .cleanup → ∀ id h s, (s.wrapper id).api = api → (s.wrapper id).handle = some h →
    (Wrapper.cleanup id).run s = (do
      forgone "easy cleanup failed" [("handle", .text (Address.handle h).text)] why
      report .debug "easy handle released" [("handle", .text (Address.handle h).text)]
      discard (Wrapper.releaseAll id)
      Wrapper.modifySlots id fun _ ↦ {}).run (s.unlink id h false)

theorem doesWithout {point : EntryPoint} (hp : api.isInProcess = false)
    (hr : ∀ x : Method, x.entry = point → api.refusal? x = some e) : api.DoesWithout point e where
  query q hq := run_of_refusal (hr q.method hq)
  strerror := by
    rintro rfl c
    rw [Api.strerror_eq, hp, call_of_refusal (hr .strerror rfl)]
    rfl
  freeNativeList := by
    rintro rfl n
    have hfree : api.freeList n = refused e :=
      run_of_refusal (q := .freeList n) (hr .listFree rfl)
    rw [Wrapper.freeNativeList, hfree]
    rfl
  getList := by
    rintro rfl id h i s hs
    have hfree (n : Nat) : api.freeList n = refused e :=
      run_of_refusal (q := .freeList n) (hr .listFree rfl)
    have hgot (f : Api → Attempt InfoValue) :
        (liftM (Wrapper.getApi id) >>= f).run.run s = (f api).run.run s := by rw [← hs]; rfl
    rw [Wrapper.getList, hgot]
    simp only [hfree]
    rfl
  cleanup := by
    rintro rfl id h s hs hh
    have hclose : api.cleanup h = refused e := run_of_refusal (q := .cleanup h) (hr .cleanup rfl)
    have hgot (f : State → Act Unit) : (get >>= f).run s = (f s).run s := rfl
    rw [Wrapper.cleanup, hgot]
    dsimp only
    rw [hh, hs]
    dsimp only
    rw [hclose]
    rfl

end Api

/-! ## What a module exports -/

namespace Library.Module

variable {m : Library.Module} {point : EntryPoint} {x : Method}

theorem absent?_eq_none_iff : m.absent? point = none ↔ point.symbol ∈ m.file.symbols := by
  have hnul : point.symbol.toList.contains '\x00' = false := by cases point <;> rfl
  rw [absent?_eq, lacks?, address, hnul, if_neg Bool.false_ne_true]
  cases hidx : m.file.symbols.idxOf? point.symbol with
  | none =>
    rw [List.idxOf?_eq_none_iff] at hidx
    exact iff_of_false (Option.some_ne_none _) hidx
  | some a =>
    refine iff_of_true rfl ?_
    by_contra hmem
    rw [List.idxOf?_eq_none_iff.2 hmem] at hidx
    cases hidx

theorem refusal?_of_absent {why : String} (h : m.absent? x.entry = some why) :
    (Api.dynamic (.ok m)).refusal? x = some (.entryPointMissing x.entry why) := by
  rw [Api.refusal?, Loaded.entry, entry_of_absent? h]

theorem refusal?_of_mem (hx : x ≠ .impersonate) (h : x.entry.symbol ∈ m.file.symbols) :
    (Api.dynamic (.ok m)).refusal? x = Api.linked.refusal? x := by
  obtain ⟨a, ha⟩ := entry_of_present (absent?_eq_none_iff.2 h)
  rw [Api.refusal?, Api.refusal?, if_neg hx, Loaded.entry, ha]

/-- What a module exports of the engine that all share is what a linked library has of it. -/
theorem actsAs_linked (hm : m.file.banner = none) (hpoint : point ≠ .impersonate)
    (h : point.symbol ∈ m.file.symbols) : (Api.dynamic (.ok m)).ActsAs .linked point := by
  have hne {x : Method} (hx : x.entry = point) : x ≠ .impersonate := by
    rintro rfl
    exact hpoint hx.symm
  have hrefusal {x : Method} (hx : x.entry = point) := refusal?_of_mem (hne hx) (hx ▸ h)
  have hproc : (Api.dynamic (.ok m)).isInProcess = Api.linked.isInProcess := rfl
  exact ⟨fun q hq ↦ Api.run_congr hproc hm (hrefusal hq),
    fun he ↦ Api.strerror_congr hproc hm (hrefusal he.symm)⟩

end Library.Module

/-! ## Runs -/

/-- What a caller does, for the way to the engine that it has. -/
inductive Operation
  | create
  | createDefault
  | duplicate (id : WrapperId)
  | setopt (id : WrapperId) (o : OptionCode) (v : Value)
  | getinfo (id : WrapperId) (i : InfoCode)
  | perform (id : WrapperId)
  | pause (id : WrapperId) (mask : Int32)
  | send (id : WrapperId) (b : Bytes)
  | recv (id : WrapperId) (buffer : Bytes)
  | escape (id : WrapperId) (input : String)
  | unescape (id : WrapperId) (input : String)
  | reset (id : WrapperId)
  | releaseSince (id : WrapperId) (mark : Nat)
  | cleanup (id : WrapperId)
  | drop (id : WrapperId)
  | globalInit (flags : Int64)
  | globalInitDefault (flags : Int64)
  | globalInitConfigured
  | globalCleanup
  | globalCleanupDefault
  | version
  | installConfig (c : Config)
  | config
  | bundle

/-- What a caller is given back. -/
inductive Operation.Result
  | done
  | wrapper (id : WrapperId)
  | info (v : InfoValue)
  | sent (n : UInt64)
  | received (x : Wrapper.Received)
  | text (x : String)
  | octets (b : Bytes)
  | released (n : Nat)
  | installed (r : Except Config Unit)
  | config (c : Config)
  | bundle (p : Option Path)

namespace Operation

/-- Does it, by the given way where it needs one, and by the default way where that is asked for. -/
def run (api : Api) : Operation → Attempt Result
  | create => return .wrapper (← Wrapper.create api)
  | createDefault => return .wrapper (← Wrapper.createDefault)
  | duplicate id => return .wrapper (← Wrapper.duplicate id)
  | setopt id o v => do Wrapper.setopt id o v; return .done
  | getinfo id i => return .info (← Wrapper.getinfo id i)
  | perform id => do Wrapper.perform id; return .done
  | pause id mask => do Wrapper.pause id mask; return .done
  | send id b => return .sent (← Wrapper.send id b)
  | recv id buffer => return .received (← Wrapper.recv id buffer)
  | escape id input => return .text (← Wrapper.escape id input)
  | unescape id input => return .octets (← Wrapper.unescape id input)
  | reset id => do Wrapper.reset id; return .done
  | releaseSince id mark => return .released (← Wrapper.releaseSince id mark)
  | cleanup id => do Wrapper.cleanup id; return .done
  | drop id => do Wrapper.drop id; return .done
  | globalInit flags => do Global.init api flags; return .done
  | globalInitDefault flags => do Global.init (← Global.defaultApi) flags; return .done
  | globalInitConfigured => do Global.initDefault; return .done
  | globalCleanup => do Global.cleanup api; return .done
  | globalCleanupDefault => do Global.cleanup (← Global.defaultApi); return .done
  | version => return .text (← Global.version)
  | installConfig c => return .installed (← Global.installConfig c)
  | config => return .config (← Global.activeConfig)
  | bundle => return .bundle (← Global.activeBundle)

/-- Does one after the other, whatever becomes of each. -/
def runAll (api : Api) : List Operation → Act (List (Except Error Result))
  | [] => return []
  | x :: xs => do
    let r ← (x.run api).run
    return r :: (← runAll api xs)

section

variable {api api' : Api} (ha : api.plain = api'.plain)

include ha

theorem concurs_run (x : Operation) : Concurs Eq (x.run api) (x.run api') := by
  have hdefault {x : Api → Attempt Unit}
      (hx : ∀ {api api' : Api}, api.plain = api'.plain → Concurs Eq (x api) (x api')) :
      Concurs Eq (liftM Global.defaultApi >>= x) (liftM Global.defaultApi >>= x) :=
    (concurs_lift Global.agrees_defaultApi).bind fun _ _ ha ↦ hx ha
  cases x with
  | create => exact (Wrapper.concurs_create ha).andThen fun _ ↦ concurs_pure rfl
  | createDefault => exact Wrapper.concurs_createDefault.andThen fun _ ↦ concurs_pure rfl
  | duplicate id => exact (Wrapper.concurs_duplicate id).andThen fun _ ↦ concurs_pure rfl
  | setopt id o v => exact (Wrapper.concurs_setopt id o v).andThen fun _ ↦ concurs_pure rfl
  | getinfo id i => exact (Wrapper.concurs_getinfo id i).andThen fun _ ↦ concurs_pure rfl
  | perform id => exact (Wrapper.concurs_perform id).andThen fun _ ↦ concurs_pure rfl
  | pause id mask => exact (Wrapper.concurs_pause id mask).andThen fun _ ↦ concurs_pure rfl
  | send id b => exact (Wrapper.concurs_send id b).andThen fun _ ↦ concurs_pure rfl
  | recv id buffer =>
    exact (concurs_lift (Wrapper.agrees_recv id buffer)).andThen fun _ ↦ concurs_pure rfl
  | escape id input => exact (Wrapper.concurs_escape id input).andThen fun _ ↦ concurs_pure rfl
  | unescape id input =>
    exact (Wrapper.concurs_unescape id input).andThen fun _ ↦ concurs_pure rfl
  | reset id => exact (Wrapper.concurs_reset id).andThen fun _ ↦ concurs_pure rfl
  | releaseSince id mark =>
    exact (concurs_lift (Wrapper.agrees_releaseSince id mark)).andThen fun _ ↦ concurs_pure rfl
  | cleanup id => exact (concurs_lift (Wrapper.agrees_cleanup id)).andThen fun _ ↦ concurs_pure rfl
  | drop id => exact (concurs_lift (Wrapper.agrees_drop id)).andThen fun _ ↦ concurs_pure rfl
  | globalInit flags => exact (Global.concurs_init ha flags).andThen fun _ ↦ concurs_pure rfl
  | globalInitDefault flags =>
    exact (hdefault (Global.concurs_init · flags)).andThen fun _ ↦ concurs_pure rfl
  | globalInitConfigured => exact Global.concurs_initDefault.andThen fun _ ↦ concurs_pure rfl
  | globalCleanup => exact (Global.concurs_cleanup ha).andThen fun _ ↦ concurs_pure rfl
  | globalCleanupDefault =>
    exact (hdefault Global.concurs_cleanup).andThen fun _ ↦ concurs_pure rfl
  | version =>
    refine Concurs.andThen ?_ fun _ ↦ concurs_pure rfl
    exact (concurs_lift Global.agrees_defaultApi).bind fun _ _ ha ↦ concurs_version ha
  | installConfig c =>
    exact (concurs_lift (Global.agrees_installConfig c)).andThen fun _ ↦ concurs_pure rfl
  | config => exact (concurs_lift Global.agrees_activeConfig).andThen fun _ ↦ concurs_pure rfl
  | bundle => exact (concurs_lift Global.agrees_activeBundle).andThen fun _ ↦ concurs_pure rfl

theorem agrees_runAll (xs : List Operation) : Agrees Eq (runAll api xs) (runAll api' xs) := by
  induction xs with
  | nil => exact agrees_pure rfl
  | cons x xs ih =>
    exact (concurs_run ha x).run.andThen fun _ ↦ ih.andThen fun _ ↦ agrees_pure rfl

end

end Operation

/-! ## One way for another -/

namespace State

/-- A state in which everything goes by one way. -/
def through (s : State) (api : Api) : State :=
  { s with
    wrappers := s.wrappers.map fun x ↦ (x.1, { x.2 with api })
    settled.native := some api }

theorem mirrors_through (s : State) {api api' : Api} (ha : api.plain = api'.plain) :
    (s.through api).Mirrors (s.through api') := by
  have hplain (api : Api) : (s.through api).plain =
      { s with
        wrappers := s.wrappers.map fun x ↦ (x.1, { x.2 with api := api.plain })
        settled.native := some api.plain
        trace := s.trace.filter (!·.isLog) } := by
    rw [plain, through, List.map_map]
    rfl
  rw [Mirrors, hplain, hplain, ha]

/-- The calls that reached the engine, each with its answer. -/
def calls (s : State) : List (Route × NativeCall) :=
  s.trace.filterMap fun
    | .native r c => some (r, c)
    | _ => none

theorem Mirrors.calls {s t : State} (h : s.Mirrors t) : s.calls = t.calls := by
  have hplain (s : State) : s.plain.calls = s.calls := by
    rw [State.calls, State.calls, plain, List.filterMap_filter]
    refine List.filterMap_congr fun v _ ↦ ?_
    cases v <;> rfl
  exact (hplain s).symm.trans ((congrArg State.calls h).trans (hplain t))

end State

/-- A module of the shared engine does as a linked library does. If it lacks nothing, every run
comes to the same results by the same calls and leaves the same behind. Whatever it lacks or has,
what goes through an entry point that it has comes to the same, and what needs one that it lacks
does without. A module that was not loaded does without every entry point. -/
theorem module_in_place_of_linked (m : Library.Module) (hm : m.file.banner = none) :
    (m.missing = [] → ∀ (s : State) (xs : List Operation),
      let loaded := (Operation.runAll (.dynamic (.ok m)) xs).run (s.through (.dynamic (.ok m)))
      let linked := (Operation.runAll .linked xs).run (s.through .linked)
      loaded.1 = linked.1 ∧ loaded.2.calls = linked.2.calls ∧ loaded.2.Mirrors linked.2) ∧
    (∀ e : EntryPoint, e ≠ .impersonate → e.symbol ∈ m.file.symbols →
      (Api.dynamic (.ok m)).ActsAs .linked e) ∧
    (∀ e : EntryPoint, e.symbol ∉ m.file.symbols → ∃ why : String,
      m.absent? e = some why ∧ (Api.dynamic (.ok m)).DoesWithout e (.entryPointMissing e why)) ∧
    ∀ (why : String) (e : EntryPoint),
      (Api.dynamic (.error why)).DoesWithout e (.moduleNotLoaded why) := by
  refine ⟨fun hmissing s xs ↦ ?_, fun e he hmem ↦ m.actsAs_linked hm he hmem, fun e hmem ↦ ?_,
    fun why e ↦ Api.doesWithout rfl fun _ _ ↦ rfl⟩
  · have ha : (Api.dynamic (.ok m)).plain = Api.linked.plain :=
      Api.plain_of_isComplete ⟨hmissing, hm⟩
    obtain ⟨hr, hst⟩ := (Operation.agrees_runAll ha xs).apply _ _ (s.mirrors_through ha)
    exact ⟨hr, hst.calls, hst⟩
  · obtain ⟨why, hwhy⟩ :=
      Option.ne_none_iff_exists'.1 (mt Library.Module.absent?_eq_none_iff.1 hmem)
    refine ⟨why, hwhy, Api.doesWithout rfl fun x hx ↦ ?_⟩
    subst hx
    exact Library.Module.refusal?_of_absent hwhy

/-- A module that exports every entry point of the engine that all share. -/
def Library.Module.full : Library.Module :=
  { path := "libcurl.so", file := { symbols := EntryPoint.all.map (·.symbol) }, refusal := "" }

/-- Making a wrapper, pausing and ending it takes three calls, loaded or linked. -/
theorem full_module_in_place_of_linked :
    Library.Module.full.file.banner = none ∧ Library.Module.full.missing = [] ∧
      let s : State := { host := .bare, settled := .bare }
      let xs : List Operation := [.create, .pause 0 1, .drop 0]
      let api : Api := .dynamic (.ok Library.Module.full)
      ((Operation.runAll api xs).run (s.through api)).2.calls =
          ((Operation.runAll .linked xs).run (s.through .linked)).2.calls ∧
        ((Operation.runAll .linked xs).run (s.through .linked)).2.calls =
          [(.exported, .init (some 0)), (.exported, .pause 0 1 0), (.exported, .cleanup 0)] := by
  have hmissing : Library.Module.full.missing = [] := by decide
  have h := (module_in_place_of_linked Library.Module.full rfl).1 hmissing
  exact ⟨rfl, hmissing, (h _ _).2.1, by decide +kernel⟩

end NativeTransfer
