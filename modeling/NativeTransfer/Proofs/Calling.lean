import NativeTransfer.State.Native

/-!
# One call by any way

The methods of the three ways to the engine are written apart, each with the function that it means.
They have one form in common: an attempt is counted, it is refused for a reason that depends on the
way and the method alone, or else it gets the engine's answer (`Api.call`).

That a method has this form is a lemma for each of them, and one about all ways at once. For a
linked library it says that the function called by name gives the answer of the method. For a module
it says that the slot is that of the method's entry point, that the function at the address in the
slot takes the call, and that its answer is the same. A method that named the function of another,
or a table out of step with the list of entry points, would make one of these equations false.

## What would go wrong

A slot of the table is found by the position of its entry point in the list of all of them, and the
table is filled from the symbols of the same list. So what stands at the address in a slot is found
by two searches, one when the table is filled and one when it is called. That they end at the same
entry point needs that no two entry points have one symbol, and is `exported?_of_entry`.

A function takes a call only if what is passed has its form (`Passed`). A method that went by a
wrong slot would meet a function that does not take the call, or else one of the same form that
gives another answer, and either way its equation would be false.
-/

namespace NativeTransfer

/-- The exported function behind a method. -/
def Method.entry : Method → EntryPoint
  | .version => .version
  | .globalInit => .globalInit
  | .globalCleanup => .globalCleanup
  | .strerror => .strerror
  | .init => .init
  | .duphandle => .duphandle
  | .cleanup => .cleanup
  | .reset => .reset
  | .perform => .perform
  | .pause => .pause
  | .setLong => .setopt
  | .setOffset => .setopt
  | .setPointer => .setopt
  | .setFunction => .setopt
  | .getLong => .getinfo
  | .getDouble => .getinfo
  | .getOffset => .getinfo
  | .getString => .getinfo
  | .getList => .getinfo
  | .send => .send
  | .recv => .recv
  | .escape => .escape
  | .unescape => .unescape
  | .impersonate => .impersonate
  | .listAppend => .listAppend
  | .listFree => .listFree
  | .free => .free

namespace Api

/-! ## What a way amounts to -/

def isInProcess : Api → Bool
  | .inProcess => true
  | _ => false

/-- The version text of an engine that is not the one that all ways share. -/
def banner? : Api → Option String
  | .dynamic module => module.banner?
  | _ => none

def route (api : Api) : Route :=
  if api.isInProcess then .direct else if api.banner?.isSome then .apart else .exported

/-- Why a library refuses a method by itself. A linked library is checked when it is linked, and
lacks just the one function that not every build of it has. -/
def refusal? (api : Api) (m : Method) : Option Error :=
  match api with
  | .inProcess => none
  | .linked =>
    if m = .impersonate then
      some (.entryPointMissing .impersonate "not available in a linked stock libcurl")
    else none
  | .dynamic module =>
    match module.entry m.entry with
    | .ok _ => none
    | .error e => some e

section

variable (api : Api)

/-- Whether a method is on offer. Every attempt is counted, whatever becomes of it. -/
def gate (m : Method) : Attempt Unit := do
  let w ← get
  set { w with engine.calls := w.engine.calls + 1 }
  match api.refusal? m with
  | some e => throw e
  | none =>
    if api.isInProcess && w.policy.unreachable w.engine m then
      emit (.unreached m)
      throw (.moduleNotLoaded ("injected " ++ m.name))

/-- One call. -/
def call {α : Type} (m : Method) (answer : Policy → Engine → Answered α) : Attempt α := do
  gate api m
  modifyGet fun w ↦
    let a := answer w.policy w.engine
    (a.result, { w with engine := a.engine, trace := w.trace ++ [.native api.route a.call] })

end

/-! ## One call by each way -/

variable {α β : Type} {m : Method} {f : EntryPoint} {x : Passed α}
  {answer : Policy → Engine → Answered α}

/-- The function of an entry point takes a call, and answers it as the engine does. -/
def Answers (f : EntryPoint) (x : Passed α) (answer : Policy → Engine → Answered α) : Prop :=
  ∀ banner, f.function? banner x = some (answering (exportedBy banner) answer)

/-- To pass a call to the function of an entry point is what a method means, by a linked library
too. -/
structure Means (m : Method) (f : EntryPoint) (x : Passed α)
    (answer : Policy → Engine → Answered α) : Prop where
  entry : m.entry = f
  always : m ≠ .impersonate
  answers : Answers f x answer

theorem inProcess_call (m : Method) (answer : Policy → Engine → Answered α) :
    InProcess.call m answer = call .inProcess m answer := rfl

theorem callThere_of_answers (h : Answers f x answer) (banner : Option String) :
    callThere banner (some f) x = answering (exportedBy banner) answer := by
  rw [callThere, Option.bind_some, h banner]

theorem linked_call (h : Means m f x answer) : Linked.call f x = call .linked m answer := by
  rw [Linked.call, callThere_of_answers h.answers, call, gate, refusal?, if_neg h.always]
  rfl

/-- What stands at the address of an entry point is that entry point. -/
theorem exported?_of_entry {module : Library.Loaded} {a : Library.Offset}
    (h : module.entry f = .ok a) : module.exported? a = some f := by
  cases module with
  | error reason => cases h
  | ok m =>
    rw [Library.Loaded.entry, Library.Module.entry] at h
    cases hslot : m.slot f with
    | error reason =>
      rw [hslot] at h
      cases h
    | ok there =>
      rw [hslot] at h
      obtain rfl := Except.ok.inj h
      exact Library.Module.exported?_of_slot hslot

/-- Through the slot of an entry point its function is called, unless the slot is empty. -/
theorem procedure_bind (module : Library.Loaded) (f : EntryPoint) (x : Passed α)
    (g : α → Attempt β) :
    (Dynamic.procedure module f >>= fun a ↦ Dynamic.callAt module a x >>= g) = (do
      countAttempt
      match module.entry f with
      | .ok _ => g (← ExceptT.lift (callThere module.banner? (some f) x))
      | .error reason => throw reason) := by
  rw [Dynamic.procedure, bind_assoc]
  cases hentry : module.entry f with
  | error e => rfl
  | ok a =>
    simp only [pure_bind]
    rw [Dynamic.callAt, exported?_of_entry hentry]

theorem dynamic_call (module : Library.Loaded) (hf : m.entry = f) (h : Answers f x answer) :
    (do
      let a ← Dynamic.procedure module f
      Dynamic.callAt module a x) = call (.dynamic module) m answer := by
  subst hf
  have hcall := procedure_bind module m.entry x pure
  simp only [bind_pure] at hcall
  rw [hcall, callThere_of_answers h, call, gate, refusal?]
  cases module.entry m.entry with
  | error e => rfl
  | ok a => rfl

/-! ## The methods -/

/-- A method that by each way, in its own words, gives back the answer to one call. -/
theorem eq_call (m : Method) (method : Methods → Attempt α) (f : EntryPoint) (x : Passed α)
    (h : Means m f x answer) (hin : method InProcess.methods = InProcess.call m answer)
    (hlinked : method Linked.methods = Linked.call f x)
    (hdynamic : ∀ module, method (Dynamic.methods module) = do
      let a ← Dynamic.procedure module f
      Dynamic.callAt module a x) (api : Api) : method api.methods = api.call m answer := by
  cases api with
  | inProcess =>
    rw [← inProcess_call]
    exact hin
  | linked =>
    rw [← linked_call h]
    exact hlinked
  | dynamic module =>
    rw [← dynamic_call module h.entry h.answers]
    exact hdynamic module

/-- A method that by each way, in its own words, makes the same of the answer to one call. -/
theorem eq_map_call {g : α → β} (m : Method) (method : Methods → Attempt β) (f : EntryPoint)
    (x : Passed α) (h : Means m f x answer)
    (hin : method InProcess.methods = g <$> InProcess.call m answer)
    (hlinked : method Linked.methods = g <$> Linked.call f x)
    (hdynamic : ∀ module, method (Dynamic.methods module) = do
      let a ← Dynamic.procedure module f
      return g (← Dynamic.callAt module a x)) (api : Api) :
    method api.methods = g <$> api.call m answer := by
  cases api with
  | inProcess =>
    rw [← inProcess_call]
    exact hin
  | linked =>
    rw [← linked_call h]
    exact hlinked
  | dynamic module =>
    have heq := hdynamic module
    simp only [bind_pure_comp] at heq
    rw [← dynamic_call module h.entry h.answers, map_bind]
    exact heq

section

variable (api : Api)

/-! ### The engine as a whole -/

theorem globalInit_eq (flags : Int64) : api.globalInit flags =
    .ofSigned <$> api.call .globalInit fun p e ↦ e.answerGlobalInit p flags :=
  eq_map_call .globalInit (·.globalInit flags) .globalInit (.globalInit flags)
    ⟨rfl, nofun, fun _ ↦ rfl⟩ rfl rfl (fun _ ↦ rfl) api

theorem globalCleanup_eq : api.globalCleanup =
    api.call .globalCleanup fun _ e ↦ e.answerGlobalCleanup :=
  eq_call .globalCleanup (·.globalCleanup) .globalCleanup .globalCleanup
    ⟨rfl, nofun, fun _ ↦ rfl⟩ rfl rfl (fun _ ↦ rfl) api

/-- A module may have a version text of its own. -/
theorem version_eq : api.version = do
    let shared ← api.call .version Engine.answerVersion
    return textOrEmpty ((api.banner?.map Text.utf8).or shared) := by
  cases api with
  | inProcess =>
    simp only [bind_pure_comp, banner?, Option.map_none, Option.none_or]
    rfl
  | linked => rfl
  | dynamic module =>
    refine (procedure_bind module .version .version (pure <| textOrEmpty ·)).trans ?_
    rw [call, gate, refusal?, Method.entry]
    cases module.entry .version with
    | error e => rfl
    | ok a => rfl

/-- The engine's text for a code. Where it cannot be asked, the code's own name stands in. -/
theorem strerror_eq (code : ResultCode) : api.strerror code =
    if api.isInProcess then
      textOrEmpty <$> answering .direct fun p e ↦ e.answerStrerror p code.toSigned
    else do
      match ← (api.call .strerror fun p e ↦ e.answerStrerror p code.toSigned).run with
      | .ok s => return textOrEmpty s
      | .error _ => return code.text := by
  cases api with
  | inProcess => rfl
  | linked => rfl
  | dynamic module =>
    have hlookup := procedure_bind module .strerror (.strerror code.toSigned)
      (pure <| textOrEmpty ·)
    rw [strerror, methods, Dynamic.methods]
    dsimp only
    rw [hlookup, call, gate, refusal?, Method.entry]
    cases module.entry .strerror with
    | error e => rfl
    | ok a => rfl

/-! ### Handles -/

theorem init_eq : api.init =
    api.call .init Engine.answerInit :=
  eq_call .init (·.init) .init .init
    ⟨rfl, nofun, fun _ ↦ rfl⟩ rfl rfl (fun _ ↦ rfl) api

theorem duphandle_eq (h : Nat) : api.duphandle h =
    api.call .duphandle fun p e ↦ e.answerDuphandle p h :=
  eq_call .duphandle (·.duphandle h) .duphandle (.duphandle h)
    ⟨rfl, nofun, fun _ ↦ rfl⟩ rfl rfl (fun _ ↦ rfl) api

theorem cleanup_eq (h : Nat) : api.cleanup h =
    api.call .cleanup fun _ e ↦ e.answerCleanup h :=
  eq_call .cleanup (·.cleanup h) .cleanup (.handle h)
    ⟨rfl, nofun, fun _ ↦ rfl⟩ rfl rfl (fun _ ↦ rfl) api

theorem reset_eq (h : Nat) : api.reset h =
    api.call .reset fun _ e ↦ e.answerReset h :=
  eq_call .reset (·.reset h) .reset (.handle h)
    ⟨rfl, nofun, fun _ ↦ rfl⟩ rfl rfl (fun _ ↦ rfl) api

theorem perform_eq (h : Nat) : api.perform h = do
    api.call .perform fun _ e ↦ e.answerPerform h
    return .ofSigned (← Transfer.run h) := by
  cases api with
  | inProcess => rfl
  | linked => rfl
  | dynamic module =>
    refine (procedure_bind module .perform (.perform h) (pure <| ResultCode.ofSigned ·)).trans ?_
    rw [call, gate, refusal?, Method.entry]
    cases module.entry .perform with
    | error e => rfl
    | ok a => rfl

theorem pause_eq (h : Nat) (mask : Int32) : api.pause h mask =
    .ofSigned <$> api.call .pause fun p e ↦ e.answerPause p h mask :=
  eq_map_call .pause (·.pause h mask) .pause (.pause h mask)
    ⟨rfl, nofun, fun _ ↦ rfl⟩ rfl rfl (fun _ ↦ rfl) api

theorem impersonate_eq (h : Nat) (target : String) (defaultHeaders : Bool) :
    api.impersonate h target defaultHeaders =
      .ofSigned <$> api.call .impersonate fun p e ↦
        e.answerImpersonate p h target defaultHeaders := by
  cases api with
  | inProcess => rfl
  | linked => rfl
  | dynamic module =>
    rw [← dynamic_call (x := .impersonate h target defaultHeaders) module rfl (fun _ ↦ rfl),
      map_bind]
    rfl

/-! ### Options and infos -/

theorem setLong_eq (h : Nat) (o : OptionCode) (n : Int64) : api.setLong h o n =
    .ofSigned <$> api.call .setLong fun p e ↦ e.answerSetopt p .setLong h o (.integer n) :=
  eq_map_call .setLong (·.setLong h o n) .setopt (.setopt h o (.long n))
    ⟨rfl, nofun, fun _ ↦ rfl⟩ rfl rfl (fun _ ↦ rfl) api

theorem setOffset_eq (h : Nat) (o : OptionCode) (n : Int64) : api.setOffset h o n =
    .ofSigned <$> api.call .setOffset fun p e ↦ e.answerSetopt p .setOffset h o (.integer n) :=
  eq_map_call .setOffset (·.setOffset h o n) .setopt (.setopt h o (.offset n))
    ⟨rfl, nofun, fun _ ↦ rfl⟩ rfl rfl (fun _ ↦ rfl) api

theorem setPointer_eq (h : Nat) (o : OptionCode) (a : Address) : api.setPointer h o a =
    .ofSigned <$> api.call .setPointer fun p e ↦ e.answerSetopt p .setPointer h o (.pointer a) :=
  eq_map_call .setPointer (·.setPointer h o a) .setopt (.setopt h o (.pointer a))
    ⟨rfl, nofun, fun _ ↦ rfl⟩ rfl rfl (fun _ ↦ rfl) api

theorem setFunction_eq (h : Nat) (o : OptionCode) (a : Address) : api.setFunction h o a =
    .ofSigned <$> api.call .setFunction fun p e ↦ e.answerSetopt p .setFunction h o (.function a) :=
  eq_map_call .setFunction (·.setFunction h o a) .setopt (.setopt h o (.function a))
    ⟨rfl, nofun, fun _ ↦ rfl⟩ rfl rfl (fun _ ↦ rfl) api

theorem getinfo_eq (out : Readout) (h : Nat) (i : InfoCode) : api.getinfo out h i =
    (fun r ↦ (.ofSigned r.1, r.2)) <$>
      api.call out.method fun p e ↦ e.answerInfo p out.method h i := by
  have hentry : out.method.entry = .getinfo := by cases out <;> rfl
  have hne : out.method ≠ .impersonate := by cases out <;> nofun
  exact eq_map_call out.method (·.getinfo out h i) .getinfo (.getinfo h i out)
    ⟨hentry, hne, fun _ ↦ rfl⟩ rfl rfl (fun _ ↦ rfl) api

theorem getList_eq (h : Nat) (i : InfoCode) : api.getList h i =
    (fun r ↦ (.ofSigned r.1, r.2)) <$> api.call .getList fun p e ↦ e.answerListInfo p h i :=
  eq_map_call .getList (·.getList h i) .getinfo (.getList h i)
    ⟨rfl, nofun, fun _ ↦ rfl⟩ rfl rfl (fun _ ↦ rfl) api

/-! ### Octets, texts and lists -/

theorem send_eq (h : Nat) (b : Bytes) : api.send h b =
    (fun r ↦ (.ofSigned r.1, r.2)) <$> api.call .send fun p e ↦ e.answerSend p h b :=
  eq_map_call .send (·.send h b) .send (.send h b)
    ⟨rfl, nofun, fun _ ↦ rfl⟩ rfl rfl (fun _ ↦ rfl) api

theorem recv_eq (h capacity : Nat) : api.recv h capacity =
    (fun r ↦ (.ofSigned r.1, r.2)) <$> api.call .recv fun p e ↦ e.answerRecv p h capacity :=
  eq_map_call .recv (·.recv h capacity) .recv (.recv h capacity)
    ⟨rfl, nofun, fun _ ↦ rfl⟩ rfl rfl (fun _ ↦ rfl) api

theorem escape_eq (h : Nat) (input : Bytes) : api.escape h input =
    api.call .escape fun p e ↦ e.answerEscape p h input :=
  eq_call .escape (·.escape h input) .escape (.escape h input)
    ⟨rfl, nofun, fun _ ↦ rfl⟩ rfl rfl (fun _ ↦ rfl) api

theorem unescape_eq (h : Nat) (input : Bytes) : api.unescape h input =
    api.call .unescape fun p e ↦ e.answerUnescape p h input :=
  eq_call .unescape (·.unescape h input) .unescape (.unescape h input)
    ⟨rfl, nofun, fun _ ↦ rfl⟩ rfl rfl (fun _ ↦ rfl) api

theorem append_eq (list : Option Nat) (item : String) : api.append list item =
    api.call .listAppend fun p e ↦ e.answerAppend p list item :=
  eq_call .listAppend (·.append list item) .listAppend (.append list item)
    ⟨rfl, nofun, fun _ ↦ rfl⟩ rfl rfl (fun _ ↦ rfl) api

theorem freeList_eq (n : Nat) : api.freeList n =
    api.call .listFree fun _ e ↦ e.answerListFree n :=
  eq_call .listFree (·.freeList n) .listFree (.freeList n)
    ⟨rfl, nofun, fun _ ↦ rfl⟩ rfl rfl (fun _ ↦ rfl) api

theorem free_eq (a : Address) : api.free a =
    api.call .free fun _ e ↦ e.answerFree a :=
  eq_call .free (·.free a) .free (.free a)
    ⟨rfl, nofun, fun _ ↦ rfl⟩ rfl rfl (fun _ ↦ rfl) api

end

end Api

end NativeTransfer
