import NativeTransfer.State.Exported

/-!
# Native calls

What a way to the engine offers is a set of methods, and there are three such sets. In the same
process a method is answered as it is asked for, unless it is out of reach. A linked library has its
functions called by name, and lacks the one that not every build of it has. A loaded module has its
functions called at the addresses in its table, slot by slot.

The last two are written out one beside the other. Each method names the function that it means by
itself, once by its name and once by its slot, and what comes of the one and of the other is the
same only if both name the same function and the slot leads there.

Every attempt to call the engine is counted, whatever becomes of it.
-/

namespace NativeTransfer

/-- The text of a NUL-terminated string; a null pointer is the empty text. -/
def textOrEmpty (s : Option Bytes) : String := (s.map Text.ofCString).getD ""

/-- Counts an attempt to call the engine. -/
def countAttempt : Act Unit := modify fun w ↦ { w with engine.calls := w.engine.calls + 1 }

/-- What a way to the engine offers. -/
structure Methods where
  version : Attempt String
  globalInit (flags : Int64) : Attempt ResultCode
  globalCleanup : Attempt Unit
  /-- The engine's text for a code. -/
  strerror (code : ResultCode) : Act String
  init : Attempt (Option Nat)
  duphandle (h : Nat) : Attempt (Option Nat)
  cleanup (h : Nat) : Attempt Unit
  reset (h : Nat) : Attempt Unit
  perform (h : Nat) : Attempt ResultCode
  pause (h : Nat) (mask : Int32) : Attempt ResultCode
  setLong (h : Nat) (o : OptionCode) (n : Int64) : Attempt ResultCode
  setOffset (h : Nat) (o : OptionCode) (n : Int64) : Attempt ResultCode
  setPointer (h : Nat) (o : OptionCode) (a : Address) : Attempt ResultCode
  setFunction (h : Nat) (o : OptionCode) (a : Address) : Attempt ResultCode
  /-- An info by the method for its type. -/
  getinfo (out : Readout) (h : Nat) (i : InfoCode) : Attempt (ResultCode × Option InfoReply)
  getList (h : Nat) (i : InfoCode) : Attempt (ResultCode × Option Nat)
  send (h : Nat) (b : Bytes) : Attempt (ResultCode × UInt64)
  recv (h : Nat) (capacity : Nat) : Attempt (ResultCode × Bytes × UInt64)
  escape (h : Nat) (input : Bytes) : Attempt (Option (Address × Bytes))
  unescape (h : Nat) (input : Bytes) : Attempt (Option (Address × Bytes × Int32))
  impersonate (h : Nat) (target : String) (defaultHeaders : Bool) : Attempt ResultCode
  append (list : Option Nat) (item : String) : Attempt (Option Nat)
  freeList (n : Nat) : Attempt Unit
  free (a : Address) : Attempt Unit

/-! ## In the same process -/

namespace InProcess

/-- Whether a method is within reach. -/
def reach (m : Method) : Attempt Unit := do
  let w ← get
  countAttempt
  if w.policy.unreachable w.engine m then
    emit (.unreached m)
    throw (.moduleNotLoaded ("injected " ++ m.name))

/-- One call of a method. -/
def call {α : Type} (m : Method) (answer : Policy → Engine → Answered α) : Attempt α := do
  reach m
  ExceptT.lift (answering .direct answer)

def methods : Methods where
  version := textOrEmpty <$> call .version Engine.answerVersion
  globalInit flags := .ofSigned <$> call .globalInit fun p e ↦ e.answerGlobalInit p flags
  globalCleanup := call .globalCleanup fun _ e ↦ e.answerGlobalCleanup
  -- A text for a code can always be had, and asking for one is no attempt.
  strerror code := textOrEmpty <$> answering .direct fun p e ↦ e.answerStrerror p code.toSigned
  init := call .init Engine.answerInit
  duphandle h := call .duphandle fun p e ↦ e.answerDuphandle p h
  cleanup h := call .cleanup fun _ e ↦ e.answerCleanup h
  reset h := call .reset fun _ e ↦ e.answerReset h
  perform h := do
    call .perform fun _ e ↦ e.answerPerform h
    return .ofSigned (← Transfer.run h)
  pause h mask := .ofSigned <$> call .pause fun p e ↦ e.answerPause p h mask
  setLong h o n := .ofSigned <$> call .setLong fun p e ↦ e.answerSetopt p .setLong h o (.integer n)
  setOffset h o n :=
    .ofSigned <$> call .setOffset fun p e ↦ e.answerSetopt p .setOffset h o (.integer n)
  setPointer h o a :=
    .ofSigned <$> call .setPointer fun p e ↦ e.answerSetopt p .setPointer h o (.pointer a)
  setFunction h o a :=
    .ofSigned <$> call .setFunction fun p e ↦ e.answerSetopt p .setFunction h o (.function a)
  getinfo out h i := (fun r ↦ (.ofSigned r.1, r.2)) <$>
    call out.method fun p e ↦ e.answerInfo p out.method h i
  getList h i := (fun r ↦ (.ofSigned r.1, r.2)) <$> call .getList fun p e ↦ e.answerListInfo p h i
  send h b := (fun r ↦ (.ofSigned r.1, r.2)) <$> call .send fun p e ↦ e.answerSend p h b
  recv h capacity :=
    (fun r ↦ (.ofSigned r.1, r.2)) <$> call .recv fun p e ↦ e.answerRecv p h capacity
  escape h input := call .escape fun p e ↦ e.answerEscape p h input
  unescape h input := call .unescape fun p e ↦ e.answerUnescape p h input
  impersonate h target defaultHeaders :=
    .ofSigned <$> call .impersonate fun p e ↦ e.answerImpersonate p h target defaultHeaders
  append list item := call .listAppend fun p e ↦ e.answerAppend p list item
  freeList n := call .listFree fun _ e ↦ e.answerListFree n
  free a := call .free fun _ e ↦ e.answerFree a

end InProcess

/-! ## Through a linked library -/

namespace Linked

/-- Calls a function by its name. Linking has seen to it that the function is there. -/
def call {α : Type} (f : EntryPoint) (x : Passed α) : Attempt α := do
  countAttempt
  ExceptT.lift (callThere none (some f) x)

def methods : Methods where
  version := textOrEmpty <$> call .version .version
  globalInit flags := .ofSigned <$> call .globalInit (.globalInit flags)
  globalCleanup := call .globalCleanup .globalCleanup
  strerror code := do
    countAttempt
    return textOrEmpty (← callThere none (some .strerror) (.strerror code.toSigned))
  init := call .init .init
  duphandle h := call .duphandle (.duphandle h)
  cleanup h := call .cleanup (.handle h)
  reset h := call .reset (.handle h)
  perform h := .ofSigned <$> call .perform (.perform h)
  pause h mask := .ofSigned <$> call .pause (.pause h mask)
  setLong h o n := .ofSigned <$> call .setopt (.setopt h o (.long n))
  setOffset h o n := .ofSigned <$> call .setopt (.setopt h o (.offset n))
  setPointer h o a := .ofSigned <$> call .setopt (.setopt h o (.pointer a))
  setFunction h o a := .ofSigned <$> call .setopt (.setopt h o (.function a))
  getinfo out h i := (fun r ↦ (.ofSigned r.1, r.2)) <$> call .getinfo (.getinfo h i out)
  getList h i := (fun r ↦ (.ofSigned r.1, r.2)) <$> call .getinfo (.getList h i)
  send h b := (fun r ↦ (.ofSigned r.1, r.2)) <$> call .send (.send h b)
  recv h capacity := (fun r ↦ (.ofSigned r.1, r.2)) <$> call .recv (.recv h capacity)
  escape h input := call .escape (.escape h input)
  unescape h input := call .unescape (.unescape h input)
  -- No name to call by: not every build has this function, and linking would fail.
  impersonate _ _ _ := do
    countAttempt
    throw (.entryPointMissing .impersonate "not available in a linked stock libcurl")
  append list item := call .listAppend (.append list item)
  freeList n := call .listFree (.freeList n)
  free a := call .free (.free a)

end Linked

/-! ## Through a loaded module -/

namespace Dynamic

variable (module : Library.Loaded)

/-- The address in the slot of an entry point. -/
def procedure (e : EntryPoint) : Attempt Library.Offset := do
  countAttempt
  match module.entry e with
  | .ok a => return a
  | .error e => throw e

/-- Calls what stands at an address. -/
def callAt {α : Type} (a : Library.Offset) (x : Passed α) : Attempt α :=
  ExceptT.lift (callThere module.banner? (module.exported? a) x)

def methods : Methods where
  version := do
    let f ← procedure module .version
    return textOrEmpty (← callAt module f .version)
  globalInit flags := do
    let f ← procedure module .globalInit
    return .ofSigned (← callAt module f (.globalInit flags))
  globalCleanup := do
    let f ← procedure module .globalCleanup
    callAt module f .globalCleanup
  -- Where the engine cannot be asked, the code's own name stands in.
  strerror code := do
    let lookup : Attempt String := do
      let f ← procedure module .strerror
      return textOrEmpty (← callAt module f (.strerror code.toSigned))
    match ← lookup.run with
    | .ok s => return s
    | .error _ => return code.text
  init := do
    let f ← procedure module .init
    callAt module f .init
  duphandle h := do
    let f ← procedure module .duphandle
    callAt module f (.duphandle h)
  cleanup h := do
    let f ← procedure module .cleanup
    callAt module f (.handle h)
  reset h := do
    let f ← procedure module .reset
    callAt module f (.handle h)
  perform h := do
    let f ← procedure module .perform
    return .ofSigned (← callAt module f (.perform h))
  pause h mask := do
    let f ← procedure module .pause
    return .ofSigned (← callAt module f (.pause h mask))
  setLong h o n := do
    let f ← procedure module .setopt
    return .ofSigned (← callAt module f (.setopt h o (.long n)))
  setOffset h o n := do
    let f ← procedure module .setopt
    return .ofSigned (← callAt module f (.setopt h o (.offset n)))
  setPointer h o a := do
    let f ← procedure module .setopt
    return .ofSigned (← callAt module f (.setopt h o (.pointer a)))
  setFunction h o a := do
    let f ← procedure module .setopt
    return .ofSigned (← callAt module f (.setopt h o (.function a)))
  getinfo out h i := do
    let f ← procedure module .getinfo
    let (code, reply) ← callAt module f (.getinfo h i out)
    return (.ofSigned code, reply)
  getList h i := do
    let f ← procedure module .getinfo
    let (code, list) ← callAt module f (.getList h i)
    return (.ofSigned code, list)
  send h b := do
    let f ← procedure module .send
    let (code, sent) ← callAt module f (.send h b)
    return (.ofSigned code, sent)
  recv h capacity := do
    let f ← procedure module .recv
    let (code, received) ← callAt module f (.recv h capacity)
    return (.ofSigned code, received)
  escape h input := do
    let f ← procedure module .escape
    callAt module f (.escape h input)
  unescape h input := do
    let f ← procedure module .unescape
    callAt module f (.unescape h input)
  impersonate h target defaultHeaders := do
    let f ← procedure module .impersonate
    return .ofSigned (← callAt module f (.impersonate h target defaultHeaders))
  append list item := do
    let f ← procedure module .listAppend
    callAt module f (.append list item)
  freeList n := do
    let f ← procedure module .listFree
    callAt module f (.freeList n)
  free a := do
    let f ← procedure module .free
    callAt module f (.free a)

end Dynamic

/-! ## By any way -/

namespace Api

/-- The methods of a way to the engine. -/
def methods : Api → Methods
  | .inProcess => InProcess.methods
  | .linked => Linked.methods
  | .dynamic module => Dynamic.methods module

variable (api : Api)

def version : Attempt String := api.methods.version

def globalInit (flags : Int64) : Attempt ResultCode := api.methods.globalInit flags

def globalCleanup : Attempt Unit := api.methods.globalCleanup

def strerror (code : ResultCode) : Act String := api.methods.strerror code

/-- Turns a code that reports a failure into an error. -/
def check (code : ResultCode) : Attempt Unit := do
  if ¬ code.isOk then
    throw (.native code (← api.strerror code))

def init : Attempt (Option Nat) := api.methods.init

def duphandle (h : Nat) : Attempt (Option Nat) := api.methods.duphandle h

def cleanup (h : Nat) : Attempt Unit := api.methods.cleanup h

def reset (h : Nat) : Attempt Unit := api.methods.reset h

def perform (h : Nat) : Attempt ResultCode := api.methods.perform h

def pause (h : Nat) (mask : Int32) : Attempt ResultCode := api.methods.pause h mask

def impersonate (h : Nat) (target : String) (defaultHeaders : Bool) : Attempt ResultCode :=
  api.methods.impersonate h target defaultHeaders

def setLong (h : Nat) (o : OptionCode) (n : Int64) : Attempt ResultCode :=
  api.methods.setLong h o n

def setOffset (h : Nat) (o : OptionCode) (n : Int64) : Attempt ResultCode :=
  api.methods.setOffset h o n

def setPointer (h : Nat) (o : OptionCode) (a : Address) : Attempt ResultCode :=
  api.methods.setPointer h o a

def setFunction (h : Nat) (o : OptionCode) (a : Address) : Attempt ResultCode :=
  api.methods.setFunction h o a

def getinfo (out : Readout) (h : Nat) (i : InfoCode) : Attempt (ResultCode × Option InfoReply) :=
  api.methods.getinfo out h i

def getList (h : Nat) (i : InfoCode) : Attempt (ResultCode × Option Nat) := api.methods.getList h i

def send (h : Nat) (b : Bytes) : Attempt (ResultCode × UInt64) := api.methods.send h b

def recv (h : Nat) (capacity : Nat) : Attempt (ResultCode × Bytes × UInt64) :=
  api.methods.recv h capacity

def escape (h : Nat) (input : Bytes) : Attempt (Option (Address × Bytes)) :=
  api.methods.escape h input

def unescape (h : Nat) (input : Bytes) : Attempt (Option (Address × Bytes × Int32)) :=
  api.methods.unescape h input

def free (a : Address) : Attempt Unit := api.methods.free a

def append (list : Option Nat) (item : String) : Attempt (Option Nat) :=
  api.methods.append list item

def freeList (n : Nat) : Attempt Unit := api.methods.freeList n

end Api

end NativeTransfer
