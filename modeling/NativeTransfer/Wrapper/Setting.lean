import NativeTransfer.Value
import NativeTransfer.Wrapper.Basic

/-!
# Setting options

A value crosses in the encoding that its option expects, or is refused before the engine hears of
it. What the engine is given an address of is recorded first and taken out again if the engine
refuses it. The options that wire a callback are set by the library alone; a caller gives callbacks
and their data, and gets the wiring.

## Recorded before accepted

The engine may read at any time what it was given, so a text or a buffer is in the ledger before the
engine is asked, and `orRelease` takes it out again. A list is different: its items are recorded one
by one while it is built, and the list itself once the engine has accepted it. Until then nobody
holds the list, and whoever gives up building it frees it.

## The order of a wiring

The engine is given the context before the function that is to use it, and has the function taken
away before the context, so that in between the trampoline is never there without its context.
Progress has a third option between or after them, a switch. Each of these is a call that may be
refused, and those before it then stand as they are.
-/

namespace NativeTransfer.Wrapper

variable (id : WrapperId)

/-- The refusal of a value by a plain option. -/
def mismatch (o : OptionCode) (v : ValueKind) : Error := .typeMismatch o (.plain o.encoding) v

/-! ## One argument -/

def setPointer (h : Nat) (o : OptionCode) (a : Address) : Attempt Unit := do
  let api ← getApi id
  api.check (← api.setPointer h o a)

def setFunction (h : Nat) (o : OptionCode) (a : Address) : Attempt Unit := do
  let api ← getApi id
  api.check (← api.setFunction h o a)

/-- An integer crosses as a wide one for the options of the fixed list, and as a plain one for those
that take plain ones, if it is in their range. -/
def setInteger (h : Nat) (o : OptionCode) (n : Int64) : Attempt Unit := do
  let api ← getApi id
  if o.isWide then
    api.check (← api.setOffset h o n)
  else if o.encoding = .long then
    match asLong? longWidth n with
    | some n => api.check (← api.setLong h o n)
    | none => throw (.outOfRange o n.toInt)
  else
    throw (mismatch o .long)

theorem setInteger_eq (h : Nat) (o : OptionCode) (n : Int64) : setInteger id h o n = (do
    let api ← getApi id
    if o.isWide then
      api.check (← api.setOffset h o n)
    else if o.encoding = .long then
      api.check (← api.setLong h o n)
    else
      throw (mismatch o .long)) := by
  simp only [setInteger, asLong?_longWidth]

/-! ## Texts, buffers and lists -/

/-- Undoes what was recorded since a mark if an attempt fails. -/
def orRelease {α : Type} (mark : Nat) (attempt : Attempt α) : Attempt α :=
  orUndo attempt (discard (releaseSince id mark))

def setText (h : Nat) (o : OptionCode) (s : String) : Attempt Unit := do
  let mark := (← getLedger id).position
  let a ← recordText id s
  orRelease id mark (setPointer id h o a)

/-- The greatest length that crosses as a plain integer. -/
def greatestPlainLength : Nat := 2147483647

/-- The option that takes the length of a body. -/
def sizeOption (n : Nat) : OptionCode :=
  if n ≤ greatestPlainLength then .postFieldSize else .postFieldSizeLarge

/-- A buffer is recorded once however often it is given, and an empty one not at all. The body of a
post may hold a NUL, so its length crosses with it. -/
def setBytes (h : Nat) (o : OptionCode) (b : Buffer) : Attempt Unit := do
  let l ← getLedger id
  let a := if b.bytes = [] then .null else Address.buffer b.serial b.bytes
  if ¬ a.isNull ∧ ¬ l.covers a then
    record id (.buffer b.serial b.bytes)
  orRelease id l.position do
    setPointer id h o a
    if o = .postFields then
      setInteger id h (sizeOption b.bytes.length) (Int64.ofNat b.bytes.length)

/-- Appends one item to a list that is being built. -/
def appendItem (head : Option Nat) (item : String) : Attempt Nat := do
  let api ← getApi id
  discard (recordText id item)
  match ← api.append head item with
  | some n => return n
  | none => throw (.listAppend item)

/-- Builds a list. One that cannot be finished is taken down again. -/
def buildList (o : OptionCode) (mark : Nat) : Option Nat → List String → Attempt (Option Nat)
  | head, [] => return head
  | head, item :: rest => do
    match ← observed (appendItem id head item) with
    | .ok n => buildList o mark (some n) rest
    | .error e =>
      discard (releaseSince id mark)
      freeNativeList (← getApi id) head
      report .debug "list build rolled back" [("option", .text o.text), ("error", .text e.message)]
      throw e

/-- The items stay recorded one by one, the list as a whole only once the engine has it. -/
def setList (h : Nat) (o : OptionCode) (items : List String) : Attempt Unit := do
  let mark := (← getLedger id).position
  let head ← buildList id o mark none items
  orUndo (setPointer id h o (Address.ofList? head)) do
    discard (releaseSince id mark)
    freeNativeList (← getApi id) head
  if head.isSome then
    record id (.list (← newSerial) head)

/-! ## Callbacks -/

/-- Points the engine at the trampoline of a kind, with the handle for a context. -/
def wire (h : Nat) (k : CallbackKind) : Attempt Unit := do
  setPointer id h k.dataOption (.handle h)
  if k = .progress then
    setInteger id h .noProgress 0
  setFunction id h k.functionOption (.trampoline k)

/-- Takes function and context of a kind away from the engine. -/
def unwire (h : Nat) (k : CallbackKind) : Attempt Unit := do
  setFunction id h k.functionOption .null
  setPointer id h k.dataOption .null
  if k = .progress then
    setInteger id h .noProgress 1

/-- The function option of a kind. The slot is filled only once the engine has accepted the
wiring. -/
def setCallback (h : Nat) (k : CallbackKind) (v : Value) : Attempt Unit := do
  match v with
  | .null =>
    modifySlots id (·.clear k)
    unwire id h k
  | .function c =>
    if c.kind = k then
      wire id h k
      modifySlots id (·.install c)
    else
      throw (.typeMismatch k.functionOption (.function k) v.kind)
  | v => throw (.typeMismatch k.functionOption (.function k) v.kind)

/-- Gives a stream to a slot. Where no callback is installed, one is that serves the stream, and if
the engine does not accept the wiring the slot is emptied again. -/
def setStream (h : Nat) (k : CallbackKind) (d : UserData) : Attempt Unit := do
  let installed := (← getSlots id).isInstalled k
  modifySlots id (·.setData d k)
  if installed then
    wire id h k
  else
    match Callback.forStream? k with
    | some c => modifySlots id (·.install c)
    | none => pure ()
    orUndo (wire id h k) (modifySlots id (·.clear k))

/-- The data option of a kind. Data without a callback waits in the slot. -/
def setCallbackData (h : Nat) (k : CallbackKind) (v : Value) : Attempt Unit := do
  let installed := (← getSlots id).isInstalled k
  let refused : Attempt Unit := throw (.typeMismatch k.dataOption (.stream k) v.kind)
  match v with
  | .null =>
    modifySlots id (·.setData .empty k)
    if ¬ installed then
      setPointer id h k.dataOption .null
  | .sink s => if k = .write ∨ k = .header then setStream id h k (.writer s) else refused
  | .source s => if k = .read then setStream id h k (.reader s) else refused
  | .data d =>
    modifySlots id (·.setData (.value d) k)
    if installed then
      setPointer id h k.dataOption (.handle h)
  | _ => refused

/-! ## Any option -/

/-- An option that has no part in the wiring of callbacks. -/
def setPlain (h : Nat) (o : OptionCode) (v : Value) : Attempt Unit :=
  match v, o.encoding with
  | .null, .object => setPointer id h o .null
  | .null, .blob => setPointer id h o .null
  | .null, .function => setFunction id h o .null
  | .long n, _ => setInteger id h o n
  | .bool b, .long => setInteger id h o (if b then 1 else 0)
  | .text s, .object => setText id h o s
  | .bytes b, .object => setBytes id h o b
  | .list items, .object => setList id h o items
  | .pointer n, .object => setPointer id h o (.number n)
  | .pointer n, .blob => setPointer id h o (.number n)
  | .pointer n, .function => setFunction id h o (.number n)
  | v, _ => throw (mismatch o v.kind)

/-- Sets an option. -/
def setopt (o : OptionCode) (v : Value) : Attempt Unit := do
  let h ← liveHandle id
  report .debug "setopt" [("option", .text o.text), ("value", .text v.shown)]
  match CallbackKind.ofFunctionOption? o, CallbackKind.ofDataOption? o with
  | some k, _ => setCallback id h k v
  | none, some k => setCallbackData id h k v
  | none, none => setPlain id h o v

end NativeTransfer.Wrapper
