import NativeTransfer.Value
import NativeTransfer.Wrapper.Basic

/-!
# Requests

What a wrapper asks of the engine besides setting options. Whatever the engine makes for an answer
is copied and given back, whether it is a list or a string.

## What never crosses

Some requests are answered without the engine: an empty text is its own encoding, and there is
nothing to receive into an empty buffer. A text that is too long for the engine's own measure is
refused here as well, with its length.

## What comes back

A string that the engine made for the answer is read up to its NUL if it is a text, and by its
reported length if it may hold any octets. It is given back before the request ends, and so is a
list. That a list could not be given back is no failure of the request, because its texts are copied
by then. The text of an info remains the engine's, and nothing is given back for it.
-/

namespace NativeTransfer.Wrapper

variable (id : WrapperId)

/-! ## Transfers -/

/-- Runs the transfer. -/
def perform : Attempt Unit := do
  let h ← liveHandle id
  let api ← getApi id
  api.check (← api.perform h)

/-- Pauses or resumes by a mask. -/
def pause (mask : Int32) : Attempt Unit := do
  let h ← liveHandle id
  let api ← getApi id
  api.check (← api.pause h mask)

/-- Sends octets on an open connection, and tells how many went. -/
def send (b : Bytes) : Attempt UInt64 := do
  let h ← liveHandle id
  let api ← getApi id
  let (code, sent) ← api.send h b
  api.check code
  return sent

/-- What receiving comes to: how many octets came, or why none did, and the buffer afterwards. -/
structure Received where
  result : Except Error UInt64
  buffer : Bytes

/-- Receives octets on an open connection into a buffer. The engine never hears of an empty one. -/
def recv (buffer : Bytes) : Act Received := do
  match ← (liveHandle id).run with
  | .error e => return ⟨.error e, buffer⟩
  | .ok h =>
    if buffer = [] then return ⟨.ok 0, buffer⟩
    let api ← getApi id
    match ← (api.recv h buffer.length).run with
    | .error e => return ⟨.error e, buffer⟩
    | .ok (code, bytes, n) =>
      let checked ← (api.check code).run
      return ⟨checked.map fun _ ↦ n, bytes.overlay buffer⟩

/-- Takes on the looks of another program. -/
def impersonate (target : String) (defaultHeaders : Bool) : Attempt Unit := do
  let h ← liveHandle id
  checkText target
  let api ← getApi id
  api.check (← api.impersonate h target defaultHeaders)

/-! ## Encoding for URLs -/

/-- The longest text whose length the engine can be told, in octets. -/
def longestInput : Nat := 2147483647

/-- Refuses a text whose length the engine cannot be told. -/
def checkLength (s : String) : Attempt Unit :=
  let n := (Text.utf8 s).length
  if n ≤ longestInput then return else throw (.inputTooLong n)

/-- A text as the engine encodes it. The engine would measure an empty one itself, so it is never
asked. -/
def escape (input : String) : Attempt String := do
  let h ← liveHandle id
  if input = "" then return ""
  checkLength input
  let api ← getApi id
  match ← api.escape h (Text.utf8 input) with
  | none => throw (.native .outOfMemory "curl_easy_escape returned null")
  | some (a, b) =>
    api.free a
    return Text.ofCString b

/-- What the engine decodes from a text; it may hold any octets. -/
def unescape (input : String) : Attempt Bytes := do
  let h ← liveHandle id
  if input = "" then return []
  checkLength input
  let api ← getApi id
  match ← api.unescape h (Text.utf8 input) with
  | none => throw (.native .outOfMemory "curl_easy_unescape returned null")
  | some (a, b, n) =>
    api.free a
    return b.take n.toInt.toNat

/-! ## Infos -/

/-- The texts of a list. A node without data has none. -/
def texts (nodes : List (Option Bytes)) : List String :=
  nodes.filterMap fun n ↦ n.map Text.ofCString

/-- A list that the engine made for the answer. -/
def getList (h : Nat) (i : InfoCode) : Attempt InfoValue := do
  let api ← getApi id
  let (code, list) ← api.getList h i
  api.check code
  match list with
  | none => return .list []
  | some n =>
    let items := texts ((← get).engine.items n)
    match ← observed (api.freeList n) with
    | .ok _ => pure ()
    | .error e =>
      report .warn "failed to free info list" [("info", .text i.text), ("error", .text e.message)]
    return .list items

/-- What the engine puts out for an info of some type, if that is anything of the type. -/
def getScalar (out : Readout) (h : Nat) (i : InfoCode) : Attempt (Option InfoReply) := do
  let api ← getApi id
  let (code, reply) ← api.getinfo out h i
  api.check code
  return reply

/-- Asks for an info. -/
def getinfo (i : InfoCode) : Attempt InfoValue := do
  let h ← liveHandle id
  match i.infoClass with
  | .string =>
    match ← getScalar id .string h i with
    | some (.string s) => return .text (s.map Text.ofCString)
    | _ => return .text none
  | .long =>
    match ← getScalar id .long h i with
    | some (.long n) => return .long n
    | _ => return .long 0
  | .double =>
    match ← getScalar id .double h i with
    | some (.double bits) => return .double bits
    | _ => return .double 0
  | .offset =>
    match ← getScalar id .offset h i with
    | some (.offset n) => return .offset n
    | _ => return .offset 0
  | .list => if i.isPointer then throw (.unsupportedInfo i) else getList id h i
  | _ => throw (.unsupportedInfo i)

end NativeTransfer.Wrapper
