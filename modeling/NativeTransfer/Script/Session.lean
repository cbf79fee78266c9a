import NativeTransfer.Script.Controls
import NativeTransfer.Wrapper.Lifecycle
import NativeTransfer.Wrapper.Request

/-!
# Sessions

A session is a sequence of steps on one state, in which wrappers and buffers go by names. Each step
brings the decisions of the engine with it, and what happens during a step is what the trace has
gained by its end.
-/

namespace NativeTransfer.Script

/-- A session as far as it has come. -/
structure Session where
  state : State
  /-- The wrappers that are there, by name. -/
  names : List (String × WrapperId) := []
  buffers : List (String × Buffer) := []
  /-- The way to the engine that steps take where they name none. -/
  api : Api := .inProcess
  texts : EngineTexts := {}

/-- A part of a session. -/
abbrev Run := StateM Session

namespace Session

/-- Does something in the session's state. -/
def act {α : Type} (a : Act α) : Run α := modifyGet fun s ↦
  let (r, w) := a.run s.state
  (r, { s with state := w })

/-- Does something that may fail. -/
def attempt {α : Type} (a : Attempt α) : Run (Except Error α) := act a.run

/-- Runs a part under the decisions of an engine, and tells what happened. -/
def underControls {α : Type} (c : Controls) (r : Run α) : Run (α × List Event) := do
  let before := (← get).state.trace.length
  modify fun s ↦ { s with state.policy := c.policy s.texts s.state.engine }
  let a ← r
  return (a, (← get).state.trace.drop before)

/-! ## Names -/

/-- Does something with the wrapper of a name, if there is one. -/
def on {α : Type} (name : String) (f : WrapperId → Run α) : Run (Option α) := do
  match (← get).names.lookup name with
  | none => return none
  | some id => return some (← f id)

/-- Ends the wrapper of a name, and tells whether there was one. -/
def drop (name : String) : Run Bool := do
  match (← get).names.lookup name with
  | none => return false
  | some id =>
    modify fun s ↦ { s with names := Pairs.without name s.names }
    act (Wrapper.drop id)
    return true

/-- Gives a name to a new wrapper. The one that had it ends when the new one is there. -/
def bind (name : String) (id : WrapperId) : Run Address := do
  discard (drop name)
  modify fun s ↦ { s with names := (name, id) :: s.names }
  return ((← get).state.wrapper id).context

/-- Names what comes of making a wrapper. -/
def bindNew (name : String) (a : Attempt WrapperId) : Run (Except Error Address) := do
  match ← attempt a with
  | .error e => return .error e
  | .ok id => return .ok (← bind name id)

/-- Ends all wrappers, in the order of their names. -/
def finish : Run Unit := do
  for name in ((← get).names.map (·.1)).mergeSort do
    discard (drop name)

/-! ## Buffers -/

/-- A new buffer of some octets. -/
def newBuffer (bytes : Bytes) : Run Buffer := return ⟨← act newSerial, bytes⟩

/-- Gives a name to a new buffer. -/
def nameBuffer (name : String) (bytes : Bytes) : Run Unit := do
  let b ← newBuffer bytes
  modify fun s ↦ { s with buffers := Pairs.put name b s.buffers }

/-- How many ledger entries hold a buffer. -/
def bufferHolders (s : Session) (b : Buffer) : Nat := s.state.holders (.buffer b.serial b.bytes)

/-- The buffers in the order of their names, each with the number of its holders. -/
def holdersByName (s : Session) : List (String × Nat) :=
  (s.buffers.map fun b ↦ (b.1, s.bufferHolders b.2)).mergeSort fun a b ↦ a.1 ≤ b.1

/-! ## Contexts -/

/-- The address of a handle by its number; null if there never was one. -/
def contextOf (s : Session) (h : Nat) : Address :=
  if h < s.state.engine.created then .handle h else .null

/-- A buffer that the engine gives to a trampoline: octets cut or padded to the length that it
claims, or a null pointer. A length that is none leaves them as they are. -/
def engineBuffer (bytes : Bytes) (null : Bool) (size count : UInt64) : Option Bytes :=
  if null then none
  else
    match extent? size count with
    | some n => some (bytes.fit n)
    | none => some bytes

end Session

end NativeTransfer.Script
