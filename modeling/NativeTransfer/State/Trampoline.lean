import NativeTransfer.Callback.Delivery
import NativeTransfer.State.Basic

/-!
# Trampolines

The functions that the engine calls back. Each finds the wrapper by the context that it is handed
and delivers to the wrapper's slot. A callback that gives up never takes the engine down with it: it
is reported, and the engine gets the most cautious answer of its kind.

A context is nothing but an address. It is looked up in the registry and never followed, so a
context that is out of date leads to no wrapper, and the answer is the one for a slot without a
callback. The size and the count of a buffer are multiplied without wrapping round: a product beyond
the range of a length is no length, and the callback never hears of such a buffer.

The order of these checks is the same for both directions of octets except in one respect. A chunk
is measured before its wrapper is looked up, a request for octets afterwards, which shows in the
report and not in the answer.
-/

namespace NativeTransfer

/-! ## What the engine hands over -/

/-- The length of a buffer of `count` items of `size` octets, if it is a length at all. -/
def extent? (size count : UInt64) : Option Nat :=
  let n := size.toNat * count.toNat
  if n < UInt64.size then some n else none

/-- The octets of a buffer; a null pointer has none. -/
def bufferOctets (buffer : Option Bytes) (n : Nat) : Bytes := (buffer.getD []).take n

/-! ## From a context to a wrapper -/

/-- The wrapper that a context leads to. -/
def findServed (context : Address) (kind : CallbackKind) : Act (Option WrapperId) := do
  let id := (← get).served context
  if id.isNone then
    report .trace "no wrapper registered for callback context"
      [("ctx", .text context.text), ("kind", .text kind.name)]
  return id

/-- Delivers to a wrapper's slots. -/
def deliver {α : Type} (id : WrapperId) (f : Slots → Delivery α) : Act (Outcome α) := do
  let d := f ((← get).wrapper id).slots
  modify fun w ↦
    { w.modifyWrapper id ({ · with slots := d.slots }) with trace := w.trace ++ d.events }
  return d.outcome

/-- The answer to the engine, whatever became of the callback. -/
def guarded {α : Type} (kind : CallbackKind) (cautious : α) : Outcome α → Act α
  | .done a => return a
  | .panicked message => do
    report .error "callback panicked"
      [("kind", .text kind.name), ("message", .text (message.getD "non-string panic payload"))]
    return cautious

/-! ## The trampolines -/

/-- A chunk of the body or of the headers. -/
def onChunk (kind : CallbackKind) (f : Slots → Bytes → Delivery Nat) (context : Address)
    (buffer : Option Bytes) (size count : UInt64) : Act Nat := do
  match extent? size count with
  | none => return writeMiss
  | some n =>
    match ← findServed context kind with
    | none => return writeMiss
    | some id => guarded kind pauseCount (← deliver id (f · (bufferOctets buffer n)))

def onWrite : Address → Option Bytes → UInt64 → UInt64 → Act Nat :=
  onChunk .write Slots.deliverWrite

def onHeader : Address → Option Bytes → UInt64 → UInt64 → Act Nat :=
  onChunk .header Slots.deliverHeader

/-- A request for octets. The buffer comes back as the callback leaves it. -/
def onRead (context : Address) (buffer : Option Bytes) (size count : UInt64) :
    Act (Nat × Option Bytes) := do
  match ← findServed context .read with
  | none => return (abortCount, buffer)
  | some id =>
    match extent? size count with
    | none => return (abortCount, buffer)
    | some n =>
      let room := bufferOctets buffer n
      let (answer, room) ← guarded .read (abortCount, room) (← deliver id (·.deliverRead room))
      return (answer, buffer.map fun b ↦ room ++ b.drop n)

/-- The counters of a transfer. -/
def onProgress (context : Address) (counters : Progress) : Act Nat := do
  match ← findServed context .progress with
  | none => return progressContinue
  | some id => guarded .progress progressAbort (← deliver id (·.deliverProgress counters))

end NativeTransfer
