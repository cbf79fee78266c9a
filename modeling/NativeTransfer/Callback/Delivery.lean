import NativeTransfer.Callback.Slot
import NativeTransfer.Trace

/-!
# Delivery to a slot

What the engine is told is a number, and some numbers mean more than a count. A chunk is answered
with its length or with the request to pause, a request for octets with a count or with the request
to abort. Nothing keeps a length from being the number that asks for a pause.

## Where nothing is installed

A slot without a callback answers as well: a chunk is not taken, a request for octets ends the
transfer, and progress goes on. The first two are reported.

## Counts of a read

A callback for octets names its count itself, and the count is believed only between zero and the
room that there was. What it put into the buffer stays there also if its count is not believed.
-/

namespace NativeTransfer

/-! ## The numbers that are no counts -/

/-- Asks for the transfer to be paused. -/
def pauseCount : Nat := 0x10000001

/-- Asks for the transfer to be aborted. -/
def abortCount : Nat := 0x10000000

/-- What a chunk is answered with where there is no callback. -/
def writeMiss : Nat := 0

def progressContinue : Nat := 0

def progressAbort : Nat := 1

/-! ## Deliveries -/

def Outcome.map {α β : Type} (f : α → β) : Outcome α → Outcome β
  | .done a => .done (f a)
  | .panicked m => .panicked m

/-- What a delivery comes to: the number for the engine, the slots afterwards, and what happened. -/
structure Delivery (α : Type) where
  outcome : Outcome α
  slots : Slots
  events : List Event := []

/-- The report on a slot without a callback. -/
def emptySlotRecord (kind : CallbackKind) : LogRecord :=
  ⟨.trace, "callback context has no callback installed", [("kind", .text kind.name)]⟩

/-- What a chunk comes to in its slot. -/
def Slot.deliverChunk (slot : Slot WriteCallback) (kind : CallbackKind) (chunk : Bytes) :
    Outcome Nat × Slot WriteCallback × List Event :=
  match slot.callback with
  | none => (.done writeMiss, slot, [.log (emptySlotRecord kind)])
  | some f =>
    let (reply, f) := f.run chunk slot.data
    (reply.outcome.map fun accepted ↦ if accepted then chunk.length else pauseCount,
      ⟨some f, reply.data⟩, reply.notes.map .note)

namespace Slots

def deliverWrite (s : Slots) (chunk : Bytes) : Delivery Nat :=
  let (n, slot, events) := s.write.deliverChunk .write chunk
  ⟨n, { s with write := slot }, events⟩

def deliverHeader (s : Slots) (chunk : Bytes) : Delivery Nat :=
  let (n, slot, events) := s.header.deliverChunk .header chunk
  ⟨n, { s with header := slot }, events⟩

/-- A count is valid if it is neither negative nor above the room that there was. -/
def validCount (count : Int64) (capacity : Nat) : Bool :=
  0 ≤ count.toInt && count.toInt ≤ capacity

/-- What a request for octets comes to: the number for the engine, and the buffer afterwards. A
buffer without room is never shown to the callback. -/
def deliverRead (s : Slots) (buffer : Bytes) : Delivery (Nat × Bytes) :=
  match s.read.callback with
  | none => ⟨.done (abortCount, buffer), s, [.log (emptySlotRecord .read)]⟩
  | some f =>
    if buffer = [] then ⟨.done (0, buffer), s, []⟩
    else
      let (reply, f) := f.run buffer s.read.data
      let slots := { s with read := ⟨some f, reply.data⟩ }
      let notes := reply.notes.map Event.note
      match reply.outcome with
      | .panicked m => ⟨.panicked m, slots, notes⟩
      | .done answer =>
        let filled := answer.written.overlay buffer
        if validCount answer.count buffer.length then
          ⟨.done (answer.count.toInt.toNat, filled), slots, notes⟩
        else
          ⟨.done (abortCount, filled), slots,
            notes ++ [.log ⟨.trace, "read callback returned an invalid count",
              [("count", .number answer.count.toInt), ("capacity", .number buffer.length)]⟩]⟩

def deliverProgress (s : Slots) (p : Progress) : Delivery Nat :=
  match s.progress.callback with
  | none => ⟨.done progressContinue, s, []⟩
  | some f =>
    let (reply, f) := f.run p s.progress.data
    ⟨reply.outcome.map fun goOn ↦ if goOn then progressContinue else progressAbort,
      { s with progress := ⟨some f, reply.data⟩ }, reply.notes.map .note⟩

end Slots

end NativeTransfer
