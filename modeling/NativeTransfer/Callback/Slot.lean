import NativeTransfer.Callback.Stream

/-!
# Callback slots

A slot holds a callback and the caller's data for it, and either may be there without the other. A
callback sees the data of its slot and leaves it changed, so both come back from every call.

A callback is a behaviour, that is, a reply for now and a behaviour for later, so it may treat every
call differently. The two callbacks that the library brings itself, forwarding to a sink and pulling
from a source, are constructors of their own next to those of the caller: what they do is the
library's to say, while nothing is assumed of the others. Both look for their stream in the slot
each time, and have an answer for when the caller has put something else in its place.

The slots are a record with one field for each kind, since the kinds have callbacks of different
types. What holds of all four is stated with the kind as an argument.
-/

namespace NativeTransfer

/-! ## Caller data -/

/-- Any value that a caller may leave for a callback. -/
inductive Datum
  | number (n : UInt64)
  | text (s : String)

/-- What a slot holds for its callback. -/
inductive UserData
  | empty
  | value (d : Datum)
  | writer (s : Sink)
  | reader (s : Source)

def UserData.shape : UserData → DataShape
  | .empty => .empty
  | .value (.number n) => .number n
  | .value (.text s) => .text s
  | .writer _ => .writer
  | .reader _ => .reader

def UserData.isEmpty : UserData → Bool
  | .empty => true
  | _ => false

/-! ## Callbacks -/

/-- What comes back from a callback. -/
structure Reply (α : Type) where
  outcome : Outcome α
  data : UserData
  notes : List Note := []

/-- What a read callback answers: octets for the front of the buffer, and a count. A negative count
asks for the end of the transfer. -/
structure ReadAnswer where
  written : Bytes
  count : Int64

/-- A callback for chunks, which accepts a chunk or has the transfer paused. -/
inductive WriteCallback
  /-- Writes every chunk into the sink of its slot. -/
  | forward
  | custom (b : Behaviour (Bytes × UserData) (Reply Bool))

/-- A callback for uploads. It is shown the buffer. -/
inductive ReadCallback
  /-- Reads once from the source of its slot. -/
  | pull
  | custom (b : Behaviour (Bytes × UserData) (Reply ReadAnswer))

/-- A callback for the counters, which lets the transfer go on or not. -/
structure ProgressCallback where
  behaviour : Behaviour (Progress × UserData) (Reply Bool)

/-- Runs a behaviour once. -/
def Behaviour.run {α β : Type} (b : Behaviour α β) (a : α) : β × Behaviour α β :=
  (b.next a, b.after a)

/-- What forwarding a chunk comes to. Without a sink nothing can be accepted. -/
def forwardChunk (chunk : Bytes) : UserData → Reply Bool
  | .writer s =>
    let w := s.writeAll chunk
    ⟨w.outcome, .writer w.sink, w.notes⟩
  | data => ⟨.done false, data, []⟩

/-- What one read from a source comes to. A failure, and the lack of a source, ask for the end. -/
def pullOctets (capacity : Nat) : UserData → Reply ReadAnswer
  | .reader s =>
    let data := UserData.reader (s.after capacity)
    match s.next capacity with
    | .gave notes bytes count => ⟨.done ⟨bytes, count.toInt64⟩, data, notes⟩
    | .failed notes => ⟨.done ⟨[], -1⟩, data, notes⟩
    | .panicked notes m => ⟨.panicked m, data, notes⟩
  | data => ⟨.done ⟨[], -1⟩, data, []⟩

def WriteCallback.run (chunk : Bytes) (data : UserData) :
    WriteCallback → Reply Bool × WriteCallback
  | .forward => (forwardChunk chunk data, .forward)
  | .custom b => (b.next (chunk, data), .custom (b.after (chunk, data)))

def ReadCallback.run (buffer : Bytes) (data : UserData) :
    ReadCallback → Reply ReadAnswer × ReadCallback
  | .pull => (pullOctets buffer.length data, .pull)
  | .custom b => (b.next (buffer, data), .custom (b.after (buffer, data)))

def ProgressCallback.run (p : Progress) (data : UserData) (c : ProgressCallback) :
    Reply Bool × ProgressCallback :=
  (c.behaviour.next (p, data), ⟨c.behaviour.after (p, data)⟩)

/-- A callback of any kind. -/
inductive Callback
  | write (f : WriteCallback)
  | read (f : ReadCallback)
  | header (f : WriteCallback)
  | progress (f : ProgressCallback)

def Callback.kind : Callback → CallbackKind
  | .write _ => .write
  | .read _ => .read
  | .header _ => .header
  | .progress _ => .progress

/-- The callback that serves a stream by itself, for the kinds that have streams. -/
def Callback.forStream? : CallbackKind → Option Callback
  | .write => some (.write .forward)
  | .header => some (.header .forward)
  | .read => some (.read .pull)
  | .progress => none

/-! ## Slots -/

structure Slot (κ : Type) where
  callback : Option κ := none
  data : UserData := .empty

/-- The four slots of a wrapper. -/
structure Slots where
  write : Slot WriteCallback := {}
  read : Slot ReadCallback := {}
  header : Slot WriteCallback := {}
  progress : Slot ProgressCallback := {}

namespace Slots

/-- Whether a callback of a kind is there. -/
def isInstalled (s : Slots) : CallbackKind → Bool
  | .write => s.write.callback.isSome
  | .read => s.read.callback.isSome
  | .header => s.header.callback.isSome
  | .progress => s.progress.callback.isSome

/-- The kinds that have a callback. -/
def installed (s : Slots) : List CallbackKind := CallbackKind.all.filter s.isInstalled

def data (s : Slots) : CallbackKind → UserData
  | .write => s.write.data
  | .read => s.read.data
  | .header => s.header.data
  | .progress => s.progress.data

/-- Puts a callback into its slot and leaves the data there. -/
def install (s : Slots) : Callback → Slots
  | .write f => { s with write.callback := some f }
  | .read f => { s with read.callback := some f }
  | .header f => { s with header.callback := some f }
  | .progress f => { s with progress.callback := some f }

/-- Replaces the data of a kind and leaves its callback there. -/
def setData (s : Slots) (d : UserData) : CallbackKind → Slots
  | .write => { s with write.data := d }
  | .read => { s with read.data := d }
  | .header => { s with header.data := d }
  | .progress => { s with progress.data := d }

/-- Empties the slot of a kind. -/
def clear (s : Slots) : CallbackKind → Slots
  | .write => { s with write := {} }
  | .read => { s with read := {} }
  | .header => { s with header := {} }
  | .progress => { s with progress := {} }

@[simp] theorem isInstalled_install (s : Slots) (c : Callback) (k : CallbackKind) :
    (s.install c).isInstalled k = (decide (c.kind = k) || s.isInstalled k) := by
  cases c <;> cases k <;> rfl

@[simp] theorem data_install (s : Slots) (c : Callback) : (s.install c).data = s.data := by
  funext k; cases c <;> cases k <;> rfl

@[simp] theorem isInstalled_setData (s : Slots) (d : UserData) (k : CallbackKind) :
    (s.setData d k).isInstalled = s.isInstalled := by
  funext j; cases k <;> cases j <;> rfl

@[simp] theorem data_setData (s : Slots) (d : UserData) (j k : CallbackKind) :
    (s.setData d j).data k = if j = k then d else s.data k := by
  cases j <;> cases k <;> rfl

@[simp] theorem isInstalled_clear (s : Slots) (j k : CallbackKind) :
    (s.clear j).isInstalled k = (decide (j ≠ k) && s.isInstalled k) := by
  cases j <;> cases k <;> rfl

end Slots

end NativeTransfer
