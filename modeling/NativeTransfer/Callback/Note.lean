import NativeTransfer.Code.Callback
import NativeTransfer.Script.Step

/-!
# What callers report

A callback, a sink or a source is the caller's own code and may leave notes about how it was called.
The notes take their place among all other events, which is how the order of calls becomes visible.
-/

namespace NativeTransfer

/-- The counters of a transfer. -/
structure Progress where
  downloadTotal : Int64
  downloaded : Int64
  uploadTotal : Int64
  uploaded : Int64
  deriving DecidableEq

/-- Caller data as far as a note tells. -/
inductive DataShape
  | empty
  | number (n : UInt64)
  | text (s : String)
  | writer
  | reader
  deriving DecidableEq

/-- A remark of the caller's own code. Every remark names the step of the script that was taken. -/
inductive Note
  /-- A write or header callback was called with a chunk. -/
  | chunk (kind : CallbackKind) (bytes : Bytes) (data : DataShape) (step : Option Script.WriteStep)
  /-- A read callback was called with room for so many octets. -/
  | room (capacity : Nat) (data : DataShape) (step : Option Script.ReadStep)
  | progress (counters : Progress) (data : DataShape) (step : Option Script.ProgressStep)
  /-- A sink was offered octets. -/
  | offered (bytes : Bytes) (step : Option Script.SinkStep)
  /-- A source was asked for at most so many octets. -/
  | asked (capacity : Nat) (step : Option Script.SourceStep)
  /-- A source was asked while it still had some. -/
  | askedAgain (capacity : Nat)
  deriving DecidableEq

end NativeTransfer
