import NativeTransfer.Bytes

/-!
# Steps of scripted callers

Callbacks, sinks and sources that follow a script take one step a call. A step is plain data, so
that a caller can report which step it took. An absent step stands for what a script does when it
says nothing.
-/

namespace NativeTransfer.Script

/-- How a caller's code gives up without an answer. -/
inductive Panic
  /-- With a fixed text. -/
  | text
  /-- With a text put together on the spot. -/
  | composed
  /-- With something that is no text. -/
  | other
  deriving DecidableEq

/-- The words for the ways of giving up. -/
def Panic.words : List (String × Panic) :=
  [("panic_str", .text), ("panic_string", .composed), ("panic_other", .other)]

/-- The words for the ways of giving up, as steps. -/
def Panic.stepWords {σ : Type} (step : Panic → σ) : List (String × σ) :=
  words.map fun w ↦ (w.1, step w.2)

/-- The text that comes with giving up, if it is one. -/
def Panic.message : Panic → Option String
  | .text => some "callback exploded"
  | .composed => some "callback exploded 12"
  | .other => none

/-- What a write or header callback does with a chunk. -/
inductive WriteStep
  | accept
  | reject
  /-- Adds the length of the chunk to a number kept as caller data. -/
  | count
  /-- Appends the chunk's digits to a text kept as caller data. -/
  | append
  /-- Writes the chunk into a sink kept as caller data. -/
  | write
  | panic (p : Panic)
  deriving DecidableEq

def WriteStep.words : List (String × WriteStep) :=
  [("accept", accept), ("reject", reject), ("count", count), ("append", append), ("write", write)]
    ++ Panic.stepWords panic

/-- What a read callback does with a buffer. -/
inductive ReadStep
  /-- Puts octets into the buffer, and reports how many, or a number of its own. -/
  | fill (bytes : Bytes) (report : Option Int64)
  /-- Reports a number and leaves the buffer alone. -/
  | report (n : Int64)
  /-- Counts its calls in a number kept as caller data, and reads the low octet of that. -/
  | count
  /-- Reads from a source kept as caller data. -/
  | read
  | panic (p : Panic)
  deriving DecidableEq

/-- The words for the steps that need no more than a word. -/
def ReadStep.words : List (String × ReadStep) :=
  [("count", count), ("read", read)] ++ Panic.stepWords panic

/-- What a progress callback does with the counters. -/
inductive ProgressStep
  | proceed
  | abort
  /-- Proceeds as long as less than this much has come down. -/
  | below (n : Int64)
  /-- Counts its calls in a number kept as caller data. -/
  | count
  | panic (p : Panic)
  deriving DecidableEq

def ProgressStep.words : List (String × ProgressStep) :=
  [("continue", proceed), ("abort", abort), ("count", count)] ++ Panic.stepWords panic

/-- What a sink does with octets that it is offered. -/
inductive SinkStep
  /-- Takes at most so many. -/
  | take (n : Nat)
  | interrupted
  | error
  | panic (p : Panic)
  deriving DecidableEq

def SinkStep.words : List (String × SinkStep) :=
  [("interrupted", interrupted), ("error", error)] ++ Panic.stepWords panic

/-- What a source does when it has nothing left over. -/
inductive SourceStep
  /-- Has these octets from now on. -/
  | data (bytes : Bytes)
  /-- Claims to have read so many and has not. A negative number stands for its 64 bits. -/
  | lie (n : Int)
  | interrupted
  | error
  | panic (p : Panic)
  deriving DecidableEq

def SourceStep.words : List (String × SourceStep) :=
  [("interrupted", interrupted), ("error", error)] ++ Panic.stepWords panic

end NativeTransfer.Script
