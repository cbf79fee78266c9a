import NativeTransfer.Engine.Policy
import NativeTransfer.Log

/-!
# Events

All that happens is one sequence: what the engine was asked, what the callers' code noted and what
the library reported, in the order in which it happened. Laws about order are laws about this
sequence.

A call appears here with the answer that it got, also if the answer was a refusal, and a call that
got through to no engine appears as `unreached` or not at all, by the way that it took. The state
after a run says what stands, the sequence says how it came about: that a list was freed once, or
that one turn followed another, can be read off the sequence and not off the state.
-/

namespace NativeTransfer

/-- A call that reached the engine, with its answer. -/
inductive NativeCall
  | version
  | globalInit (flags : Int64) (code : Int32)
  | globalCleanup
  | strerror (code : Int32)
  | init (given : Option Nat)
  | duphandle (handle : Nat) (given : Option Nat)
  | cleanup (handle : Nat)
  | reset (handle : Nat)
  | perform (handle : Nat)
  | pause (handle : Nat) (mask : Int32) (code : Int32)
  | setopt (method : Method) (handle : Nat) (option : OptionCode) (argument : Argument)
      (code : Int32)
  | getinfo (method : Method) (handle : Nat) (info : InfoCode) (code : Int32)
  | send (handle : Nat) (bytes : Bytes) (code : Int32)
  | recv (handle : Nat) (capacity : Nat) (code : Int32)
  | escape (handle : Nat) (input : Bytes)
  | unescape (handle : Nat) (input : Bytes)
  | impersonate (handle : Nat) (target : String) (defaultHeaders : Bool) (code : Int32)
  | append (list : Option Nat) (item : String) (given : Option Nat)
  | freeList (list : Nat) (nodes : Nat)
  /-- Whether the engine had handed out what is freed. -/
  | free (known : Bool)
  deriving DecidableEq

/-- How a call is made: in the same process a method at a time, through the entry points of a
library, or through those of a library that has an engine of its own. -/
inductive Route
  | direct
  | exported
  | apart
  deriving DecidableEq

/-- Something that happened. -/
inductive Event
  | native (route : Route) (call : NativeCall)
  /-- A method was out of reach. -/
  | unreached (m : Method)
  | log (r : LogRecord)
  | note (n : Note)
  /-- The engine had no callback to call. -/
  | skipped
  /-- A callback gave a number back to the engine. -/
  | returned (n : Nat)
  /-- A read callback gave a number back, and left the buffer so. -/
  | filled (n : Nat) (buffer : Bytes)
  deriving DecidableEq

end NativeTransfer
