import NativeTransfer.Code.Info
import NativeTransfer.Code.Result
import NativeTransfer.Engine.Basic
import NativeTransfer.Callback.Note

/-!
# Policies

Everything that the engine is free to decide, as functions of the state that it is in. Calls are
counted in that state, so that a policy can treat no two of them alike; what a policy cannot decide
is what the engine remembers of a call once the answer is given.

A policy is fixed for a run, and a run is proved about for every policy. So a property of all runs
is a property of any pattern of refusals, of any handle being given again, and of any transfer that
an engine may come up with. The defaults are those of an engine that accepts every option and has no
infos, which keeps runs on fixed inputs short. No law assumes them.
-/

namespace NativeTransfer

/-- What the engine calls back during a transfer. -/
inductive TransferStep
  | write (chunk : Bytes)
  | header (chunk : Bytes)
  | read (capacity : Nat)
  | progress (counters : Progress)
  deriving DecidableEq

def TransferStep.kind : TransferStep → CallbackKind
  | .write _ => .write
  | .header _ => .header
  | .read _ => .read
  | .progress _ => .progress

/-- What the engine puts out for an info. -/
inductive InfoReply
  /-- Octets up to a NUL, or a null pointer. -/
  | string (s : Option Bytes)
  | long (n : Int64)
  /-- A floating-point number by its bits. -/
  | double (bits : UInt64)
  | offset (n : Int64)
  /-- The nodes of a list made for the caller. -/
  | list (nodes : List (Option Bytes))
  deriving DecidableEq

/-- The decisions of an engine. -/
structure Policy where
  /-- Whether an engine in the same process is out of reach for a method. -/
  unreachable : Engine → Method → Bool := fun _ _ ↦ false
  /-- The next handle, or none. -/
  newHandle : Engine → Option Nat := fun e ↦ some e.created
  /-- The answer to an option of a handle. -/
  verdict : Engine → Nat → OptionCode → Argument → Int32 := fun _ _ _ _ ↦ 0
  /-- Whether an item is refused. -/
  refusesItem : Engine → Bool := fun _ ↦ false
  /-- The result of a method that reports a code alone. -/
  code : Engine → Method → Int32 := fun _ _ ↦ 0
  /-- What a transfer of a handle does. -/
  transfer : Engine → Nat → List TransferStep := fun _ _ ↦ []
  /-- The answer to an info of a handle, and what is put out. -/
  info : Engine → Nat → InfoCode → Int32 × Option InfoReply := fun _ _ _ ↦ (48, none)
  /-- The encoded form of octets, or a null pointer. -/
  escape : Engine → Bytes → Option Bytes := fun _ b ↦ some b
  /-- The decoded form with the length that is reported, or a null pointer. -/
  unescape : Engine → Bytes → Option (Bytes × Int32) :=
    fun _ b ↦ some (b, Int32.ofNat b.length)
  /-- The answer to sending octets, with the number sent. -/
  send : Engine → Bytes → Int32 × UInt64 := fun _ b ↦ (0, UInt64.ofNat b.length)
  /-- The answer to receiving, with the octets and the number received. -/
  recv : Engine → Nat → Int32 × Bytes × UInt64 := fun _ _ ↦ (0, [], 0)
  /-- The text of a code, or a null pointer. -/
  strerror : Int32 → Option Bytes := fun _ ↦ none
  /-- The version text, or a null pointer. -/
  version : Option Bytes := none

end NativeTransfer
