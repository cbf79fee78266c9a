import NativeTransfer.Engine.Answer
import NativeTransfer.State.Trampoline

/-!
# Transfers

What the engine does when it is asked to perform: it refuses without a URL, and otherwise calls
back, step by step, what was set when the transfer began. An answer that stops the transfer stops it
at once.

The steps come from the policy, and no step changes the option table, so the one of the beginning
serves for all of them. The trampolines are called as the engine finds them in the table, with the
context that it finds there, so a table that was wired in part is used as it is.
-/

namespace NativeTransfer

namespace Engine

/-- Whether an option holds an address other than null. -/
def points (s : Settings) (o : OptionCode) : Bool :=
  match s.get? o with
  | some (.pointer a) => !a.isNull
  | some (.function a) => !a.isNull
  | _ => false

/-- The context that goes with a kind of callback. -/
def context (s : Settings) (k : CallbackKind) : Address :=
  match s.get? k.dataOption with
  | some (.pointer a) => a
  | _ => .null

/-- Whether progress is not to be reported. -/
def isQuiet (s : Settings) : Bool :=
  match s.get? .noProgress with
  | some (.integer n) => n ≠ 0
  | _ => false

/-- Whether there is a callback to call. -/
def calls? (s : Settings) (k : CallbackKind) : Bool :=
  points s k.functionOption && !(k = .progress && isQuiet s)

end Engine

namespace Transfer

/-- Gives a chunk to a trampoline: the code that the transfer ends with, if it ends. -/
def chunk (trampoline : Option Bytes → UInt64 → UInt64 → Act Nat) (b : Bytes) :
    Act (Option Int32) := do
  let n ← trampoline (some b) 1 (UInt64.ofNat b.length)
  emit (.returned n)
  return if n = pauseCount then some 0 else if n ≠ b.length then some 23 else none

/-- One step, with the option table of the beginning. -/
def step (s : Settings) (t : TransferStep) : Act (Option Int32) := do
  if ¬ Engine.calls? s t.kind then
    emit .skipped
    return none
  let context := Engine.context s t.kind
  match t with
  | .write b => chunk (onWrite context) b
  | .header b => chunk (onHeader context) b
  | .read capacity =>
    let (n, buffer) ← onRead context (some (List.replicate capacity 0)) 1 (UInt64.ofNat capacity)
    emit (.filled n (buffer.getD []))
    return if n = abortCount then some 42 else if n > capacity then some 26 else none
  | .progress counters =>
    let n ← onProgress context counters
    emit (.returned n)
    return if n ≠ 0 then some 42 else none

/-- All steps, until one ends the transfer. -/
def steps (s : Settings) : List TransferStep → Act (Option Int32)
  | [] => return none
  | t :: rest => do
    match ← step s t with
    | some code => return some code
    | none => steps s rest

end Transfer

/-- The transfer of a handle, from when the engine was asked for it. -/
def Transfer.run (h : Nat) : Act Int32 := do
  let w ← get
  let s := (w.engine.settings? h).getD []
  if ¬ Engine.points s .url then return 3
  let script := w.policy.transfer w.engine h
  let code := w.policy.code w.engine .perform
  return (← Transfer.steps s script).getD code

end NativeTransfer
