import NativeTransfer.State.Transfer

/-!
# Exported functions

The engine is a library of plain functions. Whoever has the address of one decides alone what is
passed to it and what its answer is taken for; the library that is called cannot check either. So a
call is described here as its caller types it (`Passed`), apart from the function that it meets, and
whether the function takes such a call is a question to the function (`EntryPoint.function?`).

A call of a function that does not take it is undefined. Nothing can be said about what it does, so
that it happened is noted, for which there is a count in the state; there are to be none.
-/

namespace NativeTransfer

/-- What is passed to `curl_easy_setopt` behind the option, by the type that the caller gives it. -/
inductive Variadic
  | long (n : Int64)
  | offset (n : Int64)
  | pointer (a : Address)
  | function (a : Address)

namespace Variadic

/-- The way of calling that passes such an argument. -/
def method : Variadic → Method
  | long _ => .setLong
  | offset _ => .setOffset
  | pointer _ => .setPointer
  | function _ => .setFunction

def argument : Variadic → Argument
  | long n => .integer n
  | offset n => .integer n
  | pointer a => .pointer a
  | function a => .function a

end Variadic

/-- A call as its caller types it: what is passed, and in the index what is taken for the answer.
There is one form for each type of function. What an address passed for a result is filled with
stands beside the answer. -/
inductive Passed : Type → Type
  | version : Passed (Option Bytes)
  | globalInit (flags : Int64) : Passed Int32
  | globalCleanup : Passed Unit
  | free (a : Address) : Passed Unit
  | init : Passed (Option Nat)
  | duphandle (h : Nat) : Passed (Option Nat)
  /-- A handle alone, with no answer. -/
  | handle (h : Nat) : Passed Unit
  | setopt (h : Nat) (o : OptionCode) (x : Variadic) : Passed Int32
  | getinfo (h : Nat) (i : InfoCode) (out : Readout) : Passed (Int32 × Option InfoReply)
  | getList (h : Nat) (i : InfoCode) : Passed (Int32 × Option Nat)
  | perform (h : Nat) : Passed Int32
  | pause (h : Nat) (mask : Int32) : Passed Int32
  | send (h : Nat) (b : Bytes) : Passed (Int32 × UInt64)
  | recv (h : Nat) (capacity : Nat) : Passed (Int32 × Bytes × UInt64)
  | escape (h : Nat) (input : Bytes) : Passed (Option (Address × Bytes))
  | unescape (h : Nat) (input : Bytes) : Passed (Option (Address × Bytes × Int32))
  | strerror (code : Int32) : Passed (Option Bytes)
  | impersonate (h : Nat) (target : String) (defaultHeaders : Bool) : Passed Int32
  | append (list : Option Nat) (item : String) : Passed (Option Nat)
  | freeList (n : Nat) : Passed Unit

/-- An answer of zeros. -/
def Passed.zero {α : Type} : Passed α → α
  | version | init | duphandle _ | escape _ _ | unescape _ _ | strerror _ | append _ _ => none
  | globalInit _ | setopt _ _ _ | perform _ | pause _ _ | impersonate _ _ _ => 0
  | globalCleanup | free _ | handle _ | freeList _ => ()
  | getinfo _ _ _ | getList _ _ => (0, none)
  | send _ _ => (0, 0)
  | recv _ _ => (0, [], 0)

/-- The engine answers a call, and the call is seen with its answer. -/
def answering {α : Type} (r : Route) (answer : Policy → Engine → Answered α) : Act α :=
  modifyGet fun w ↦
    let a := answer w.policy w.engine
    (a.result, { w with engine := a.engine, trace := w.trace ++ [.native r a.call] })

/-- How calls reach the functions of a library: one with a version text of its own has an engine of
its own. -/
def exportedBy (banner : Option String) : Route := if banner.isSome then .apart else .exported

/-- What a function of a library does with a call, if it takes such a call. -/
def EntryPoint.function? {α : Type} (banner : Option String) (f : EntryPoint) (x : Passed α) :
    Option (Act α) :=
  let r := exportedBy banner
  match f, x with
  | .version, .version => some do
    let shared ← answering r Engine.answerVersion
    return (banner.map Text.utf8).or shared
  | .globalInit, .globalInit flags => some (answering r fun p e ↦ e.answerGlobalInit p flags)
  | .globalCleanup, .globalCleanup => some (answering r fun _ e ↦ e.answerGlobalCleanup)
  | .free, .free a => some (answering r fun _ e ↦ e.answerFree a)
  | .init, .init => some (answering r Engine.answerInit)
  | .duphandle, .duphandle h => some (answering r fun p e ↦ e.answerDuphandle p h)
  | .cleanup, .handle h => some (answering r fun _ e ↦ e.answerCleanup h)
  | .reset, .handle h => some (answering r fun _ e ↦ e.answerReset h)
  | .setopt, .setopt h o y =>
    some (answering r fun p e ↦ e.answerSetopt p y.method h o y.argument)
  | .getinfo, .getinfo h i out => some (answering r fun p e ↦ e.answerInfo p out.method h i)
  | .getinfo, .getList h i => some (answering r fun p e ↦ e.answerListInfo p h i)
  | .perform, .perform h => some do
    answering r fun _ e ↦ e.answerPerform h
    Transfer.run h
  | .pause, .pause h mask => some (answering r fun p e ↦ e.answerPause p h mask)
  | .send, .send h b => some (answering r fun p e ↦ e.answerSend p h b)
  | .recv, .recv h capacity => some (answering r fun p e ↦ e.answerRecv p h capacity)
  | .escape, .escape h input => some (answering r fun p e ↦ e.answerEscape p h input)
  | .unescape, .unescape h input => some (answering r fun p e ↦ e.answerUnescape p h input)
  | .strerror, .strerror code => some (answering r fun p e ↦ e.answerStrerror p code)
  | .impersonate, .impersonate h target defaultHeaders =>
    some (answering r fun p e ↦ e.answerImpersonate p h target defaultHeaders)
  | .listAppend, .append list item => some (answering r fun p e ↦ e.answerAppend p list item)
  | .listFree, .freeList n => some (answering r fun _ e ↦ e.answerListFree n)
  | _, _ => none

/-- A call of whatever stands somewhere, be it a function that takes the call or not. -/
def callThere {α : Type} (banner : Option String) (there : Option EntryPoint) (x : Passed α) :
    Act α :=
  match there.bind (·.function? banner x) with
  | some act => act
  | none => do
    modify fun w ↦ { w with strays := w.strays + 1 }
    return x.zero

end NativeTransfer
