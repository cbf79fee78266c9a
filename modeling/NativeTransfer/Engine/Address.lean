import NativeTransfer.Bytes
import NativeTransfer.Code.Callback
import NativeTransfer.Text.Quoted

/-!
# What crosses into the engine

An address says what it leads to. Two allocations never share an address, so nothing is lost by
taking the identity of the allocation, together with its content, for the address itself; whether
the memory behind it is still there is a question to the one who owns it.
-/

namespace NativeTransfer

/-- An address as the engine sees it. -/
inductive Address
  /-- A bare number, of which nothing is known. -/
  | number (n : UInt64)
  /-- A handle of the engine. -/
  | handle (n : Nat)
  /-- An owned copy of a text with a NUL behind it. -/
  | copy (serial : Nat) (text : String)
  /-- A buffer of the caller's. -/
  | buffer (serial : Nat) (bytes : Bytes)
  /-- A string list of the engine. -/
  | list (n : Nat)
  /-- A string that the engine handed out. -/
  | reply (n : Nat)
  /-- The function that the engine is to call back. -/
  | trampoline (kind : CallbackKind)
  deriving DecidableEq

namespace Address

def null : Address := .number 0

def isNull (a : Address) : Bool := a = null

/-- How an address is shown: handles by name, numbers in hexadecimal. -/
def text : Address → String
  | .number n => "0x" ++ String.ofList (Text.hexDigits n.toNat)
  | .handle n => "h" ++ toString n
  | .copy serial _ => "copy " ++ toString serial
  | .buffer serial _ => "buffer " ++ toString serial
  | .list n => "list " ++ toString n
  | .reply n => "reply " ++ toString n
  | .trampoline k => "trampoline " ++ k.name

@[simp] theorem isNull_null : null.isNull = true := by decide

@[simp] theorem isNull_list (n : Nat) : (list n).isNull = false := by simp [isNull, null]

/-- The address of a list, if there is one. -/
def ofList? : Option Nat → Address
  | none => null
  | some n => .list n

end Address

/-- The argument of an option. -/
inductive Argument
  | integer (n : Int64)
  | pointer (a : Address)
  | function (a : Address)
  deriving DecidableEq

end NativeTransfer
