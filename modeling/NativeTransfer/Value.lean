import NativeTransfer.Callback.Slot
import NativeTransfer.Error

/-!
# Option values

What an option can be given. How a value is shown in reports is its kind, with the content behind it
where that is short and is no code of the caller's.
-/

namespace NativeTransfer

/-- A buffer of the caller's. Giving the same buffer twice gives the same address. -/
structure Buffer where
  serial : Nat
  bytes : Bytes
  deriving DecidableEq

/-- A value for an option. -/
inductive Value
  /-- Clears pointers and callbacks. -/
  | null
  | long (n : Int64)
  | bool (b : Bool)
  | text (s : String)
  | bytes (b : Buffer)
  | list (items : List String)
  | function (c : Callback)
  | sink (s : Sink)
  | source (s : Source)
  | data (d : Datum)
  /-- A bare address, which is passed on as it is. -/
  | pointer (n : UInt64)

namespace Value

def kind : Value → ValueKind
  | null => .null
  | long _ => .long
  | bool _ => .bool
  | text _ => .text
  | bytes _ => .bytes
  | list _ => .list
  | function (.write _) => .writeFunction
  | function (.read _) => .readFunction
  | function (.header _) => .headerFunction
  | function (.progress _) => .progressFunction
  | sink _ => .sink
  | source _ => .source
  | data _ => .data
  | pointer _ => .pointer

/-- How a value is shown. -/
def shown : Value → String
  | long n => "Long(" ++ toString n.toInt ++ ")"
  | bool b => "Bool(" ++ toString b ++ ")"
  | text s => "Text(" ++ Text.quoted s ++ ")"
  | bytes b => "Bytes(" ++ toString b.bytes.length ++ " bytes)"
  | list items => "List(" ++ Text.quotedList items ++ ")"
  | pointer n => "Pointer(0x" ++ String.ofList (Text.hexDigits n.toNat) ++ ")"
  | v => v.kind.name

end Value

/-- A decoded info. -/
inductive InfoValue
  /-- A text, or none for a null pointer. -/
  | text (s : Option String)
  | long (n : Int64)
  /-- A floating-point number by its bits. -/
  | double (bits : UInt64)
  | offset (n : Int64)
  | list (items : List String)
  deriving DecidableEq

namespace InfoValue

def asText : InfoValue → Option String
  | text s => s
  | _ => none

def asInteger : InfoValue → Option Int64
  | long n => some n
  | offset n => some n
  | _ => none

def asDouble : InfoValue → Option UInt64
  | double bits => some bits
  | _ => none

def asList : InfoValue → Option (List String)
  | list items => some items
  | _ => none

end InfoValue

end NativeTransfer
