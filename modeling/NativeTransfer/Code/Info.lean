import NativeTransfer.Text.Quoted

/-!
# Info codes

Four bits of an info code say what kind of result it asks for. Lists share their class with bare
pointers, and a pointer cannot be decoded, so the codes that ask for one are set apart by number.
-/

namespace NativeTransfer

/-- The kind of result that an info code asks for. -/
inductive InfoClass
  | string
  | long
  | double
  | list
  | socket
  | offset
  | unknown (bits : UInt32)
  deriving DecidableEq

/-- The number of an info. -/
structure InfoCode where
  value : UInt32
  deriving DecidableEq

namespace InfoCode

/-- The URL that a transfer ended at. -/
def effectiveUrl : InfoCode := ⟨0x100001⟩

/-- The known cookies. -/
def cookieList : InfoCode := ⟨0x40001c⟩

/-- The four bits of the class. -/
def classBits (i : InfoCode) : UInt32 := i.value &&& 0xf00000

def infoClass (i : InfoCode) : InfoClass :=
  if i.classBits = 0x100000 then .string
  else if i.classBits = 0x200000 then .long
  else if i.classBits = 0x300000 then .double
  else if i.classBits = 0x400000 then .list
  else if i.classBits = 0x500000 then .socket
  else if i.classBits = 0x600000 then .offset
  else .unknown i.classBits

/-- The codes of the list class that ask for a pointer. -/
def pointers : List UInt32 := [0x400022, 0x40002b, 0x40002d]

def isPointer (i : InfoCode) : Bool := pointers.contains i.value

/-- The number as the engine is given it. -/
def toSigned (i : InfoCode) : Int32 := i.value.toInt32

/-- The number in at least six hexadecimal digits. -/
def text (i : InfoCode) : String :=
  let digits := Text.hexDigits i.value.toNat
  "info 0x" ++ String.ofList (List.replicate (6 - digits.length) '0' ++ digits)

end InfoCode

end NativeTransfer
