/-!
# Result codes

The engine answers with a signed number, and the number is kept as its 32 bits: two answers are the
same code exactly when their bits are. Only the codes that this library itself reasons about have
names.
-/

namespace NativeTransfer

/-- What a native call reports. -/
structure ResultCode where
  /-- The 32 bits of the answer. -/
  bits : UInt32
  deriving DecidableEq

namespace ResultCode

/-- The code with the bits of a signed answer. -/
def ofSigned (n : Int32) : ResultCode := ⟨n.toUInt32⟩

/-- The signed answer that the engine gave. -/
def toSigned (c : ResultCode) : Int32 := c.bits.toInt32

/-- Success. -/
def ok : ResultCode := ⟨0⟩

/-- The engine could not get memory. -/
def outOfMemory : ResultCode := ⟨27⟩

def isOk (c : ResultCode) : Bool := c = ok

/-- The named codes. -/
def names : List (UInt32 × String) :=
  [(0, "CURLE_OK"), (1, "CURLE_UNSUPPORTED_PROTOCOL"), (2, "CURLE_FAILED_INIT"),
    (3, "CURLE_URL_MALFORMAT"), (6, "CURLE_COULDNT_RESOLVE_HOST"), (7, "CURLE_COULDNT_CONNECT"),
    (23, "CURLE_WRITE_ERROR"), (26, "CURLE_READ_ERROR"), (27, "CURLE_OUT_OF_MEMORY"),
    (28, "CURLE_OPERATION_TIMEDOUT"), (42, "CURLE_ABORTED_BY_CALLBACK"),
    (43, "CURLE_BAD_FUNCTION_ARGUMENT"), (48, "CURLE_UNKNOWN_OPTION"), (81, "CURLE_AGAIN")]

def name? (c : ResultCode) : Option String := names.lookup c.bits

/-- The name with the number behind it, or the number alone. -/
def text (c : ResultCode) : String :=
  match c.name? with
  | some name => name ++ " (" ++ toString c.bits ++ ")"
  | none => "CURLcode " ++ toString c.bits

@[simp] theorem isOk_iff (c : ResultCode) : c.isOk = true ↔ c = ok := by simp [isOk]

@[simp] theorem ofSigned_toSigned (c : ResultCode) : ofSigned c.toSigned = c := by
  simp [ofSigned, toSigned]

end ResultCode

end NativeTransfer
