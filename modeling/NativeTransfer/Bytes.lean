/-!
# Byte strings

Everything that crosses into the engine is a list of octets. A list, and not a packed array, because
every law about what the engine reads is an induction over it.
-/

namespace NativeTransfer

/-- A string of octets. -/
abbrev Bytes := List UInt8

namespace Bytes

/-- What a reader finds that stops at the first NUL. -/
def untilNul (b : Bytes) : Bytes := b.takeWhile (· ≠ 0)

/-- The lower-case hexadecimal digit of a number below sixteen. -/
def hexDigit (n : Nat) : Char :=
  if n < 10 then Char.ofNat (48 + n) else Char.ofNat (87 + n)

/-- Two lower-case hexadecimal digits an octet. -/
def hex (b : Bytes) : String :=
  String.ofList (b.flatMap fun x ↦ [hexDigit (x.toNat / 16), hexDigit (x.toNat % 16)])

/-- The value of a hexadecimal digit. -/
def hexValue (c : Char) : Nat :=
  let n := c.toNat
  if n < 58 then n - 48 else if n < 71 then n - 55 else n - 87

/-- The octets that pairs of hexadecimal digits stand for. -/
def ofHexDigits : List Char → Bytes
  | a :: b :: rest => UInt8.ofNat (hexValue a * 16 + hexValue b) :: ofHexDigits rest
  | _ => []

def ofHex (s : String) : Bytes := ofHexDigits s.toList

/-- A word in eight octets, the highest first. -/
def ofWord (n : UInt64) : Bytes :=
  ([56, 48, 40, 32, 24, 16, 8, 0] : List UInt64).map fun shift ↦ (n >>> shift).toUInt8

/-- The word that octets stand for, the highest first. -/
def toWord (b : Bytes) : UInt64 := b.foldl (fun n x ↦ n <<< 8 ||| x.toUInt64) 0

/-- `b` cut or padded with zeros to `n` octets. -/
def fit (n : Nat) (b : Bytes) : Bytes := b.take n ++ List.replicate (n - b.length) 0

/-- The first octets of `buffer` replaced by `b`, as far as there is room. -/
def overlay (b buffer : Bytes) : Bytes := b.take buffer.length ++ buffer.drop b.length

@[simp] theorem length_overlay (b buffer : Bytes) : (b.overlay buffer).length = buffer.length := by
  rw [overlay, List.length_append, List.length_take, List.length_drop]; omega

end Bytes

end NativeTransfer
