/-!
# Blank text

White space is the Unicode property of that name, which has no member beyond U+3000 and does not
contain the byte order mark.
-/

namespace NativeTransfer.Text

/-- The Unicode property White_Space. -/
def isWhiteSpace (c : Char) : Bool :=
  let n := c.toNat
  (9 ≤ n && n ≤ 13) || n = 0x20 || n = 0x85 || n = 0xA0 || n = 0x1680 || (0x2000 ≤ n && n ≤ 0x200A)
    || n = 0x2028 || n = 0x2029 || n = 0x202F || n = 0x205F || n = 0x3000

/-- Whether nothing of a text is left after trimming. -/
def isBlank (s : String) : Bool := s.toList.all isWhiteSpace

end NativeTransfer.Text
