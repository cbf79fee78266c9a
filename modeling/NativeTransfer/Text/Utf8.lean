import NativeTransfer.Bytes

/-!
# UTF-8, one octet at a time

Reading is a walk with at most one character begun. An octet that cannot continue the begun
character closes it as one fault and is then looked at afresh, so every fault stands for a maximal
beginning of some character, or for a single octet that begins none. Strict and forgiving readers
differ only in what they make of a fault.
-/

namespace NativeTransfer.Text

/-- The octets of a text. -/
def utf8 (s : String) : Bytes := s.toList.flatMap String.utf8EncodeChar

/-- A character begun: `more` octets follow the next one, which lies between `low` and `high`. -/
structure Begun where
  /-- The octets still to come after the next. -/
  more : Nat
  /-- The least octet that may come next. -/
  low : UInt8
  /-- The greatest octet that may come next. -/
  high : UInt8
  /-- The bits read so far. -/
  value : Nat

/-- What an octet is at the start of a character. -/
inductive Lead
  | whole (c : Char)
  | begun (b : Begun)
  | fault

/-- The second octet of a character is held to a narrower range after `E0`, `ED`, `F0` and `F4`:
that shuts out overlong forms, surrogates and what lies beyond the last plane. -/
def lead (b : UInt8) : Lead :=
  let n := b.toNat
  if n < 0x80 then .whole (Char.ofNat n)
  else if n < 0xC2 then .fault
  else if n < 0xE0 then .begun ⟨0, 0x80, 0xBF, n - 0xC0⟩
  else if n = 0xE0 then .begun ⟨1, 0xA0, 0xBF, 0⟩
  else if n = 0xED then .begun ⟨1, 0x80, 0x9F, 0xD⟩
  else if n < 0xF0 then .begun ⟨1, 0x80, 0xBF, n - 0xE0⟩
  else if n = 0xF0 then .begun ⟨2, 0x90, 0xBF, 0⟩
  else if n < 0xF4 then .begun ⟨2, 0x80, 0xBF, n - 0xF0⟩
  else if n = 0xF4 then .begun ⟨2, 0x80, 0x8F, 4⟩
  else .fault

/-- The value of `b` with the six bits of `x` appended. -/
def Begun.push (b : Begun) (x : UInt8) : Nat := b.value * 64 + (x.toNat - 0x80)

/-- An octet with no character begun before it: what it settles, a fault as `none`, and the
character that it begins. -/
def startWith (x : UInt8) : List (Option Char) × Option Begun :=
  match lead x with
  | .whole c => ([some c], none)
  | .begun b => ([], some b)
  | .fault => ([none], none)

/-- An octet after a character begun, which it continues or closes as a fault. -/
def Begun.continueWith (b : Begun) (x : UInt8) : List (Option Char) × Option Begun :=
  if b.low ≤ x ∧ x ≤ b.high then
    match b.more with
    | 0 => ([some (Char.ofNat (b.push x))], none)
    | more + 1 => ([], some ⟨more, 0x80, 0xBF, b.push x⟩)
  else
    let afresh := startWith x
    (none :: afresh.1, afresh.2)

/-- The characters of a byte string, `none` for each fault, where a character may have been
begun. -/
def scan : Option Begun → Bytes → List (Option Char)
  | none, [] => []
  | some _, [] => [none]
  | begun, x :: rest =>
    let settled := (begun.map (·.continueWith x)).getD (startWith x)
    settled.1 ++ scan settled.2 rest

/-- The text of a byte string, U+FFFD for each fault. -/
def forgiving (b : Bytes) : String :=
  String.ofList ((scan none b).map fun c ↦ c.getD '\uFFFD')

/-- The text of a byte string that has no fault. -/
def strict? (b : Bytes) : Option String :=
  ((scan none b).mapM id).map String.ofList

/-- The text of a NUL-terminated string. -/
def ofCString (b : Bytes) : String := forgiving b.untilNul

end NativeTransfer.Text
