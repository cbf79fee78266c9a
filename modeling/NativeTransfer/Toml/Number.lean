import NativeTransfer.Toml.Blank

/-!
# Numbers and dates

Digits may be grouped by single underscores that have a digit on either side. An integer has to fit
64 bits; a float that would round to positive infinity is refused, though infinity can be asked for
by name. A date or time is tried first, because it begins like a number.
-/

namespace NativeTransfer.Toml

/-! ## Digits -/

/-- The value of a digit in a base. -/
def digitValue? (base : Nat) (c : Char) : Option Nat :=
  let value :=
    if '0' ≤ c && c ≤ '9' then c.toNat - 48
    else if 'a' ≤ c && c ≤ 'f' then c.toNat - 87
    else if 'A' ≤ c && c ≤ 'F' then c.toNat - 55
    else base
  if value < base then some value else none

/-- The digits behind a first one, as many as there are. -/
def moreDigits (base : Nat) : Nat → List Char → Option (List Nat × List Char)
  | 0, cs => some ([], cs)
  | fuel + 1, cs =>
    match cs with
    | '_' :: c :: rest => do
      let d ← digitValue? base c
      let (ds, rest) ← moreDigits base fuel rest
      pure (d :: ds, rest)
    | ['_'] => none
    | c :: rest =>
      match digitValue? base c with
      | none => some ([], cs)
      | some d => do
        let (ds, rest) ← moreDigits base fuel rest
        pure (d :: ds, rest)
    | [] => some ([], [])

/-- At least one digit. -/
def digits (base : Nat) : Reader (List Nat)
  | [] => none
  | c :: rest => do
    let d ← digitValue? base c
    let (ds, rest) ← moreDigits base rest.length rest
    pure (d :: ds, rest)

/-- The number that digits spell. -/
def numeral (base : Nat) (ds : List Nat) : Nat := ds.foldl (fun n d ↦ n * base + d) 0

/-- A sign, if there is one: whether it is a minus. -/
def sign : List Char → Bool × List Char
  | '-' :: rest => (true, rest)
  | '+' :: rest => (false, rest)
  | cs => (false, cs)

/-- A decimal whole part: nothing follows a leading zero. -/
def wholePart : Reader (List Nat)
  | '0' :: rest => some ([0], rest)
  | cs => digits 10 cs

/-! ## Integers -/

/-- A number that fits 64 bits with a sign. -/
def fitting? (n : Int) : Option Int :=
  if Int64.minValue.toInt ≤ n && n ≤ Int64.maxValue.toInt then some n else none

def integer : Reader Int := fun cs ↦
  match cs with
  | '0' :: 'x' :: rest => do
    let (ds, rest) ← digits 16 rest
    pure (← fitting? (numeral 16 ds), rest)
  | '0' :: 'o' :: rest => do
    let (ds, rest) ← digits 8 rest
    pure (← fitting? (numeral 8 ds), rest)
  | '0' :: 'b' :: rest => do
    let (ds, rest) ← digits 2 rest
    pure (← fitting? (numeral 2 ds), rest)
  | cs => do
    let (negative, rest) := sign cs
    let (ds, rest) ← wholePart rest
    let n : Int := numeral 10 ds
    pure (← fitting? (if negative then -n else n), rest)

/-! ## Floats -/

/-- The midpoint between the greatest finite number of 64 bits and the next power of two. -/
def floatBound : Nat := Nat.pow 2 1024 - Nat.pow 2 970

/-- Whether `mantissa · 10 ^ exponent` rounds past the greatest finite number of 64 bits. -/
def overflows (mantissa : Nat) (exponent : Int) : Bool :=
  let size : Int := (Nat.toDigits 10 mantissa).length + exponent
  if mantissa = 0 || size < 300 then false
  else if 400 < size then true
  else if 0 ≤ exponent then floatBound ≤ mantissa * Nat.pow 10 exponent.toNat
  else floatBound * Nat.pow 10 (-exponent).toNat ≤ mantissa

/-- An exponent with its letter. -/
def exponent : Reader Int
  | c :: rest =>
    if c = 'e' || c = 'E' then do
      let (negative, rest) := sign rest
      let (ds, rest) ← digits 10 rest
      let n : Int := numeral 10 ds
      pure (if negative then -n else n, rest)
    else none
  | [] => none

/-- What makes a decimal a float, and is not there in an integer. -/
inductive FloatTail
  | absent
  | faulty
  | present (fraction : List Nat) (exponent : Int) (rest : List Char)

/-- Reads an exponent if there is one. -/
def withExponent (fraction : List Nat) (cs : List Char) : FloatTail :=
  match cs with
  | c :: _ =>
    if c = 'e' || c = 'E' then
      match exponent cs with
      | some (e, rest) => .present fraction e rest
      | none => .faulty
    else .present fraction 0 cs
  | [] => .present fraction 0 cs

def floatTail (cs : List Char) : FloatTail :=
  match cs with
  | '.' :: rest =>
    match digits 10 rest with
    | some (fraction, rest) => withExponent fraction rest
    | none => .faulty
  | c :: _ => if c = 'e' || c = 'E' then withExponent [] cs else .absent
  | [] => .absent

/-- Infinity or no number, by name. -/
def namedFloat : List Char → Option (List Char)
  | 'i' :: 'n' :: 'f' :: rest => some rest
  | 'n' :: 'a' :: 'n' :: rest => some rest
  | _ => none

/-- An integer or a float. -/
def number (cs : List Char) : Option (Value × List Char) :=
  let (negative, unsigned) := sign cs
  match namedFloat unsigned with
  | some rest => some (.float, rest)
  | none =>
    let plain := (integer cs).map fun p ↦ (Value.integer p.1, p.2)
    match wholePart unsigned with
    | none => plain
    | some (whole, rest) =>
      match floatTail rest with
      | .absent => plain
      | .faulty => none
      | .present fraction e rest =>
        if !negative && overflows (numeral 10 (whole ++ fraction)) (e - fraction.length) then none
        else some (.float, rest)

/-! ## Dates and times -/

/-- A number of exactly `n` digits between two bounds. -/
def fixedNumber (n low high : Nat) : Reader Nat := fun cs ↦
  let front := cs.take n
  if front.length = n && front.all Char.isDigit then
    let value := front.foldl (fun m c ↦ m * 10 + (c.toNat - 48)) 0
    if low ≤ value && value ≤ high then some (value, cs.drop n) else none
  else none

/-- What follows an expected character. -/
def expect (c : Char) (cs : List Char) : Option (List Char) :=
  match cs with
  | d :: rest => if d = c then some rest else none
  | [] => none

def isLeapYear (y : Nat) : Bool := y % 4 = 0 && (y % 100 ≠ 0 || y % 400 = 0)

def daysIn (year month : Nat) : Nat :=
  if month = 2 then (if isLeapYear year then 29 else 28)
  else if month = 4 || month = 6 || month = 9 || month = 11 then 30
  else 31

/-- What follows a date. -/
def date (cs : List Char) : Option (List Char) := do
  let (year, rest) ← fixedNumber 4 0 9999 cs
  let (month, rest) ← fixedNumber 2 1 12 (← expect '-' rest)
  let (_, rest) ← fixedNumber 2 1 (daysIn year month) (← expect '-' rest)
  pure rest

/-- What follows a time of day, which can end in a leap second and in a fraction. -/
def timeOfDay (cs : List Char) : Option (List Char) := do
  let (_, rest) ← fixedNumber 2 0 23 cs
  let (_, rest) ← fixedNumber 2 0 59 (← expect ':' rest)
  let (_, rest) ← fixedNumber 2 0 60 (← expect ':' rest)
  match rest with
  | '.' :: d :: more => if d.isDigit then pure (more.dropWhile Char.isDigit) else pure rest
  | _ => pure rest

/-- What follows an offset from universal time, if there is one here. -/
def offset (cs : List Char) : Option (List Char) :=
  match cs with
  | [] => some cs
  | c :: rest =>
    if c = 'Z' || c = 'z' then some rest
    else if c = '+' || c = '-' then do
      let (_, rest) ← fixedNumber 2 0 23 rest
      let (_, rest) ← fixedNumber 2 0 59 (← expect ':' rest)
      pure rest
    else some cs

/-- What follows a date, a time, or both. A blank or a letter behind a date that no time follows is
left for the line to refuse. -/
def dateTime (cs : List Char) : Option (List Char) :=
  match date cs with
  | none => timeOfDay cs
  | some rest =>
    match rest with
    | c :: more =>
      if c = 'T' || c = 't' || c = ' ' then
        match timeOfDay more with
        | some rest => offset rest
        | none => some rest
      else some rest
    | [] => some []

end NativeTransfer.Toml
