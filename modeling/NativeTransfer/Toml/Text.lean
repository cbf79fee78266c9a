import NativeTransfer.Toml.Blank

/-!
# Strings and keys

There are two ways to write a string, with escapes between double quotes and without them between
single quotes, and each has a form that runs over several lines. In the long forms one or two quotes
may stand anywhere, and also directly before the three that close the string.
-/

namespace NativeTransfer.Toml

/-! ## Escapes -/

def hexDigit? (c : Char) : Option Nat :=
  if '0' ≤ c && c ≤ '9' then some (c.toNat - 48)
  else if 'a' ≤ c && c ≤ 'f' then some (c.toNat - 87)
  else if 'A' ≤ c && c ≤ 'F' then some (c.toNat - 55)
  else none

/-- The number that exactly `n` hexadecimal digits spell. -/
def hexNumber (n : Nat) : Reader Nat := fun cs ↦
  if cs.length < n then none
  else
    ((cs.take n).foldlM (fun acc c ↦ (hexDigit? c).map (acc * 16 + ·)) 0).map (·, cs.drop n)

/-- The character with a number, where the number is one of a character. -/
def charOf? (n : Nat) : Option Char := if n.isValidChar then some (Char.ofNat n) else none

/-- What follows the backslash of an escape. -/
def escape : Reader Char
  | 'b' :: rest => some ('\x08', rest)
  | 't' :: rest => some ('\t', rest)
  | 'n' :: rest => some ('\n', rest)
  | 'f' :: rest => some ('\x0c', rest)
  | 'r' :: rest => some ('\r', rest)
  | '"' :: rest => some ('"', rest)
  | '\\' :: rest => some ('\\', rest)
  | 'u' :: rest => do
    let (n, rest) ← hexNumber 4 rest
    pure (← charOf? n, rest)
  | 'U' :: rest => do
    let (n, rest) ← hexNumber 8 rest
    pure (← charOf? n, rest)
  | _ => none

/-! ## One line -/

/-- The rest of a string after its opening double quote. -/
def basicBody : Nat → Reader (List Char)
  | 0, _ => none
  | _ + 1, '"' :: rest => some ([], rest)
  | fuel + 1, '\\' :: rest => do
    let (c, rest) ← escape rest
    let (body, rest) ← basicBody fuel rest
    pure (c :: body, rest)
  | fuel + 1, c :: rest =>
    if isLineChar c then do
      let (body, rest) ← basicBody fuel rest
      pure (c :: body, rest)
    else none
  | _ + 1, [] => none

/-- The rest of a string after its opening single quote. -/
def literalBody : Reader (List Char)
  | [] => none
  | c :: rest =>
    if c = '\'' then some ([], rest)
    else if isLineChar c then do
      let (body, rest) ← literalBody rest
      pure (c :: body, rest)
    else none

/-! ## Several lines -/

/-- Drops the line end that may stand directly behind the opening quotes. -/
def dropLineEnd (cs : List Char) : List Char := (lineEnd? cs).getD cs

/-- At a run of quotes in a long string: how many belong to the string, and what follows if the
string ends here. -/
def longQuotes (quote : Char) (cs : List Char) : Nat × Option (List Char) :=
  let run := (cs.takeWhile (· = quote)).length
  if run < 3 then (run, none)
  else
    let inside := min (run - 3) 2
    (inside, some (cs.drop (inside + 3)))

/-- Skips blanks and line ends. -/
def skipBlankLines : List Char → List Char
  | [] => []
  | '\r' :: '\n' :: rest => skipBlankLines rest
  | c :: rest => if isBlank c || c = '\n' then skipBlankLines rest else c :: rest

/-- What follows a backslash at the end of a line: the line end goes, and with it all blanks and
line ends behind it. -/
def skipFold? (cs : List Char) : Option (List Char) :=
  (lineEnd? (skipBlanks cs)).map skipBlankLines

/-- The rest of a long string after its opening double quotes. -/
def longBasicBody : Nat → Reader (List Char)
  | 0, _ => none
  | fuel + 1, cs =>
    match cs with
    | '"' :: _ =>
      match longQuotes '"' cs with
      | (inside, some rest) => some (List.replicate inside '"', rest)
      | (run, none) => do
        let (body, rest) ← longBasicBody fuel (cs.drop run)
        pure (List.replicate run '"' ++ body, rest)
    | '\\' :: rest =>
      match skipFold? rest with
      | some rest => longBasicBody fuel rest
      | none => do
        let (c, rest) ← escape rest
        let (body, rest) ← longBasicBody fuel rest
        pure (c :: body, rest)
    | c :: rest =>
      if isLineChar c then do
        let (body, rest) ← longBasicBody fuel rest
        pure (c :: body, rest)
      else do
        let (body, rest) ← longBasicBody fuel (← lineEnd? cs)
        pure ('\n' :: body, rest)
    | [] => none

/-- The rest of a long string after its opening single quotes. -/
def longLiteralBody : Nat → Reader (List Char)
  | 0, _ => none
  | fuel + 1, cs =>
    match cs with
    | '\'' :: _ =>
      match longQuotes '\'' cs with
      | (inside, some rest) => some (List.replicate inside '\'', rest)
      | (run, none) => do
        let (body, rest) ← longLiteralBody fuel (cs.drop run)
        pure (List.replicate run '\'' ++ body, rest)
    | c :: rest =>
      if isLineChar c then do
        let (body, rest) ← longLiteralBody fuel rest
        pure (c :: body, rest)
      else do
        let (body, rest) ← longLiteralBody fuel (← lineEnd? cs)
        pure ('\n' :: body, rest)
    | [] => none

/-! ## Strings and keys -/

/-- A string that stands on one line. -/
def shortText : Reader (List Char)
  | '"' :: rest => basicBody (rest.length + 1) rest
  | '\'' :: rest => literalBody rest
  | _ => none

/-- A string in any form. -/
def text : Reader (List Char)
  | '"' :: '"' :: '"' :: rest => longBasicBody (rest.length + 1) (dropLineEnd rest)
  | '\'' :: '\'' :: '\'' :: rest => longLiteralBody (rest.length + 1) (dropLineEnd rest)
  | cs => shortText cs

/-- A character of a key without quotes. -/
def isBareChar (c : Char) : Bool := c.isAlphanum || c = '-' || c = '_'

/-- One part of a key. -/
def keyPart (cs : List Char) : Option (String × List Char) :=
  match cs with
  | [] => none
  | c :: _ =>
    if c = '"' || c = '\'' then (shortText cs).map fun p ↦ (String.ofList p.1, p.2)
    else
      let bare := cs.takeWhile isBareChar
      if bare = [] then none else some (String.ofList bare, cs.dropWhile isBareChar)

/-- The parts of a key, between dots and with blanks around each. -/
def keyParts : Nat → Reader (List String)
  | 0, _ => none
  | fuel + 1, cs => do
    let (part, rest) ← keyPart (skipBlanks cs)
    match skipBlanks rest with
    | '.' :: rest => do
      let (parts, rest) ← keyParts fuel rest
      pure (part :: parts, rest)
    | rest => pure ([part], rest)

/-- The deepest nesting that is read. -/
def depthLimit : Nat := 80

/-- A key, by its parts. A key too deep is a fault. -/
def key (cs : List Char) : Option (List String × List Char) := do
  let (parts, rest) ← keyParts (cs.length + 1) cs
  if parts.length < depthLimit then pure (parts, rest) else none

end NativeTransfer.Toml
