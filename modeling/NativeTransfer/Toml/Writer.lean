import NativeTransfer.Bytes

/-!
# Writing a document

A string is written in the plainest form that can hold it: double quotes if nothing needs an escape,
single quotes if that avoids one, the long forms if a quote or a line end stands in the way, and
escapes only where no form does without.

Any text can be written, and what is written is read back as the same text. The two long forms
differ from the short ones in what ends them: a long form ends at three quotes in a row, so one or
two may stand inside. A text with a line end in a long form starts on a new line, because the reader
drops a line end right after the opening quotes.

The entries are the three shapes that a configuration needs, and no others.
-/

namespace NativeTransfer.Toml

/-! ## The form of a string -/

/-- A control character that no string may hold as it is. -/
def needsEscape (c : Char) : Bool :=
  c.toNat = 0x7F || (c.toNat < 0x20 && c ≠ '\t' && c ≠ '\n')

/-- The length of the longest run of a character: the longest so far, and the run at hand. -/
def longestRun (c : Char) : Nat → Nat → List Char → Nat
  | best, run, [] => max best run
  | best, run, d :: rest =>
    if d = c then longestRun c best (run + 1) rest else longestRun c (max best run) 0 rest

/-- The ways to write a string. -/
inductive Form
  | basic
  | literal
  | longBasic
  | longLiteral
  deriving DecidableEq

/-- The first form that holds a string without escapes, and failing that an escaped one. -/
def formOf (s : List Char) : Form :=
  let control := s.any needsEscape
  let escape := s.contains '\\'
  let newline := s.contains '\n'
  let double := longestRun '"' 0 0 s
  let single := longestRun '\'' 0 0 s
  if !control && !escape && !newline && double = 0 then .basic
  else if !control && !newline && single = 0 then .literal
  else if !control && !escape && double ≤ 2 then .longBasic
  else if !control && single ≤ 2 then .longLiteral
  else if newline then .longBasic
  else .basic

/-! ## Escapes -/

/-- The upper-case hexadecimal digit of a number below sixteen. -/
def upperDigit (n : Nat) : Char := if n < 10 then Char.ofNat (48 + n) else Char.ofNat (55 + n)

/-- A character that both escaped forms write in the same way, if this is one. -/
def escaped? (c : Char) : Option (List Char) :=
  if c = '\x08' then some ['\\', 'b']
  else if c = '\t' then some ['\\', 't']
  else if c = '\x0c' then some ['\\', 'f']
  else if c = '\r' then some ['\\', 'r']
  else if c = '\\' then some ['\\', '\\']
  else if needsEscape c then
    some ['\\', 'u', '0', '0', upperDigit (c.toNat / 16), upperDigit (c.toNat % 16)]
  else none

/-- A character between single double quotes. -/
def basicChar (c : Char) : List Char :=
  if c = '"' then ['\\', '"']
  else if c = '\n' then ['\\', 'n']
  else (escaped? c).getD [c]

/-- The characters of a long string, after `run` quotes in a row. The third of a run is escaped. -/
def longBasicChars : Nat → List Char → List Char
  | _, [] => []
  | run, c :: rest =>
    if c = '"' then
      if run = 2 then '\\' :: '"' :: longBasicChars 0 rest else '"' :: longBasicChars (run + 1) rest
    else (escaped? c).getD [c] ++ longBasicChars 0 rest

/-! ## Strings, arrays, tables -/

/-- A string between the quotes of a form. A long form that holds a line end starts on a new
line. -/
def stringText (s : List Char) : List Char :=
  let opening : List Char := if s.contains '\n' then ['\n'] else []
  match formOf s with
  | .basic => '"' :: s.flatMap basicChar ++ ['"']
  | .literal => '\'' :: s ++ ['\'']
  | .longBasic => ['"', '"', '"'] ++ opening ++ longBasicChars 0 s ++ ['"', '"', '"']
  | .longLiteral => ['\'', '\'', '\''] ++ opening ++ s ++ ['\'', '\'', '\'']

/-- What a key can be given. -/
inductive Entry
  | text (s : String)
  | integer (n : Int)
  | texts (items : List String)

/-- An array stays on its line while it has at most one item. -/
def Entry.chars : Entry → List Char
  | .text s => stringText s.toList
  | .integer n => (toString n).toList
  | .texts [] => ['[', ']']
  | .texts [s] => '[' :: stringText s.toList ++ [']']
  | .texts items =>
    ['[', '\n'] ++
      items.flatMap (fun s ↦ [' ', ' ', ' ', ' '] ++ stringText s.toList ++ [',', '\n'])
      ++ [']']

/-- A table with its header, one key a line. -/
def tableText (name : String) (entries : List (String × Entry)) : List Char :=
  '[' :: name.toList ++ [']', '\n'] ++
    entries.flatMap fun e ↦ e.1.toList ++ [' ', '=', ' '] ++ e.2.chars ++ ['\n']

/-- Tables in order, a blank line between them. -/
def documentText (tables : List (String × List (String × Entry))) : String :=
  String.ofList (['\n'].intercalate (tables.map fun t ↦ tableText t.1 t.2))

end NativeTransfer.Toml
