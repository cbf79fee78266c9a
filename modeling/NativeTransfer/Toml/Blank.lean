import NativeTransfer.Toml.Value

/-!
# Blanks, comments and line ends

A line ends in a line feed, with or without a carriage return before it; a carriage return anywhere
else is a fault. Tabs are the only control characters that a comment or a string may hold as they
are.
-/

namespace NativeTransfer.Toml

def isBlank (c : Char) : Bool := c = ' ' || c = '\t'

/-- A character that may stand inside a line. -/
def isLineChar (c : Char) : Bool := c = '\t' || (0x20 ≤ c.toNat && c.toNat ≠ 0x7F)

def skipBlanks (cs : List Char) : List Char := cs.dropWhile isBlank

/-- The end of a line, and what follows it. -/
def lineEnd? : List Char → Option (List Char)
  | '\n' :: rest => some rest
  | '\r' :: '\n' :: rest => some rest
  | _ => none

/-- What follows a comment, where one stands here. -/
def skipComment : List Char → List Char
  | '#' :: rest => rest.dropWhile isLineChar
  | cs => cs

/-- What follows the rest of a line that holds nothing more than a comment. -/
def closeLine? (cs : List Char) : Option (List Char) :=
  let rest := skipComment (skipBlanks cs)
  if rest = [] then some [] else lineEnd? rest

/-- Skips blanks, comments and line ends. A comment that runs to the end of the text is skipped
too. -/
def skipLines : Nat → List Char → List Char
  | 0, cs => cs
  | fuel + 1, cs =>
    match skipBlanks cs with
    | '#' :: rest => skipLines fuel (rest.dropWhile isLineChar)
    | rest =>
      match lineEnd? rest with
      | some next => skipLines fuel next
      | none => rest

end NativeTransfer.Toml
