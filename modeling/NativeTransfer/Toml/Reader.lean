import NativeTransfer.Toml.Number
import NativeTransfer.Toml.Text
import NativeTransfer.Toml.Table

/-!
# Reading a document

A value is read with a bound on how deep it may nest, and the recursion is on that bound. A document
is a run of lines, each of which is blank, opens a table, or assigns a key in the table opened last.

The bound on nesting is a rule of the format's reader and not a device of the recursion: a document
that nests deeper is refused. The bounds on items, entries and lines are devices. Each of them
starts above the number of characters that are left and goes down by one where at least one
character is taken, so none is ever used up.

A refusal carries no reason. Whoever reads a configuration only tells apart whether there is a
document.
-/

namespace NativeTransfer.Toml

/-! ## Values -/

/-- What may stand where no array or braced table does. -/
def scalar (cs : List Char) : Option (Value × List Char) :=
  match cs with
  | [] => none
  | 't' :: 'r' :: 'u' :: 'e' :: rest => some (.boolean true, rest)
  | 'f' :: 'a' :: 'l' :: 's' :: 'e' :: rest => some (.boolean false, rest)
  | c :: _ =>
    if c = '"' || c = '\'' then (text cs).map fun p ↦ (.text (String.ofList p.1), p.2)
    else
      match dateTime cs with
      | some rest => some (.dateTime, rest)
      | none => number cs

/-- The items of an array after its opening bracket. A comma may follow the last of them. -/
def arrayItems (read : Reader Value) : Nat → Reader (List Value)
  | 0, _ => none
  | fuel + 1, cs =>
    match skipLines cs.length cs with
    | ']' :: rest => some ([], rest)
    | cs => do
      let (item, rest) ← read cs
      match skipLines rest.length rest with
      | ',' :: rest => do
        let (items, rest) ← arrayItems read fuel rest
        pure (item :: items, rest)
      | ']' :: rest => pure ([item], rest)
      | _ => none

/-- A key and its value. The key comes apart into its last part and the path before it. -/
def keyValue (read : Reader Value) (cs : List Char) :
    Option ((List String × String × Value) × List Char) := do
  let (parts, rest) ← key cs
  match rest with
  | '=' :: rest => do
    let (v, rest) ← read (skipBlanks rest)
    pure ((parts.dropLast, ← parts.getLast?, v), rest)
  | _ => none

/-- The entries of a braced table after its opening brace, at least one. -/
def bracedEntries (read : Reader Value) (fields : Fields) : Nat → Reader Fields
  | 0, _ => none
  | fuel + 1, cs => do
    let ((path, key, v), rest) ← keyValue read cs
    let fields ← fields.assign path key v .header
    match skipBlanks rest with
    | ',' :: rest => bracedEntries read fields fuel rest
    | '}' :: rest => pure (fields, rest)
    | _ => none

/-- A table in braces, after the opening one. -/
def bracedTable (read : Reader Value) (cs : List Char) : Option (Value × List Char) :=
  match skipBlanks cs with
  | '}' :: rest => some (.table [], rest)
  | _ => (bracedEntries read .none (cs.length + 1) cs).map fun p ↦ (.table p.1.finish, p.2)

/-- A value that nests at most `depth` arrays and braced tables. -/
def value : Nat → Reader Value
  | 0, cs => scalar cs
  | depth + 1, cs =>
    match cs with
    | '[' :: rest =>
      (arrayItems (value depth) (rest.length + 1) rest).map fun p ↦ (.array p.1, p.2)
    | '{' :: rest => bracedTable (value depth) rest
    | cs => scalar cs

/-! ## Documents -/

/-- A document as far as it was read: the table opened last, and all that there is. -/
structure Progress where
  current : List String
  root : Fields

/-- A line that opens a table, after its opening bracket. -/
def headerLine (p : Progress) (cs : List Char) : Option (Progress × List Char) :=
  match cs with
  | '[' :: rest => do
    let (parts, rest) ← key rest
    let rest ← match rest with
      | ']' :: ']' :: rest => some rest
      | _ => none
    let root ← p.root.openElement parts.dropLast (← parts.getLast?)
    pure (⟨parts, root⟩, ← closeLine? rest)
  | cs => do
    let (parts, rest) ← key cs
    let rest ← match rest with
      | ']' :: rest => some rest
      | _ => none
    let root ← p.root.openTable parts.dropLast (← parts.getLast?)
    pure (⟨parts, root⟩, ← closeLine? rest)

/-- A line that gives a key its value in the current table. -/
def keyLine (p : Progress) (cs : List Char) : Option (Progress × List Char) := do
  let ((path, key, v), rest) ← keyValue (value (depthLimit - 1)) cs
  let root ← p.root.update false (fun origin fields ↦ fields.assign path key v origin)
    p.current .header
  pure (⟨p.current, root⟩, ← closeLine? rest)

/-- The lines of a document. -/
def lines : Nat → Progress → List Char → Option Progress
  | 0, _, _ => none
  | fuel + 1, p, cs =>
    match skipBlanks cs with
    | [] => some p
    | '[' :: rest => do
      let (p, rest) ← headerLine p rest
      lines fuel p rest
    | c :: rest =>
      if c = '#' || c = '\n' || c = '\r' then do
        lines fuel p (← closeLine? (c :: rest))
      else do
        let (p, rest) ← keyLine p (c :: rest)
        lines fuel p rest

/-- The root table of a text, which may start with a byte order mark. -/
def read (s : String) : Option (List (String × Value)) :=
  let cs := match s.toList with
    | '\uFEFF' :: rest => rest
    | cs => cs
  (lines (cs.length + 1) ⟨[], .none⟩ cs).map (·.root.finish)

end NativeTransfer.Toml
