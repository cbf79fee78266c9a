import NativeTransfer.Toml.Value

/-!
# Tables under construction

A document builds its root table line by line, and what a line may still do to a table depends on
how the table came about. A header defines a table once; the tables on the way to it are only
implied, and each can still get a header of its own. A dotted key makes dotted tables, which only
dotted keys can fill. A value, and that includes a table written in braces, is closed.
-/

namespace NativeTransfer.Toml

/-- How a table came about. -/
inductive Origin
  | header
  | implied
  | dotted
  deriving DecidableEq

mutual

/-- What a key of an unfinished table stands for. -/
inductive Draft
  | value (v : Value)
  | table (origin : Origin) (fields : Fields)
  /-- An array of tables. Only the last can still be added to. -/
  | tables (earlier : List Value) (last : Fields)

/-- The keys of an unfinished table, in order. -/
inductive Fields
  | none
  | field (key : String) (draft : Draft) (rest : Fields)

end

namespace Fields

def find? (key : String) : Fields → Option Draft
  | none => Option.none
  | field k d rest => if k = key then some d else rest.find? key

/-- Replaces what a key stands for, or adds the key at the end. -/
def set (key : String) (d : Draft) : Fields → Fields
  | none => field key d none
  | field k e rest => if k = key then field k d rest else field k e (rest.set key d)

end Fields

mutual

def Draft.finish : Draft → Value
  | .value v => v
  | .table _ fields => .table fields.finish
  | .tables earlier last => .array (earlier ++ [.table last.finish])

def Fields.finish : Fields → List (String × Value)
  | .none => []
  | .field key d rest => (key, d.finish) :: rest.finish

end

namespace Fields

/-- Changes the table that a path of keys leads to. Missing tables are made on the way, dotted or
implied as the path is part of a dotted key or of a header; an array of tables stands for its last
one; a dotted key does not enter a table that has a header. -/
def update (dotted : Bool) (f : Origin → Fields → Option Fields) :
    List String → Origin → Fields → Option Fields
  | [], origin, fields => f origin fields
  | key :: path, _, fields =>
    match fields.find? key with
    | Option.none => do
      let origin := if dotted then Origin.dotted else Origin.implied
      pure (fields.set key (.table origin (← update dotted f path origin none)))
    | some (.value _) => Option.none
    | some (.tables earlier last) => do
      pure (fields.set key (.tables earlier (← update dotted f path .header last)))
    | some (.table origin sub) =>
      if dotted && origin = .header then Option.none
      else do pure (fields.set key (.table origin (← update dotted f path origin sub)))

/-- Gives a key its value. The path before the key has to end in a dotted table, and without a path
the table must not be a dotted one. -/
def assign (path : List String) (key : String) (v : Value) (origin : Origin) (fields : Fields) :
    Option Fields :=
  update true (fun origin fields ↦
    if decide (origin = .dotted) = path.isEmpty then Option.none
    else if (fields.find? key).isSome then Option.none
    else some (fields.set key (.value v))) path origin fields

/-- Opens the table of a header, which has to be new or only implied so far. -/
def openTable (path : List String) (key : String) (fields : Fields) : Option Fields :=
  update false (fun _ fields ↦
    match fields.find? key with
    | Option.none => some (fields.set key (.table .header none))
    | some (.table .implied sub) => some (fields.set key (.table .header sub))
    | _ => Option.none) path .header fields

/-- Opens one more table of an array of tables. -/
def openElement (path : List String) (key : String) (fields : Fields) : Option Fields :=
  update false (fun _ fields ↦
    match fields.find? key with
    | Option.none => some (fields.set key (.tables [] none))
    | some (.tables earlier last) =>
      some (fields.set key (.tables (earlier ++ [.table last.finish]) none))
    | _ => Option.none) path .header fields

end Fields

end NativeTransfer.Toml
