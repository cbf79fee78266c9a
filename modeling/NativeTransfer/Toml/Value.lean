/-!
# TOML values

A document is a table. Floats and dates are read and held to their grammar, but nothing here asks
for one, so that a value says only that it is one.
-/

namespace NativeTransfer.Toml

/-- A value of the format. -/
inductive Value
  | text (s : String)
  | integer (n : Int)
  | boolean (b : Bool)
  | float
  | dateTime
  | array (items : List Value)
  | table (entries : List (String × Value))

/-- A reader takes something off the front of the text, and says what it was and what is left. -/
abbrev Reader (α : Type) := List Char → Option (α × List Char)

end NativeTransfer.Toml
