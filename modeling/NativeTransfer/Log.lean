/-!
# Log records

What the library reports besides its results. A record names its level and carries fields, and
whoever listens decides which levels to hear.
-/

namespace NativeTransfer

/-- How grave a record is. -/
inductive Level
  | error
  | warn
  | info
  | debug
  | trace
  deriving DecidableEq

namespace Level

def name : Level → String
  | .error => "error"
  | .warn => "warn"
  | .info => "info"
  | .debug => "debug"
  | .trace => "trace"

def ofName? (s : String) : Option Level := [error, warn, info, debug, trace].find? (·.name = s)

/-- The place in the order from the gravest down. -/
def rank : Level → Nat
  | .error => 0
  | .warn => 1
  | .info => 2
  | .debug => 3
  | .trace => 4

/-- Whether a listener at a level hears a record. -/
def heardAt (l listener : Level) : Bool := l.rank ≤ listener.rank

end Level

/-- What a field of a record holds. -/
inductive Field
  | number (n : Int)
  | text (s : String)
  deriving DecidableEq

/-- One report. -/
structure LogRecord where
  level : Level
  message : String
  fields : List (String × Field) := []
  deriving DecidableEq

end NativeTransfer
