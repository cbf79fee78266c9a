/-!
# Native calls

The calls that the library makes, one for each way in which arguments and results are typed. Several
of them go through one entry point, because a native module types nothing.
-/

namespace NativeTransfer

/-- A way of calling the engine. -/
inductive Method
  | version
  | globalInit
  | globalCleanup
  | strerror
  | init
  | duphandle
  | cleanup
  | reset
  | perform
  | pause
  | setLong
  | setOffset
  | setPointer
  | setFunction
  | getLong
  | getDouble
  | getOffset
  | getString
  | getList
  | send
  | recv
  | escape
  | unescape
  | impersonate
  | listAppend
  | listFree
  | free
  deriving DecidableEq

namespace Method

/-- Every method. -/
def all : List Method :=
  [.version, .globalInit, .globalCleanup, .strerror, .init, .duphandle, .cleanup, .reset, .perform,
    .pause, .setLong, .setOffset, .setPointer, .setFunction, .getLong, .getDouble, .getOffset,
    .getString, .getList, .send, .recv, .escape, .unescape, .impersonate, .listAppend, .listFree,
    .free]

def name : Method → String
  | .version => "version"
  | .globalInit => "global_init"
  | .globalCleanup => "global_cleanup"
  | .strerror => "easy_strerror"
  | .init => "easy_init"
  | .duphandle => "easy_duphandle"
  | .cleanup => "easy_cleanup"
  | .reset => "easy_reset"
  | .perform => "easy_perform"
  | .pause => "easy_pause"
  | .setLong => "setopt_long"
  | .setOffset => "setopt_off_t"
  | .setPointer => "setopt_pointer"
  | .setFunction => "setopt_function"
  | .getLong => "getinfo_long"
  | .getDouble => "getinfo_double"
  | .getOffset => "getinfo_off_t"
  | .getString => "getinfo_string"
  | .getList => "getinfo_slist"
  | .send => "easy_send"
  | .recv => "easy_recv"
  | .escape => "easy_escape"
  | .unescape => "easy_unescape"
  | .impersonate => "easy_impersonate"
  | .listAppend => "slist_append"
  | .listFree => "slist_free_all"
  | .free => "free"

def ofName? (s : String) : Option Method := all.find? (·.name = s)

end Method

/-! ## Plain integers -/

/-- The width of the engine's plain integers, in bits. It goes by the platform, and this is what it
is on those with wide pointers. -/
def longWidth : Nat := 64

/-- An integer as a plain one of a width, if it is in range. -/
def asLong? (width : Nat) (n : Int64) : Option Int64 :=
  let bound : Nat := Nat.pow 2 (width - 1)
  if -bound ≤ n.toInt ∧ n.toInt < bound then some n else none

/-- Where plain integers are as wide as integers come, none is out of range. -/
theorem asLong?_longWidth (n : Int64) : asLong? longWidth n = some n :=
  if_pos ⟨n.le_toInt, n.toInt_lt⟩

/-! ## Infos -/

/-- The types in which the engine puts out an info that is no list. -/
inductive Readout
  | long
  | double
  | offset
  | string
  deriving DecidableEq

/-- The way of calling for a type of info. -/
def Readout.method : Readout → Method
  | long => .getLong
  | double => .getDouble
  | offset => .getOffset
  | string => .getString

end NativeTransfer
