/-!
# Entry points

The functions that a native module exports under fixed names. They are numbered by their place in
the table of addresses that a module is resolved into.

The number, the name and the place in the list of all are told apart here, and that they go together
is a fact about the list. The table of a module is filled in the order of the list and read by the
number, so this is the fact on which every call through the table rests.
-/

namespace NativeTransfer

/-- A function of the native module. -/
inductive EntryPoint
  | version
  | globalInit
  | globalCleanup
  | free
  | init
  | duphandle
  | cleanup
  | setopt
  | getinfo
  | perform
  | pause
  | reset
  | send
  | recv
  | escape
  | unescape
  | strerror
  | impersonate
  | listAppend
  | listFree
  deriving DecidableEq

namespace EntryPoint

/-- Every entry point, in table order. -/
def all : List EntryPoint :=
  [.version, .globalInit, .globalCleanup, .free, .init, .duphandle, .cleanup, .setopt, .getinfo,
    .perform, .pause, .reset, .send, .recv, .escape, .unescape, .strerror, .impersonate,
    .listAppend, .listFree]

/-- The place in the table. -/
def index (e : EntryPoint) : Nat := e.ctorIdx

/-- The exported name. -/
def symbol : EntryPoint → String
  | .version => "curl_version"
  | .globalInit => "curl_global_init"
  | .globalCleanup => "curl_global_cleanup"
  | .free => "curl_free"
  | .init => "curl_easy_init"
  | .duphandle => "curl_easy_duphandle"
  | .cleanup => "curl_easy_cleanup"
  | .setopt => "curl_easy_setopt"
  | .getinfo => "curl_easy_getinfo"
  | .perform => "curl_easy_perform"
  | .pause => "curl_easy_pause"
  | .reset => "curl_easy_reset"
  | .send => "curl_easy_send"
  | .recv => "curl_easy_recv"
  | .escape => "curl_easy_escape"
  | .unescape => "curl_easy_unescape"
  | .strerror => "curl_easy_strerror"
  | .impersonate => "curl_easy_impersonate"
  | .listAppend => "curl_slist_append"
  | .listFree => "curl_slist_free_all"

def ofSymbol? (s : String) : Option EntryPoint := all.find? (·.symbol = s)

theorem mem_all (e : EntryPoint) : e ∈ all := by cases e <;> decide

theorem getElem?_all_index (e : EntryPoint) : all[e.index]? = some e := by cases e <;> rfl

/-- No two entry points are exported under one name. -/
theorem ofSymbol?_symbol (e : EntryPoint) : ofSymbol? e.symbol = some e := by cases e <;> decide

end EntryPoint

end NativeTransfer
