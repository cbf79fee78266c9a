import NativeTransfer.Config.Basic
import NativeTransfer.Toml.Reader
import NativeTransfer.Toml.Writer

/-!
# The document of a configuration

Reading takes what it knows and passes over the rest, and a table may also be written as an array of
its values in order. Writing gives every table, and every key that is set.

A missing key has its default, and a key of the wrong type makes the whole document unusable: no
part of a configuration is taken from a document that is not understood. Which key it was is not
kept. Keys that are not known are passed over, so that a document may hold more than is read here.

Writing goes through a list of tables and entries, and reading back what was written comes to the
configuration that was written. The laws of the format itself stand with its reader and its writer;
here only the names of tables and keys have to agree.
-/

namespace NativeTransfer.Config

open Toml (Value Entry)

/-! ## Reading -/

/-- The keys of each table, in order. -/
def libraryKeys : List String := ["path", "names", "search_paths"]

def tlsKeys : List String := ["ca_bundle", "ca_bundle_pem", "cache_dir"]

def globalKeys : List String := ["init_flags"]

/-- The entries of a table, which may be missing, or be an array of the values in the order of their
keys. A date counts as a table without keys. -/
def entries (keys : List String) : Option Value → Option (List (String × Value))
  | none => some []
  | some (.table es) => some es
  | some (.array items) => some (keys.zip items)
  | some .dateTime => some []
  | some _ => none

/-- A text that may be missing. -/
def textEntry (es : List (String × Value)) (key : String) : Option (Option String) :=
  match es.lookup key with
  | none => some none
  | some (.text s) => some (some s)
  | some _ => none

def textOf? : Value → Option String
  | .text s => some s
  | _ => none

/-- An array of texts that may be missing. -/
def textsEntry (es : List (String × Value)) (key : String) : Option (List String) :=
  match es.lookup key with
  | none => some []
  | some (.array items) => items.mapM textOf?
  | some _ => none

def ofLibrary (es : List (String × Value)) : Option LibraryConfig := do
  pure ⟨← textEntry es "path", ← textsEntry es "names", ← textsEntry es "search_paths"⟩

def ofTls (es : List (String × Value)) : Option TlsConfig := do
  pure ⟨← textEntry es "ca_bundle", ← textEntry es "ca_bundle_pem", ← textEntry es "cache_dir"⟩

def ofGlobal (es : List (String × Value)) : Option Int64 :=
  match es.lookup "init_flags" with
  | none => some initEverything
  | some (.integer n) => some (Int64.ofInt n)
  | some _ => none

/-- The configuration in the root table of a document. -/
def ofTable (root : List (String × Value)) : Option Config := do
  pure
    { library := ← ofLibrary (← entries libraryKeys (root.lookup "library"))
      tls := ← ofTls (← entries tlsKeys (root.lookup "tls"))
      initFlags := ← ofGlobal (← entries globalKeys (root.lookup "global")) }

/-- The configuration that a text gives, if it is a document of the right shape. -/
def parse (s : String) : Option Config := (Toml.read s).bind ofTable

/-! ## Writing -/

def textField (key : String) (s : Option String) : List (String × Entry) :=
  (s.map fun s ↦ (key, Entry.text s)).toList

/-- The tables of a configuration. -/
def tables (c : Config) : List (String × List (String × Entry)) :=
  [("library", textField "path" c.library.path ++
      [("names", .texts c.library.names), ("search_paths", .texts c.library.searchPaths)]),
    ("tls", textField "ca_bundle" c.tls.caBundle ++ textField "ca_bundle_pem" c.tls.caBundlePem ++
      textField "cache_dir" c.tls.cacheDir),
    ("global", [("init_flags", .integer c.initFlags.toInt)])]

/-- The text of a configuration. -/
def text (c : Config) : String := Toml.documentText c.tables

end NativeTransfer.Config
