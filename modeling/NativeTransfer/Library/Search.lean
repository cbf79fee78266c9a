import NativeTransfer.Config.Basic
import NativeTransfer.Host.Basic

/-!
# The search for a native module

An explicit path is taken as it is. Otherwise the candidates come in one order, name by name and
within a name directory by directory, and the first that exists is taken. A name is first tried as a
path.

## Names and file names

A configured name may be a path, a file name or a plain library name. It is tried as it stands
first, and then in each directory under its file name, which adds to a plain name what file names
of libraries have around it. The test for existence asks for nothing more: what kind of thing it is
that exists, and whether it can be loaded, comes out when it is loaded.

## Where the directories come from

The working directory stands before the directories of the system and those before the directories
of the environment. A configuration puts its own before all of these, and can only add to them,
while its names take the place of the built-in ones.
-/

namespace NativeTransfer.Library

/-- The variable that names the module to load, whatever is configured. -/
def overrideVariable : String := "CURL_BRIDGE_LIBRARY"

/-- The variable that adds directories to the search. -/
def searchVariable : String := "LD_LIBRARY_PATH"

/-- The names that are tried when none is configured. -/
def builtinNames : List String := ["curl-impersonate", "curl-impersonate-chrome", "curl"]

/-- The directories in which systems keep libraries. -/
def systemDirectories : List Path :=
  ["/usr/lib", "/usr/local/lib", "/usr/lib/x86_64-linux-gnu", "/usr/lib/aarch64-linux-gnu", "/lib",
    "/lib64", "/usr/lib64"]

/-- The directories that the environment adds. Empty entries do not count. -/
def environmentDirectories (h : Host) : List Path :=
  match h.env? searchVariable with
  | none => []
  | some value => ((Text.pieces ':' value.toList).filter (· ≠ [])).map String.ofList

/-- A search: where, for what, and whether the answer is known beforehand. -/
structure Search where
  paths : List Path
  names : List String
  explicit : Option Path

/-- The search without a configuration. -/
def Search.standard (h : Host) : Search where
  paths := Host.pathOf h.cwd :: systemDirectories ++ environmentDirectories h
  names := builtinNames
  explicit := h.env? overrideVariable

/-- The search that a configuration asks for. The environment's own path goes before the configured
one, and configured directories go before all others. -/
def Search.ofConfig (h : Host) (c : LibraryConfig) : Search where
  paths := c.searchPaths ++ (Search.standard h).paths
  names := if c.names = [] then builtinNames else c.names
  explicit := (Search.standard h).explicit.or c.path

/-- The file name of a library: a name that is one already stays as it is. -/
def fileName (name : String) : String :=
  let cs := name.toList
  if "lib".toList.isPrefixOf cs && Text.occurs ".so".toList cs then name
  else "lib" ++ name ++ ".so.4"

namespace Search

/-- One more directory, after all others. -/
def add (s : Search) (dir : Path) : Search := { s with paths := s.paths ++ [dir] }

/-- The paths at which a name is looked for, in order. -/
def candidates (s : Search) (name : String) : List Path :=
  name :: s.paths.map (Path.join · (fileName name))

/-- The first candidate of a name that exists. -/
def find? (s : Search) (h : Host) (name : String) : Option Path :=
  (s.candidates name).find? h.exists?

/-- The module to load. -/
def locate? (s : Search) (h : Host) : Option Path :=
  s.explicit.or (s.names.findSome? (s.find? h))

end Search

end NativeTransfer.Library
