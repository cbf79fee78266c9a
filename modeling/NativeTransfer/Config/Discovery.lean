import NativeTransfer.Config.Document
import NativeTransfer.Host.Basic

/-!
# Finding a configuration

The nearest directory that has an entry of the right name decides, going up from where the search
starts. What is wrong with that entry is reported and never passed over in favour of one further up.

The search goes over paths as they are written. `Path.ancestors` takes the start apart by its
spelling and asks nothing of the disk, so a relative start is followed up to its own beginning and
no further. Each directory on the way is asked for one entry, and existing is all that is asked
first: a directory, or a file that cannot be read, ends the search in the place of the file and is
an error when it is loaded. A path that is too long to be walked leads nowhere and counts as absent.
-/

namespace NativeTransfer.Config

variable (fs : FileSystem) (cwd : Place)

/-- The configuration in a file. -/
def load (p : Path) : Except ConfigError Config :=
  if fs.exists? cwd p then
    match fs.readText cwd p with
    | .error e => .error (.io e)
    | .ok text =>
      match parse text with
      | none => .error .parse
      | some c => .ok c
  else .error (.notFound p)

/-- The configuration files that a search from `start` looks at, in order. -/
def candidates (start : Path) : List Path := (Path.ancestors start).map (Path.join · fileName)

/-- The configuration of the nearest file above a directory, or the default if there is none. -/
def find (start : Path) : Except ConfigError Config :=
  match (candidates start).find? (fs.exists? cwd) with
  | some p => load fs cwd p
  | none => .ok {}

/-- The configuration that is found from the working directory up. -/
def findFromCwd : Except ConfigError Config := find fs cwd (Host.pathOf cwd)

/-- The file system with a configuration put into a file. -/
def save (c : Config) (p : Path) : Except ConfigError FileSystem :=
  match fs.write cwd p (Text.utf8 c.text) with
  | .ok fs => .ok fs
  | .error e => .error (.io e)

end NativeTransfer.Config
