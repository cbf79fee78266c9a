import NativeTransfer.Bytes
import NativeTransfer.Error
import NativeTransfer.Host.Path
import NativeTransfer.Pairs
import NativeTransfer.Text.Utf8

/-!
# A file system as a value

A tree without links, kept as the list of its entries. Every operation first walks its path from a
starting directory. On the way each step has to be a directory that exists, `..` climbs and `.`
stays; only the last name may lead nowhere, and what that means is for the operation to say.

Permissions are those of the one process that looks: it passes through every directory, and a file
is open to it or sealed. A sealed file is there for all who only ask whether something is, and it
refuses to be read and to be written. So what exists and what can be read are different questions,
and the operations below answer them apart.
-/

namespace NativeTransfer

/-- The names that lead from the root to an entry. -/
abbrev Place := List String

/-- What stands at a place. -/
inductive Node
  | directory
  | file (content : Bytes)
  /-- A file that the process may neither read nor write. -/
  | sealed
  deriving DecidableEq

/-- The entries below the root. The root is a directory and is not listed. -/
structure FileSystem where
  entries : List (Place × Node)
  deriving DecidableEq

namespace FileSystem

def node? (fs : FileSystem) (p : Place) : Option Node :=
  if p = [] then some .directory else fs.entries.lookup p

/-- Puts a node at a place, whatever was there. -/
def put (fs : FileSystem) (p : Place) (n : Node) : FileSystem := ⟨Pairs.put p n fs.entries⟩

def erase (fs : FileSystem) (p : Place) : FileSystem := ⟨Pairs.without p fs.entries⟩

@[simp] theorem node?_root (fs : FileSystem) : fs.node? [] = some .directory := rfl

theorem node?_put (fs : FileSystem) {p : Place} (hp : p ≠ []) (n : Node) (q : Place) :
    (fs.put p n).node? q = if q = p then some n else fs.node? q := by
  by_cases hq : q = []
  · subst hq
    rw [node?_root, node?_root, if_neg hp.symm]
  · rw [node?, node?, if_neg hq, if_neg hq]
    exact Pairs.lookup_put p q n fs.entries

/-! ## Walking -/

/-- The longest name that an entry can have, in octets. -/
def longestName : Nat := 255

/-- The longest path that is walked at all, in octets. -/
def longestPath : Nat := 4095

/-- Whether an entry may have a name. -/
def fits (name : String) : Bool := (Text.utf8 name).length ≤ longestName

/-- Where the walk of `segments` from the directory `here` ends. Nothing is asked of the last
name. -/
def walk (fs : FileSystem) (here : Place) : List (List Char) → Except IoError Place
  | [] => .ok here
  | s :: rest =>
    if Path.idle s then fs.walk here rest
    else if s = ['.', '.'] then fs.walk here.dropLast rest
    else
      let name := String.ofList s
      if rest = [] then .ok (here ++ [name])
      else if !fits name then .error .nameTooLong
      else
        match fs.node? (here ++ [name]) with
        | none => .error .notFound
        | some (.file _) | some .sealed => .error .notDirectory
        | some .directory => fs.walk (here ++ [name]) rest

/-- Where the segments of a path lead from a working directory. -/
def placeOf (fs : FileSystem) (cwd : Place) (p : Path) (segments : List (List Char)) :
    Except IoError Place :=
  if p.toList.contains '\x00' then .error .nulInPath
  else if p.isEmpty then .error .notFound
  else if longestPath < (Text.utf8 p).length then .error .nameTooLong
  else fs.walk (if (Path.parts p).start = .root then [] else cwd) segments

/-- A place, if no name on the way to it is too long. -/
def checked (p : Place) : Except IoError Place :=
  if p.all fits then .ok p else .error .nameTooLong

/-- Where a path leads. A slash behind the last name asks for a directory. -/
def place (fs : FileSystem) (cwd : Place) (p : Path) : Except IoError Place := do
  checked (← fs.placeOf cwd p (Path.parts p).segments)

/-- Where a path leads that is about to be created, whatever slashes stand behind it. -/
def newPlace (fs : FileSystem) (cwd : Place) (p : Path) : Except IoError Place :=
  fs.placeOf cwd p ((Path.parts p).segments.reverse.dropWhile (· = [])).reverse

/-- What a path leads to. -/
def lookup (fs : FileSystem) (cwd : Place) (p : Path) : Except IoError Node := do
  match fs.node? (← fs.place cwd p) with
  | none => throw .notFound
  | some n => pure n

/-! ## Reading -/

def exists? (fs : FileSystem) (cwd : Place) (p : Path) : Bool := (fs.lookup cwd p).toOption.isSome

def isDirectory (fs : FileSystem) (cwd : Place) (p : Path) : Bool :=
  (fs.lookup cwd p).toOption = some .directory

def read (fs : FileSystem) (cwd : Place) (p : Path) : Except IoError Bytes := do
  match ← fs.lookup cwd p with
  | .directory => throw .isDirectory
  | .sealed => throw .permissionDenied
  | .file content => pure content

def readText (fs : FileSystem) (cwd : Place) (p : Path) : Except IoError String := do
  match Text.strict? (← fs.read cwd p) with
  | none => throw .notUtf8
  | some text => pure text

/-- The place of a directory that is about to become the working directory. -/
def enter (fs : FileSystem) (cwd : Place) (p : Path) : Except IoError Place := do
  let place ← fs.place cwd p
  match fs.node? place with
  | none => throw .notFound
  | some (.file _) | some .sealed => throw .notDirectory
  | some .directory => pure place

/-! ## Writing -/

/-- Makes `content` the content of a file, which is created if need be. A path with a slash at its
end can name no file, whatever its last name. -/
def write (fs : FileSystem) (cwd : Place) (p : Path) (content : Bytes) :
    Except IoError FileSystem := do
  let place ← fs.newPlace cwd p
  if p.toList.getLast? = some '/' then throw .isDirectory
  let place ← checked place
  match fs.node? place with
  | some .directory => throw .isDirectory
  | some .sealed => throw .permissionDenied
  | _ => pure (fs.put place (.file content))

def makeDirectory (fs : FileSystem) (cwd : Place) (p : Path) : Except IoError FileSystem := do
  let place ← checked (← fs.newPlace cwd p)
  match fs.node? place with
  | some _ => throw .exists
  | none => pure (fs.put place .directory)

/-- Makes the first of a path's ancestors, and before it those above it that are missing. What was
made stays when a later step fails. -/
def makeAncestors (fs : FileSystem) (cwd : Place) : List Path → FileSystem × Option IoError
  | [] => (fs, some (.other "failed to create whole tree"))
  | p :: above =>
    if p.isEmpty then (fs, none)
    else
      match fs.makeDirectory cwd p with
      | .ok made => (made, none)
      | .error .notFound =>
        match fs.makeAncestors cwd above with
        | (fs, some e) => (fs, some e)
        | (fs, none) =>
          match fs.makeDirectory cwd p with
          | .ok made => (made, none)
          | .error e => (fs, if fs.isDirectory cwd p then none else some e)
      | .error e => (fs, if fs.isDirectory cwd p then none else some e)

/-- Makes a directory with all that is missing above it. -/
def makeDirectories (fs : FileSystem) (cwd : Place) (p : Path) : FileSystem × Option IoError :=
  fs.makeAncestors cwd (Path.ancestors p)

/-- A file put where the directories above it may be missing. What cannot be made is left out. -/
def plant (fs : FileSystem) (cwd : Place) (p : Path) (content : Bytes) : FileSystem :=
  let fs := match Path.parent? p with
    | some above => (fs.makeDirectories cwd above).1
    | none => fs
  (fs.write cwd p content).toOption.getD fs

def removeFile (fs : FileSystem) (cwd : Place) (p : Path) : Except IoError FileSystem := do
  let place ← fs.place cwd p
  match fs.node? place with
  | none => throw .notFound
  | some .directory => throw .isDirectory
  | some (.file _) | some .sealed => pure (fs.erase place)

/-! ## Listing -/

/-- What a listing shows of an entry. -/
inductive Shown
  | directory
  | file (content : Bytes)
  deriving DecidableEq

/-- A sealed file has nothing to show. -/
def shown? : Node → Option Shown
  | .directory => some .directory
  | .file content => some (.file content)
  | .sealed => none

/-- The entries below a place that can be looked into, each directory before what it holds and names
in order. -/
def below (fs : FileSystem) (p : Place) : List (Place × Shown) :=
  (fs.entries.filterMap fun e ↦
    if p.isPrefixOf e.1 && e.1 ≠ p then (shown? e.2).map (e.1.drop p.length, ·)
    else none).mergeSort
      fun a b ↦ !(decide (b.1 < a.1))

end FileSystem

end NativeTransfer
