import NativeTransfer.Host.FileSystem

/-!
# The host

What the library can see of the machine it runs on: files, the working directory, the environment,
and which files the system's loader accepts as native modules.
-/

namespace NativeTransfer

/-- A file that is a native module. -/
structure ModuleFile where
  /-- The symbols that it exports. -/
  symbols : List String
  /-- The version text of an engine of the module's own. A module without one leads to the engine
  that all such modules share. -/
  banner : Option String := none
  deriving DecidableEq

/-- A machine, as far as it matters here. -/
structure Host where
  files : FileSystem
  /-- The working directory. -/
  cwd : Place
  environment : List (String × String)
  /-- The files that are native modules. -/
  modules : List (Place × ModuleFile)
  /-- The directories in which the loader looks for a module that is named without a directory. -/
  loaderDirectories : List Place := []
  /-- The running program, which is a module too. -/
  program : ModuleFile := ⟨[], none⟩
  /-- The words in which the loader refuses a file or a symbol. -/
  refusal : String

namespace Host

/-- An absolute path for a place. -/
def pathOf (p : Place) : Path := "/" ++ String.intercalate "/" p

def env? (h : Host) (name : String) : Option String := h.environment.lookup name

/-- Where files go that need not last. -/
def temporary (h : Host) : Path := (h.env? "TMPDIR").getD "/tmp"

/-- Whether a path leads to anything. -/
def exists? (h : Host) (p : Path) : Bool := h.files.exists? h.cwd p

/-- A path as the loader reads it. A NUL at the end closes it, and it may have no other. -/
def closed? (p : Path) : Option Path :=
  let cs := p.toList
  let name := if cs.getLast? = some '\x00' then cs.dropLast else cs
  if name.contains '\x00' then none else some (String.ofList name)

/-- The module that the loader finds for a path without a NUL. The empty path leads to the running
program. A name without a slash is no path to the loader: it looks in directories of its own. -/
def moduleNamed? (h : Host) (p : Path) : Option ModuleFile :=
  if p.isEmpty then some h.program
  else if p.toList.contains '/' then
    match h.files.place h.cwd p with
    | .ok place => if (h.files.node? place).isSome then h.modules.lookup place else none
    | .error _ => none
  else h.loaderDirectories.findSome? fun d ↦ h.modules.lookup (d ++ [p])

/-- The module that the loader finds for a path. -/
def moduleFile? (h : Host) (p : Path) : Option ModuleFile := (closed? p).bind h.moduleNamed?

end Host

end NativeTransfer
