import NativeTransfer.Host.Path

/-!
# Configuration

What an installation can settle in advance: where the native module is found, which certificates new
handles trust, and how the engine is initialised. Every setting has a default, so that no file at
all is a configuration too.
-/

namespace NativeTransfer

/-- Where the native module is looked for. -/
structure LibraryConfig where
  /-- An explicit path, which ends the search before it starts. -/
  path : Option Path := none
  /-- Candidate names, the preferred first; none stands for the built-in ones. -/
  names : List String := []
  /-- Directories that are searched before all others. -/
  searchPaths : List Path := []
  deriving DecidableEq

/-- The certificates that new handles trust. -/
structure TlsConfig where
  /-- A bundle that is used as it is. -/
  caBundle : Option Path := none
  /-- The text of a bundle, which is put into a file when it is needed. -/
  caBundlePem : Option String := none
  /-- The directory for such files. -/
  cacheDir : Option Path := none
  deriving DecidableEq

/-- The flags that ask the engine for everything. -/
def initEverything : Int64 := 3

/-- A whole configuration. -/
structure Config where
  library : LibraryConfig := {}
  tls : TlsConfig := {}
  /-- The flags of the global initialisation. -/
  initFlags : Int64 := initEverything
  deriving DecidableEq

/-- The name of a configuration file. -/
def Config.fileName : Path := "curl-bridge.toml"

end NativeTransfer
