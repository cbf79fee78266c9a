import NativeTransfer.Config.Basic
import NativeTransfer.Digest.Sha256
import NativeTransfer.Error
import NativeTransfer.Host.Basic
import NativeTransfer.Log
import NativeTransfer.Text.Blank

/-!
# Certificate bundles

A bundle that is configured as text is put into a file whose name is the digest of the text. The
name alone does not vouch for the content: a file that holds anything else is written again.

In one directory a file is written at most once for one text as long as nobody else touches it, and
two texts get two files unless their digests agree. That digests of different texts differ is
assumed nowhere: where it matters it is said of the texts at hand.

Configuring a bundle never fails. A missing file, an empty text and a directory that cannot be made
are each reported, and then the next possibility is tried or the engine keeps its own bundle.
-/

namespace NativeTransfer.CaBundle

/-- The directory for bundles inside a cache directory. -/
def subdirectory : Path := "curl-bridge"

/-- The file name of a bundle. -/
def fileName (pem : Bytes) : Path := "cacert-" ++ (Sha256.digest pem).hex ++ ".pem"

/-- What putting a bundle into a file comes to: the file, or why there is none, and what it left. -/
structure Outcome (α : Type) where
  result : α
  files : FileSystem
  log : List LogRecord

/-- Sees to it that a file under `dir` holds a bundle. -/
def materialize (fs : FileSystem) (cwd : Place) (pem : Bytes) (dir : Path) :
    Outcome (Except Error Path) :=
  let dir := Path.join dir subdirectory
  match fs.makeDirectories cwd dir with
  | (fs, some e) => ⟨.error (.io e), fs, []⟩
  | (fs, none) =>
    let path := Path.join dir (fileName pem)
    if (fs.read cwd path).toOption = some pem then ⟨.ok path, fs, []⟩
    else
      match fs.write cwd path pem with
      | .error e => ⟨.error (.io e), fs, []⟩
      | .ok fs => ⟨.ok path, fs, [⟨.debug, "CA bundle written", [("path", .text path)]⟩]⟩

/-- The bundle for new handles from the text that is configured. -/
def resolveText (h : Host) (tls : TlsConfig) : Outcome (Option Path) :=
  match tls.caBundlePem with
  | none => ⟨none, h.files, []⟩
  | some pem =>
    if Text.isBlank pem then
      ⟨none, h.files, [⟨.warn, "configured CA bundle PEM is empty; CAINFO not set", []⟩]⟩
    else
      let dir := tls.cacheDir.getD h.temporary
      match materialize h.files h.cwd (Text.utf8 pem) dir with
      | ⟨.ok path, files, log⟩ => ⟨some path, files, log⟩
      | ⟨.error e, files, log⟩ =>
        ⟨none, files, log ++
          [⟨.warn, "failed to write CA bundle", [("dir", .text dir), ("error", .text e.message)]⟩]⟩

/-- The bundle for new handles. A configured file is used as it is if it exists. -/
def resolve (h : Host) (tls : TlsConfig) : Outcome (Option Path) :=
  match tls.caBundle with
  | none => resolveText h tls
  | some path =>
    if h.exists? path then ⟨some path, h.files, []⟩
    else
      let outcome := resolveText h tls
      { outcome with
        log := ⟨.warn, "configured CA bundle does not exist", [("path", .text path)]⟩ ::
          outcome.log }

end NativeTransfer.CaBundle
