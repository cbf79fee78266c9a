import NativeTransfer.CaBundle
import NativeTransfer.Proofs.Growth
import NativeTransfer.Proofs.Reach

/-!
# Files that hold their bundles

A bundle is put where its own digest says, so two bundles with different digests never meet in one
file, however the directories are written. What a request does to the files is little: it makes
directories where nothing stood, and if it succeeds a file of the bundle's own name holds the
bundle (`Placed`). So what stands is kept by every later request, unless a bundle of the same digest
and another content comes along.

## Names and digests

The name of a file is the digest of its bundle in hexadecimal digits, and reading such digits gives
the digest again, so two names are the same only if the digests are. A path to a file of that name,
however its directories are written, ends at a place of that name. Hence a request that changes a
file changes one whose place ends in the name of its own bundle, and a bundle that stands elsewhere
is left alone without a word about how the two paths were spelled.

What is said of a sequence of requests is then one induction: a step is a request, and what stands
before it stands afterwards (`Standing.step`, `Standing.run`). Two bundles that are different and
have one digest are left out by name, and nothing is assumed about the digest besides.
-/

namespace NativeTransfer

/-! ## Names by digest -/

namespace Bytes

theorem hexValue_hexDigit : ∀ n < 16, hexValue (hexDigit n) = n := by decide

theorem hexDigit_ne_slash : ∀ n < 16, hexDigit n ≠ '/' := by decide

theorem high_lt (x : UInt8) : x.toNat / 16 < 16 :=
  Nat.div_lt_of_lt_mul x.toNat_lt

theorem low_lt (x : UInt8) : x.toNat % 16 < 16 := Nat.mod_lt _ (by decide)

theorem toList_hex (b : Bytes) : b.hex.toList =
    b.flatMap fun x ↦ [hexDigit (x.toNat / 16), hexDigit (x.toNat % 16)] :=
  String.toList_ofList

theorem ofHex_hex (b : Bytes) : ofHex b.hex = b := by
  rw [ofHex, toList_hex]
  induction b with
  | nil => rfl
  | cons x rest ih =>
    rw [List.flatMap_cons, List.cons_append, List.cons_append, List.nil_append, ofHexDigits, ih,
      hexValue_hexDigit _ (high_lt x), hexValue_hexDigit _ (low_lt x),
      Nat.mul_comm, Nat.div_add_mod, UInt8.ofNat_toNat]

theorem hex_injective : Function.Injective hex := Function.LeftInverse.injective ofHex_hex

theorem slash_notMem_hex (b : Bytes) : '/' ∉ b.hex.toList := by
  rw [toList_hex, List.mem_flatMap]
  rintro ⟨x, -, hx⟩
  rcases List.mem_pair.1 hx with h | h
  · exact hexDigit_ne_slash _ (high_lt x) h.symm
  · exact hexDigit_ne_slash _ (low_lt x) h.symm

end Bytes

namespace CaBundle

open FileSystem (Made)
open NativeTransfer.Path (IsName)

theorem toList_fileName (pem : Bytes) : (fileName pem).toList =
    "cacert-".toList ++ (Sha256.digest pem).hex.toList ++ ".pem".toList := by
  rw [fileName, String.toList_append, String.toList_append]

theorem isName_fileName (pem : Bytes) : IsName (fileName pem) where
  whole := by
    rw [toList_fileName, List.mem_append, List.mem_append]
    rintro ((h | h) | h)
    · exact absurd h (by decide)
    · exact Bytes.slash_notMem_hex _ h
    · exact absurd h (by decide)
  idle := by
    rw [toList_fileName]
    rfl
  climbs := by
    intro h
    have hfirst := congrArg (·.toList.head?) h
    rw [toList_fileName, List.append_assoc, List.head?_append_of_ne_nil _ (by decide)] at hfirst
    exact absurd hfirst (by decide)

theorem isName_subdirectory : IsName subdirectory where
  whole := by decide
  idle := by decide
  climbs := by decide

theorem digest_eq_of_fileName_eq {pem other : Bytes} (h : fileName pem = fileName other) :
    Sha256.digest pem = Sha256.digest other := by
  have hlist := congrArg String.toList h
  rw [toList_fileName, toList_fileName, List.append_cancel_right_eq,
    List.append_cancel_left_eq] at hlist
  exact Bytes.hex_injective (String.toList_injective hlist)

/-! ## What a request does -/

variable {fs gs : FileSystem} {cwd place : Place} {pem other : Bytes} {dir path : Path}
  {log : List LogRecord}

/-- A path leads to a file that holds a bundle and has the bundle's name. -/
structure Standing (fs : FileSystem) (cwd : Place) (path : Path) (pem : Bytes) (place : Place) :
    Prop where
  leads : fs.place cwd path = .ok place
  holds : fs.node? place = some (.file pem)
  named : place.getLast? = some (fileName pem)

/-- Besides directories where nothing stood, all that differs is a file that holds a bundle, where
no directory was. -/
structure Placed (pem : Bytes) (place : Place) (fs gs : FileSystem) : Prop where
  file : fs.node? place ≠ some .directory
  holds : gs.node? place = some (.file pem)
  others : ∀ q ≠ place, gs.node? q = fs.node? q ∨ fs.node? q = none ∧ gs.node? q = some .directory

theorem Standing.read (h : Standing fs cwd path pem place) : fs.read cwd path = .ok pem :=
  FileSystem.read_eq_ok_iff.2 (FileSystem.lookup_eq_ok_iff.2 ⟨place, h.leads, h.holds⟩)

theorem Placed.of_made (h : Made fs gs) (hfile : gs.node? place = some (.file pem)) :
    Placed pem place fs gs where
  file := by
    intro hdirectory
    rw [h.node? hdirectory] at hfile
    cases hfile
  holds := hfile
  others q _ := h q

theorem Placed.of_put (h : Made fs gs) (hfile : gs.node? place ≠ some .directory) :
    Placed pem place fs (gs.put place (.file pem)) := by
  have hroot : place ≠ [] := by
    rintro rfl
    exact hfile (gs.node?_root)
  refine ⟨fun hdirectory ↦ hfile (h.node? hdirectory), ?_, fun q hq ↦ ?_⟩
  · rw [FileSystem.node?_put gs hroot, if_pos rfl]
  · rw [FileSystem.node?_put gs hroot, if_neg hq]
    exact h q

theorem Placed.directory (h : Placed pem place fs gs) {q : Place}
    (hq : fs.node? q = some .directory) : gs.node? q = some .directory := by
  have hne : q ≠ place := by
    rintro rfl
    exact h.file hq
  rcases h.others q hne with heq | ⟨-, heq⟩
  · rw [heq, hq]
  · exact heq

theorem standing_of_read (h : fs.read cwd (Path.join dir (fileName pem)) = .ok pem) :
    ∃ place, Standing fs cwd (Path.join dir (fileName pem)) pem place := by
  obtain ⟨place, hplace, hnode⟩ := FileSystem.lookup_eq_ok_iff.1 (FileSystem.read_eq_ok_iff.1 h)
  exact ⟨place, hplace, hnode, FileSystem.getLast?_of_place_join (isName_fileName pem) hplace⟩

theorem standing_of_write (h : fs.write cwd (Path.join dir (fileName pem)) pem = .ok gs) :
    ∃ place, Standing gs cwd (Path.join dir (fileName pem)) pem place ∧
      fs.node? place ≠ some .directory ∧ gs = fs.put place (.file pem) := by
  obtain ⟨place, hplace, hnode, rfl⟩ := FileSystem.exists_place_of_write h
  obtain ⟨there, hthere⟩ :=
    standing_of_read (FileSystem.read_eq_ok_iff.2 (FileSystem.lookup_of_write h))
  have hsame : (fs.put place (.file pem)).place cwd (Path.join dir (fileName pem)) = .ok place :=
    FileSystem.place_of_kept (fun _ ↦ FileSystem.directory_put hnode _) hplace
  obtain rfl : there = place := Except.ok.inj (hthere.leads.symm.trans hsame)
  exact ⟨there, hthere, hnode, rfl⟩

/-- What a request that succeeds does. -/
theorem standing_of_materialize (h : materialize fs cwd pem dir = ⟨.ok path, gs, log⟩) :
    path = Path.join (Path.join dir subdirectory) (fileName pem) ∧
      gs.isDirectory cwd (Path.join dir subdirectory) = true ∧
      ∃ place, Standing gs cwd path pem place ∧ Placed pem place fs gs := by
  simp only [materialize] at h
  have hmade := FileSystem.made_of_makeDirectories cwd (Path.join dir subdirectory) fs
  split at h
  · cases h
  · next made hmake =>
    rw [hmake] at hmade
    have hdir : made.isDirectory cwd (Path.join dir subdirectory) = true :=
      FileSystem.isDirectory_of_makeDirectories (Path.isEmpty_join dir isName_subdirectory)
        (Path.getLast?_join dir isName_subdirectory) hmake
    -- Either the file holds the bundle already, or it is written now.
    split at h
    · next hread =>
      cases h
      have hok : gs.read cwd (Path.join (Path.join dir subdirectory) (fileName pem)) = .ok pem := by
        revert hread
        cases gs.read cwd (Path.join (Path.join dir subdirectory) (fileName pem)) with
        | error e => exact nofun
        | ok content => exact fun hread ↦ congrArg Except.ok (Option.some_inj.1 hread)
      obtain ⟨place, hstanding⟩ := standing_of_read hok
      exact ⟨rfl, hdir, place, hstanding, .of_made hmade hstanding.holds⟩
    · split at h
      · cases h
      · next written hwrite =>
        cases h
        obtain ⟨place, hstanding, hnode, rfl⟩ := standing_of_write hwrite
        refine ⟨rfl, ?_, place, hstanding, .of_put hmade hnode⟩
        exact FileSystem.isDirectory_of_kept (fun _ ↦ FileSystem.directory_put hnode _) hdir

theorem made_of_materialize {e : Error} (h : materialize fs cwd pem dir = ⟨.error e, gs, log⟩) :
    Made fs gs := by
  simp only [materialize] at h
  have hmade := FileSystem.made_of_makeDirectories cwd (Path.join dir subdirectory) fs
  split at h
  · next hmake =>
    cases h
    rwa [hmake] at hmade
  · next hmake =>
    rw [hmake] at hmade
    split at h
    · cases h
    · split at h
      · cases h
        exact hmade
      · cases h

theorem materialize_again (h : materialize fs cwd pem dir = ⟨.ok path, gs, log⟩) :
    materialize gs cwd pem dir = ⟨.ok path, gs, []⟩ := by
  obtain ⟨rfl, hdir, place, hstanding, -⟩ := standing_of_materialize h
  have hmake : gs.makeDirectories cwd (Path.join dir subdirectory) = (gs, none) :=
    FileSystem.makeDirectories_of_isDirectory (Path.isEmpty_join dir isName_subdirectory)
      (Path.getLast?_join dir isName_subdirectory) hdir
  rw [materialize, hmake]
  simp only [hstanding.read, Except.toOption, if_true]

/-! ## What stands is kept -/

theorem Standing.of_made (h : Standing fs cwd path pem place) (hmade : Made fs gs) :
    Standing gs cwd path pem place where
  leads := FileSystem.place_of_kept (fun _ ↦ hmade.node?) h.leads
  holds := hmade.node? h.holds
  named := h.named

/-- Where a bundle of another name is put, or the same bundle once more, nothing happens to one that
stands. -/
theorem Standing.of_placed {there : Place} (h : Standing fs cwd path pem place)
    (hplaced : Placed other there fs gs) (hname : there.getLast? = some (fileName other))
    (hfree : Sha256.digest other = Sha256.digest pem → other = pem) :
    Standing gs cwd path pem place where
  leads := FileSystem.place_of_kept (fun _ ↦ hplaced.directory) h.leads
  holds := by
    by_cases hsame : place = there
    · -- One place has one last name, so the digests agree.
      subst hsame
      have hnames : fileName other = fileName pem := by
        rw [h.named] at hname
        exact (Option.some_inj.1 hname).symm
      rw [hplaced.holds, hfree (digest_eq_of_fileName_eq hnames)]
    · rcases hplaced.others place hsame with heq | ⟨hnone, -⟩
      · rw [heq, h.holds]
      · rw [h.holds] at hnone
        cases hnone
  named := h.named

/-- A request for a bundle. -/
structure Request where
  /-- The working directory at that time. -/
  cwd : Place
  pem : Bytes
  dir : Path

/-- What a request comes to. -/
def Request.outcome (r : Request) (fs : FileSystem) : Outcome (Except Error Path) :=
  materialize fs r.cwd r.pem r.dir

theorem Request.materialize_eq {r : Request} (h : (r.outcome fs).result = .ok path) :
    materialize fs r.cwd r.pem r.dir = ⟨.ok path, (r.outcome fs).files, (r.outcome fs).log⟩ := by
  rw [← h]
  rfl

/-- The files after requests, one after the other. -/
def after (fs : FileSystem) (rs : List Request) : FileSystem :=
  rs.foldl (fun fs r ↦ (r.outcome fs).files) fs

theorem after_append (fs : FileSystem) (rs ss : List Request) :
    after fs (rs ++ ss) = after (after fs rs) ss := List.foldl_append

theorem Standing.step (h : Standing fs cwd path pem place) {r : Request}
    (hfree : Sha256.digest r.pem = Sha256.digest pem → r.pem = pem) :
    Standing (r.outcome fs).files cwd path pem place := by
  cases heq : r.outcome fs with
  | mk result files log =>
    cases result with
    | error e => exact h.of_made (made_of_materialize heq)
    | ok written =>
      obtain ⟨-, -, there, hthere, hplaced⟩ := standing_of_materialize heq
      exact h.of_placed hplaced hthere.named hfree

theorem Standing.run {rs : List Request} (h : Standing fs cwd path pem place)
    (hfree : ∀ r ∈ rs, Sha256.digest r.pem = Sha256.digest pem → r.pem = pem) :
    Standing (after fs rs) cwd path pem place := by
  induction rs generalizing fs with
  | nil => exact h
  | cons r rest ih =>
    obtain ⟨hr, hrest⟩ := List.forall_mem_cons.1 hfree
    exact ih (h.step hr) hrest

/-! ## The bundle for new handles -/

section

variable {h : Host} {tls : TlsConfig}

theorem resolveText_of_blank (h : Host)
    (hblank : ∀ pem ∈ tls.caBundlePem, Text.isBlank pem = true) :
    (resolveText h tls).result = none ∧ (resolveText h tls).files = h.files := by
  cases hpem : tls.caBundlePem with
  | none => simp only [resolveText, hpem, and_self]
  | some pem => simp only [resolveText, hpem, hblank pem hpem, if_true, and_self]

theorem resolveText_of_pem {pem : String} (hpem : tls.caBundlePem = some pem)
    (hblank : Text.isBlank pem = false) :
    ∃ r : Request, r.cwd = h.cwd ∧ r.pem = Text.utf8 pem ∧
      (resolveText h tls).result = (r.outcome h.files).result.toOption ∧
        (resolveText h tls).files = (r.outcome h.files).files := by
  refine ⟨⟨h.cwd, Text.utf8 pem, tls.cacheDir.getD h.temporary⟩, rfl, rfl, ?_⟩
  rw [Request.outcome]
  simp only [resolveText, hpem, hblank, Bool.false_eq_true, if_false]
  cases materialize h.files h.cwd (Text.utf8 pem) (tls.cacheDir.getD h.temporary) with
  | mk result files log => cases result <;> exact ⟨rfl, rfl⟩

/-- If there is a bundle from the text, it holds the text. -/
theorem read_of_resolveText {p : Path} (hp : (resolveText h tls).result = some p) :
    ∃ pem ∈ tls.caBundlePem, (resolveText h tls).files.read h.cwd p = .ok (Text.utf8 pem) := by
  by_cases hblank : ∀ pem ∈ tls.caBundlePem, Text.isBlank pem = true
  · rw [(resolveText_of_blank h hblank).1] at hp
    cases hp
  · obtain ⟨pem, hpem, hno⟩ : ∃ pem ∈ tls.caBundlePem, Text.isBlank pem ≠ true := by
      simpa using hblank
    obtain ⟨r, hcwd, htext, hresult, hfiles⟩ :=
      resolveText_of_pem (h := h) hpem (Bool.eq_false_of_not_eq_true hno)
    refine ⟨pem, hpem, ?_⟩
    rw [hp] at hresult
    cases hok : (r.outcome h.files).result with
    | error e =>
      rw [hok] at hresult
      cases hresult
    | ok path =>
      rw [hok] at hresult
      cases hresult
      obtain ⟨-, -, place, hstanding, -⟩ := standing_of_materialize (Request.materialize_eq hok)
      rw [hfiles, ← hcwd, ← htext]
      exact hstanding.read

theorem resolve_of_exists {p : Path} (hp : tls.caBundle = some p) (hexists : h.exists? p = true) :
    resolve h tls = ⟨some p, h.files, []⟩ := by
  simp only [resolve, hp, hexists, if_true]

theorem resolve_cases (h : Host) (tls : TlsConfig) :
    (∃ q, tls.caBundle = some q ∧ h.exists? q = true ∧ resolve h tls = ⟨some q, h.files, []⟩) ∨
      (resolve h tls).result = (resolveText h tls).result ∧
        (resolve h tls).files = (resolveText h tls).files := by
  cases hp : tls.caBundle with
  | none => exact .inr (by simp only [resolve, hp, and_self])
  | some p =>
    cases hexists : h.exists? p with
    | true => exact .inl ⟨p, rfl, hexists, resolve_of_exists hp hexists⟩
    | false =>
      exact .inr (by simp only [resolve, hp, hexists, Bool.false_eq_true, if_false, and_self])

/-- The bundle for new handles is there: the configured one, or one that holds the text. -/
theorem resolve_eq_some {p : Path} (hp : (resolve h tls).result = some p) :
    (tls.caBundle = some p ∧ h.exists? p = true ∧ (resolve h tls).files = h.files) ∨
      ∃ pem ∈ tls.caBundlePem, (resolve h tls).files.read h.cwd p = .ok (Text.utf8 pem) := by
  rcases resolve_cases h tls with ⟨q, hq, hexists, heq⟩ | ⟨hresult, hfiles⟩
  · rw [heq] at hp ⊢
    cases hp
    exact .inl ⟨hq, hexists, rfl⟩
  · rw [hresult] at hp
    rw [hfiles]
    exact .inr (read_of_resolveText hp)

theorem exists?_of_resolve {p : Path} (hp : (resolve h tls).result = some p) :
    (resolve h tls).files.exists? h.cwd p = true := by
  rcases resolve_eq_some hp with ⟨-, hexists, hfiles⟩ | ⟨pem, -, hread⟩
  · rw [hfiles]
    exact hexists
  · exact FileSystem.exists?_iff.2 ⟨_, FileSystem.read_eq_ok_iff.1 hread⟩

theorem files_resolve_of_blank (hblank : ∀ pem ∈ tls.caBundlePem, Text.isBlank pem = true) :
    (resolve h tls).files = h.files := by
  rcases resolve_cases h tls with ⟨q, -, -, heq⟩ | ⟨-, hfiles⟩
  · rw [heq]
  · rw [hfiles, (resolveText_of_blank h hblank).2]

end

/-! ## Altogether -/

/-- A request that succeeds leaves a file that holds its bundle, whatever was there, and no other
file is touched; to ask again changes nothing. Whatever is asked for before and after, the file
still holds its bundle, unless a later bundle of the same digest differs. And the bundle for new
handles is one that is there: the configured file if it exists, for which nothing is written, and
nothing is written either where there is no text. -/
theorem bundles_hold_their_text :
    (∀ (fs : FileSystem) (r : Request) (path : Path), (r.outcome fs).result = .ok path →
      (r.outcome fs).files.read r.cwd path = .ok r.pem ∧
      (∃ place, (r.outcome fs).files.place r.cwd path = .ok place ∧
        Placed r.pem place fs (r.outcome fs).files) ∧
      r.outcome (r.outcome fs).files = ⟨.ok path, (r.outcome fs).files, []⟩) ∧
    (∀ (fs : FileSystem) (before later : List Request) (r : Request) (path : Path),
      (r.outcome (after fs before)).result = .ok path →
      (∀ s ∈ later, Sha256.digest s.pem = Sha256.digest r.pem → s.pem = r.pem) →
      (after fs (before ++ r :: later)).read r.cwd path = .ok r.pem) ∧
    (∀ (h : Host) (tls : TlsConfig),
      (∀ p, (resolve h tls).result = some p → (resolve h tls).files.exists? h.cwd p = true) ∧
      (∀ p, tls.caBundle = some p → h.exists? p = true →
        resolve h tls = ⟨some p, h.files, []⟩) ∧
      ((∀ pem ∈ tls.caBundlePem, Text.isBlank pem = true) →
        (resolve h tls).files = h.files)) := by
  refine ⟨fun fs r path hok ↦ ?_, fun fs before later r path hok hfree ↦ ?_, fun h tls ↦ ?_⟩
  · have heq := Request.materialize_eq hok
    obtain ⟨-, -, place, hstanding, hplaced⟩ := standing_of_materialize heq
    exact ⟨hstanding.read, ⟨place, hstanding.leads, hplaced⟩, materialize_again heq⟩
  · obtain ⟨-, -, place, hstanding, -⟩ := standing_of_materialize (Request.materialize_eq hok)
    rw [after_append]
    exact (hstanding.run hfree).read
  · exact ⟨fun _ ↦ exists?_of_resolve, fun _ ↦ resolve_of_exists, files_resolve_of_blank⟩

/-- The file name of a bundle of three octets. -/
def tornName : String :=
  "cacert-384fb9a44fabe158be2757b9b8d8f67029f2280fcc1776ab2a53103e6f0c582d.pem"

/-- A machine on which the file of that bundle was written only in part. -/
def tornHost : Host where
  files := ⟨[(["c"], .directory), (["c", "curl-bridge"], .directory),
    (["c", "curl-bridge", tornName], .file (Text.utf8 "PE"))]⟩
  cwd := []
  environment := []
  modules := []
  refusal := ""

def tornPath : Path := "/c/curl-bridge/" ++ tornName

theorem bundles_hold_their_text_torn :
    tornHost.files.read [] tornPath = .ok (Text.utf8 "PE") ∧
      (Request.outcome ⟨[], Text.utf8 "PEM", "/c"⟩ tornHost.files).files.read [] tornPath =
        .ok (Text.utf8 "PEM") ∧
      (after tornHost.files
        ([] ++ ⟨[], Text.utf8 "PEM", "/c"⟩ :: [⟨["c"], Text.utf8 "PEM 2", "../c/"⟩])).read []
          tornPath = .ok (Text.utf8 "PEM") ∧
      (resolve tornHost ⟨none, some "PEM", some "/c"⟩).result = some tornPath ∧
      (resolve tornHost ⟨none, some "PEM", some "/c"⟩).files.exists? [] tornPath = true ∧
      resolve tornHost ⟨some tornPath, some "PEM", none⟩ = ⟨some tornPath, tornHost.files, []⟩ ∧
      (resolve tornHost ⟨some "/b", some " \n", none⟩).files = tornHost.files := by
  have hok : (Request.outcome ⟨[], Text.utf8 "PEM", "/c"⟩ tornHost.files).result =
      .ok tornPath := by decide +kernel
  have hresolved : (resolve tornHost ⟨none, some "PEM", some "/c"⟩).result = some tornPath := by
    decide +kernel
  refine ⟨by decide +kernel, (bundles_hold_their_text.1 _ _ _ hok).1,
    bundles_hold_their_text.2.1 _ [] _ _ _ hok ?_, hresolved,
    (bundles_hold_their_text.2.2 _ _).1 _ hresolved,
    (bundles_hold_their_text.2.2 _ _).2.1 _ rfl (by decide +kernel),
    (bundles_hold_their_text.2.2 _ _).2.2 ?_⟩
  · intro s hs
    rw [List.mem_singleton.1 hs]
    decide +kernel
  · intro pem hpem
    cases hpem
    decide +kernel

end CaBundle

end NativeTransfer
