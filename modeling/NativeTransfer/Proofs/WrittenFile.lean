import NativeTransfer.Host.FileSystem
import NativeTransfer.Proofs.Encoding

/-!
# A written file reads back

Writing and reading take a path apart in different ways: writing passes over slashes at the end,
and reading needs a directory before them. They agree where a file was written, since a path that
ends in a slash is refused. The place they agree on is no step of the way to it: a directory stood
at each of those steps, and none at that place.

## Walks that are not disturbed

A write puts one file where no directory was. A walk asks of the places on its way only whether they
are directories, so it takes the same way afterwards, and ends at the same place (`walk_of_kept`).
That is what lets a path be taken apart once before the write and once after it, by two different
functions, and come to the same.
-/

namespace NativeTransfer

/-! ## Paths to a file -/

theorem Text.getLast?_pieces {sep : Char} {cs : List Char} (hne : cs ≠ [])
    (hlast : cs.getLast? ≠ some sep) : (pieces sep cs).getLast? ≠ some [] := by
  induction cs with
  | nil => exact absurd rfl hne
  | cons c rest ih =>
    by_cases hrest : rest = []
    · subst hrest
      have hc : c ≠ sep := fun h ↦ hlast (congrArg some h)
      rw [pieces, if_neg hc]
      simp [pieces]
    · rw [List.getLast?_cons_of_ne_nil hrest] at hlast
      have hpieces := ih hrest hlast
      rw [pieces]
      split
      · rwa [List.getLast?_cons_of_ne_nil (pieces_ne_nil sep rest)]
      · split
        · simp
        · next first others heq =>
          rw [heq] at hpieces
          cases others with
          | nil => simp
          | cons second more => rwa [List.getLast?_cons_cons] at hpieces ⊢

theorem Path.getLast?_segmentsOf {body : List Char} (h : body.getLast? ≠ some '/') :
    (segmentsOf body).getLast? ≠ some [] := by
  rw [segmentsOf]
  split
  · simp
  · next hbody => exact Text.getLast?_pieces hbody h

/-- The last segment names something where no slash is the last character. -/
theorem Path.getLast?_segments {p : Path} (h : p.toList.getLast? ≠ some '/') :
    (parts p).segments.getLast? ≠ some [] := by
  rw [parts]
  split
  · next body heq =>
    rw [heq] at h
    cases body with
    | nil => simp at h
    | cons c body => exact getLast?_segmentsOf (by rwa [List.getLast?_cons_cons] at h)
  · simp
  · next body heq =>
    rw [heq, List.getLast?_cons_cons] at h
    exact getLast?_segmentsOf h
  · exact getLast?_segmentsOf h

namespace FileSystem

/-! ## What a path leads to -/

section

variable {fs : FileSystem} {cwd : Place} {p : Path}

theorem lookup_eq_ok_iff {n : Node} : fs.lookup cwd p = .ok n ↔
    ∃ place, fs.place cwd p = .ok place ∧ fs.node? place = some n := by
  rw [lookup]
  cases fs.place cwd p with
  | error e => simp [bind, Except.bind]
  | ok place =>
    cases hnode : fs.node? place with
    | none => simp [bind, Except.bind, hnode, throw, throwThe, MonadExceptOf.throw]
    | some m => simp [bind, Except.bind, hnode, pure, Except.pure]

theorem read_eq_ok_iff {content : Bytes} :
    fs.read cwd p = .ok content ↔ fs.lookup cwd p = .ok (.file content) := by
  rw [read]
  cases fs.lookup cwd p with
  | error e => simp [bind, Except.bind]
  | ok n => cases n <;> simp [bind, Except.bind, pure, Except.pure, throw, throwThe,
      MonadExceptOf.throw]

theorem exists?_iff : fs.exists? cwd p = true ↔ ∃ n, fs.lookup cwd p = .ok n := by
  rw [exists?]
  cases fs.lookup cwd p <;> simp [Except.toOption]

theorem isDirectory_iff : fs.isDirectory cwd p = true ↔ fs.lookup cwd p = .ok .directory := by
  rw [isDirectory, decide_eq_true_iff]
  cases fs.lookup cwd p <;> simp [Except.toOption]

end

/-! ## Places to write at -/

theorem newPlace_eq_placeOf (fs : FileSystem) (cwd : Place) {p : Path}
    (h : p.toList.getLast? ≠ some '/') :
    fs.newPlace cwd p = fs.placeOf cwd p (Path.parts p).segments := by
  have hlast := Path.getLast?_segments h
  rw [← List.head?_reverse] at hlast
  -- The last segment comes first here, so that nothing is dropped.
  have hdrop : (Path.parts p).segments.reverse.dropWhile (· = []) =
      (Path.parts p).segments.reverse := by
    cases hrev : (Path.parts p).segments.reverse with
    | nil => rfl
    | cons s rest =>
      rw [hrev] at hlast
      exact List.dropWhile_cons_of_neg fun hs ↦ hlast (congrArg some (of_decide_eq_true hs))
  rw [newPlace, hdrop, List.reverse_reverse]

/-! ## Walking past a file -/

section

variable {fs gs : FileSystem}
  (hkept : ∀ q, fs.node? q = some .directory → gs.node? q = some .directory)

include hkept

/-- A walk meets only directories on its way, and it ends at the same place wherever these are. -/
theorem walk_of_kept {segments : List (List Char)} :
    ∀ {here place : Place}, fs.walk here segments = .ok place →
      gs.walk here segments = .ok place := by
  induction segments with
  | nil => exact fun h ↦ h
  | cons s rest ih =>
    intro here place h
    rw [walk] at h ⊢
    by_cases hidle : Path.idle s = true
    · rw [if_pos hidle] at h ⊢
      exact ih h
    rw [if_neg hidle] at h ⊢
    by_cases hup : s = ['.', '.']
    · rw [if_pos hup] at h ⊢
      exact ih h
    rw [if_neg hup] at h ⊢
    by_cases hrest : rest = []
    · rwa [if_pos hrest] at h ⊢
    simp only [if_neg hrest] at h ⊢
    by_cases hfits : (!fits (String.ofList s)) = true
    · rw [if_pos hfits] at h
      cases h
    rw [if_neg hfits] at h ⊢
    cases hstep : fs.node? (here ++ [String.ofList s]) with
    | none =>
      rw [hstep] at h
      cases h
    | some step =>
      cases step with
      | file | sealed =>
        rw [hstep] at h
        cases h
      | directory =>
        rw [hstep] at h
        rw [hkept _ hstep]
        exact ih h

theorem placeOf_of_kept {cwd place : Place} {p : Path} {segments : List (List Char)}
    (h : fs.placeOf cwd p segments = .ok place) : gs.placeOf cwd p segments = .ok place := by
  rw [placeOf] at h ⊢
  by_cases hnul : p.toList.contains '\x00' = true
  · rw [if_pos hnul] at h
    cases h
  by_cases hempty : p.isEmpty = true
  · rw [if_neg hnul, if_pos hempty] at h
    cases h
  by_cases hlong : longestPath < (Text.utf8 p).length
  · rw [if_neg hnul, if_neg hempty, if_pos hlong] at h
    cases h
  rw [if_neg hnul, if_neg hempty, if_neg hlong] at h ⊢
  exact walk_of_kept hkept h

theorem place_of_kept {cwd place : Place} {p : Path} (h : fs.place cwd p = .ok place) :
    gs.place cwd p = .ok place := by
  cases hof : fs.placeOf cwd p (Path.parts p).segments with
  | error e =>
    rw [FileSystem.place, hof] at h
    cases h
  | ok walked =>
    rw [FileSystem.place, hof] at h
    rw [FileSystem.place, placeOf_of_kept hkept hof]
    exact h

theorem isDirectory_of_kept {cwd : Place} {p : Path} (h : fs.isDirectory cwd p = true) :
    gs.isDirectory cwd p = true := by
  obtain ⟨place, hplace, hnode⟩ := lookup_eq_ok_iff.1 (isDirectory_iff.1 h)
  exact isDirectory_iff.2
    (lookup_eq_ok_iff.2 ⟨place, place_of_kept hkept hplace, hkept place hnode⟩)

end

theorem directory_put {fs : FileSystem} {q : Place} (hnode : fs.node? q ≠ some .directory)
    (n : Node) {r : Place} (hr : fs.node? r = some .directory) :
    (fs.put q n).node? r = some .directory := by
  have hroot : q ≠ [] := by
    rintro rfl
    exact hnode (node?_root fs)
  have hne : r ≠ q := by
    rintro rfl
    exact hnode hr
  rw [node?_put fs hroot, if_neg hne, hr]

/-! ## Writing -/

variable {fs : FileSystem} {cwd : Place} {p : Path} {content : Bytes} {written : FileSystem}

/-- What a write that succeeds does: the file stands where the path leads, which is no directory. -/
theorem exists_place_of_write (h : fs.write cwd p content = .ok written) :
    ∃ place, fs.place cwd p = .ok place ∧ fs.node? place ≠ some .directory ∧
      written = fs.put place (.file content) := by
  rw [write] at h
  cases hnew : fs.newPlace cwd p with
  | error e =>
    rw [hnew] at h
    cases h
  | ok place =>
    rw [hnew] at h
    by_cases hslash : p.toList.getLast? = some '/'
    · simp only [bind, Except.bind, if_pos hslash] at h
      cases h
    rw [newPlace_eq_placeOf fs cwd hslash] at hnew
    cases hchecked : checked place with
    | error e =>
      simp only [bind, Except.bind, if_neg hslash, hchecked] at h
      cases h
    | ok final =>
      simp only [bind, Except.bind, if_neg hslash, hchecked] at h
      refine ⟨final, ?_, ?_, ?_⟩
      · rw [FileSystem.place, hnew]
        exact hchecked
      · intro hdirectory
        rw [hdirectory] at h
        cases h
      · split at h
        · cases h
        · cases h
        · exact (Except.ok.inj h).symm

theorem lookup_of_write (h : fs.write cwd p content = .ok written) :
    written.lookup cwd p = .ok (.file content) := by
  obtain ⟨place, hplace, hnode, rfl⟩ := exists_place_of_write h
  have hroot : place ≠ [] := by
    rintro rfl
    exact hnode (node?_root fs)
  refine lookup_eq_ok_iff.2 ⟨place, place_of_kept (fun _ ↦ directory_put hnode _) hplace, ?_⟩
  rw [node?_put fs hroot, if_pos rfl]

theorem exists?_of_write (h : fs.write cwd p content = .ok written) :
    written.exists? cwd p = true :=
  exists?_iff.2 ⟨_, lookup_of_write h⟩

theorem readText_of_write {s : String} (h : fs.write cwd p (Text.utf8 s) = .ok written) :
    written.readText cwd p = .ok s := by
  have hread : written.read cwd p = .ok (Text.utf8 s) := read_eq_ok_iff.2 (lookup_of_write h)
  rw [readText, hread]
  simp only [bind, Except.bind, Text.strict?_utf8]
  rfl

end FileSystem

end NativeTransfer
