import NativeTransfer.Proofs.WrittenFile

/-!
# Directories that are made

Making a directory puts one where nothing stood. Making all that is missing above it does the same
again and again, and what was made stays even if it fails in the end. So whatever stood anywhere
still stands there (`Made`), and once a directory is there, to make it again changes nothing.

## The induction

Making directories goes up from the path until one can be made, and then down again. What was made
on the way up does not matter to what is made on the way down, so the induction is on what lies
above the path, and `Made` is transitive. A path that leads to a directory goes on leading there,
since whatever stood stands; hence once all has been made, making it again finds it and stops.
-/

namespace NativeTransfer.FileSystem

variable {fs gs hs : FileSystem} {cwd place : Place} {p : Path}

/-- Nothing differs but for directories where nothing stood. -/
def Made (fs gs : FileSystem) : Prop :=
  ∀ q, gs.node? q = fs.node? q ∨ fs.node? q = none ∧ gs.node? q = some .directory

namespace Made

theorem refl (fs : FileSystem) : Made fs fs := fun _ ↦ .inl rfl

theorem trans (h : Made fs gs) (h' : Made gs hs) : Made fs hs := by
  intro q
  rcases h' q with hq' | ⟨hnone, hq'⟩
  · rw [hq']
    exact h q
  · rcases h q with hq | ⟨hnone', hq⟩
    · exact .inr ⟨hq ▸ hnone, hq'⟩
    · rw [hnone] at hq
      cases hq

theorem node? (h : Made fs gs) {q : Place} {n : Node} (hq : fs.node? q = some n) :
    gs.node? q = some n := by
  rcases h q with heq | ⟨hnone, -⟩
  · rw [heq, hq]
  · rw [hnone] at hq
    cases hq

end Made

/-! ## One directory -/

/-- What making a directory does if it succeeds: one stands where the path leads, and nothing stood
there. -/
theorem exists_place_of_makeDirectory (h : fs.makeDirectory cwd p = .ok gs) :
    ∃ place, fs.newPlace cwd p >>= checked = .ok place ∧ fs.node? place = none ∧
      gs = fs.put place .directory := by
  rw [makeDirectory, ← bind_assoc] at h
  cases hnew : fs.newPlace cwd p >>= checked with
  | error e =>
    rw [hnew] at h
    cases h
  | ok place =>
    rw [hnew] at h
    simp only [bind, Except.bind] at h
    split at h
    · cases h
    · next hnode => exact ⟨place, rfl, hnode, (Except.ok.inj h).symm⟩

theorem made_of_makeDirectory (h : fs.makeDirectory cwd p = .ok gs) : Made fs gs := by
  obtain ⟨place, -, hnone, rfl⟩ := exists_place_of_makeDirectory h
  have hroot : place ≠ [] := by
    rintro rfl
    cases hnone
  intro q
  rw [node?_put fs hroot]
  by_cases hq : q = place
  · subst hq
    exact .inr ⟨hnone, if_pos rfl⟩
  · exact .inl (if_neg hq)

theorem isDirectory_of_makeDirectory (hslash : p.toList.getLast? ≠ some '/')
    (h : fs.makeDirectory cwd p = .ok gs) : gs.isDirectory cwd p = true := by
  obtain ⟨place, hnew, hnone, rfl⟩ := exists_place_of_makeDirectory h
  have hroot : place ≠ [] := by
    rintro rfl
    cases hnone
  have hplace : fs.place cwd p = .ok place := by
    rw [FileSystem.place, ← newPlace_eq_placeOf fs cwd hslash]
    exact hnew
  refine isDirectory_iff.2 (lookup_eq_ok_iff.2
    ⟨place, place_of_kept (fun _ ↦ directory_put (by simp [hnone]) _) hplace, ?_⟩)
  rw [node?_put fs hroot, if_pos rfl]

theorem makeDirectory_of_isDirectory (hslash : p.toList.getLast? ≠ some '/')
    (h : fs.isDirectory cwd p = true) : fs.makeDirectory cwd p = .error .exists := by
  obtain ⟨place, hplace, hnode⟩ := lookup_eq_ok_iff.1 (isDirectory_iff.1 h)
  have hchecked : fs.newPlace cwd p >>= checked = .ok place := by
    rw [newPlace_eq_placeOf fs cwd hslash]
    exact hplace
  rw [makeDirectory, ← bind_assoc, hchecked]
  simp only [bind, Except.bind, hnode]
  rfl

/-! ## With all that is missing above it -/

theorem made_of_makeAncestors (cwd : Place) (ps : List Path) (fs : FileSystem) :
    Made fs (fs.makeAncestors cwd ps).1 := by
  induction ps generalizing fs with
  | nil => exact .refl fs
  | cons p above ih =>
    rw [makeAncestors]
    split
    · exact .refl fs
    split
    · next hmade => exact made_of_makeDirectory hmade
    · -- The directories above are made first, and then the same directory is tried once more.
      have habove := ih fs
      split
      · next heq => rwa [heq] at habove
      · next heq =>
        rw [heq] at habove
        split
        · next hmade => exact habove.trans (made_of_makeDirectory hmade)
        · exact habove
    · exact .refl fs

theorem made_of_makeDirectories (cwd : Place) (p : Path) (fs : FileSystem) :
    Made fs (fs.makeDirectories cwd p).1 :=
  made_of_makeAncestors cwd (Path.ancestors p) fs

theorem isDirectory_of_makeDirectories (hne : p.isEmpty = false)
    (hslash : p.toList.getLast? ≠ some '/') (h : fs.makeDirectories cwd p = (gs, none)) :
    gs.isDirectory cwd p = true := by
  have htried {fs gs : FileSystem} {e : IoError}
      (h : (fs, if fs.isDirectory cwd p then none else some e) = (gs, none)) :
      gs.isDirectory cwd p = true := by
    obtain ⟨rfl, hnone⟩ := Prod.mk.inj h
    by_contra hno
    rw [if_neg hno] at hnone
    cases hnone
  rw [makeDirectories, Path.ancestors, makeAncestors, hne, if_neg Bool.false_ne_true] at h
  split at h
  · next hmade =>
    cases h
    exact isDirectory_of_makeDirectory hslash hmade
  · split at h
    · cases h
    · split at h
      · next hmade =>
        cases h
        exact isDirectory_of_makeDirectory hslash hmade
      · exact htried h
  · exact htried h

theorem makeDirectories_of_isDirectory (hne : p.isEmpty = false)
    (hslash : p.toList.getLast? ≠ some '/') (h : fs.isDirectory cwd p = true) :
    fs.makeDirectories cwd p = (fs, none) := by
  rw [makeDirectories, Path.ancestors, makeAncestors, hne, if_neg Bool.false_ne_true,
    makeDirectory_of_isDirectory hslash h]
  simp only [h, if_true]

end NativeTransfer.FileSystem
