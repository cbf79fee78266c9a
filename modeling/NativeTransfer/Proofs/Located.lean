import NativeTransfer.Library.Search
import NativeTransfer.Proofs.Reach

/-!
# What is found and what is loaded

The search for a module asks of each candidate only whether anything stands there. The loader asks
more: it opens a path with a slash as the file that it leads to, and a name without one it looks for
in directories of its own. So the two agree on a file at a path with a slash, and on nothing else. A
directory, or an entry of the working directory that a bare name happens to lead to, stops the
search all the same (`located_is_opened_iff`).

## Where they part

A candidate that exists is opened as the file that it is, or it is an impostor, and which of the two
it is can be told from the path and the file system alone (`opened_or_impostor`). The search stops
at the first candidate that exists. So it agrees with the loader on what it gives just if no
impostor comes before the first candidate that is opened, and that is what is proved, in both
directions.

The loader's own directories are a part of the machine. Where a bare name leads by way of them is
not the search's business, and so is said of no particular machine.
-/

namespace NativeTransfer

variable {h : Host} {p : Path} {place : Place}

/-! ## What the loader opens -/

namespace Host

theorem closed?_eq_some (hnul : '\x00' ∉ p.toList) : closed? p = some p := by
  have hlast : p.toList.getLast? ≠ some '\x00' := fun hlast ↦ hnul (List.mem_of_getLast? hlast)
  simp only [closed?, if_neg hlast, String.ofList_toList]
  rw [if_neg (mt List.contains_iff_mem.1 hnul)]

theorem moduleFile?_of_slash {n : Node} (hslash : '/' ∈ p.toList)
    (hplace : h.files.place h.cwd p = .ok place) (hnode : h.files.node? place = some n) :
    h.moduleFile? p = h.modules.lookup place := by
  obtain ⟨hne, hwalkable⟩ := FileSystem.walkable_of_place hplace
  rw [moduleFile?, closed?_eq_some hwalkable.noNul, Option.bind_some, moduleNamed?, hne,
    if_neg Bool.false_ne_true, if_pos (List.contains_iff_mem.2 hslash), hplace]
  simp only [hnode, Option.isSome_some, if_true]

theorem moduleFile?_of_bare (hne : p.isEmpty = false) (hnul : '\x00' ∉ p.toList)
    (hslash : '/' ∉ p.toList) : h.moduleFile? p =
      h.loaderDirectories.findSome? fun d ↦ h.modules.lookup (d ++ [p]) := by
  rw [moduleFile?, closed?_eq_some hnul, Option.bind_some, moduleNamed?, hne,
    if_neg Bool.false_ne_true, if_neg (mt List.contains_iff_mem.1 hslash)]

end Host

namespace Library

/-- A path that the loader opens as the file to which it leads, whether or not the process may read
it. -/
structure Opened (h : Host) (p : Path) (place : Place) : Prop where
  slash : '/' ∈ p.toList
  leads : h.files.place h.cwd p = .ok place
  file : ∃ n, h.files.node? place = some n ∧ n ≠ .directory
  loaded : h.moduleFile? p = h.modules.lookup place

/-- A path to an entry that is no file, or that the loader does not look at. -/
def Impostor (h : Host) (p : Path) : Prop :=
  h.exists? p = true ∧ ('/' ∈ p.toList → h.files.isDirectory h.cwd p = true)

theorem Opened.lookup (hp : Opened h p place) :
    ∃ n, h.files.lookup h.cwd p = .ok n ∧ n ≠ .directory := by
  obtain ⟨n, hnode, hfile⟩ := hp.file
  exact ⟨n, FileSystem.lookup_eq_ok_iff.2 ⟨place, hp.leads, hnode⟩, hfile⟩

theorem Opened.exists? (hp : Opened h p place) : h.exists? p = true := by
  obtain ⟨n, hlookup, -⟩ := hp.lookup
  exact FileSystem.exists?_iff.2 ⟨_, hlookup⟩

/-- Whatever exists is opened as the file that it is, or it is an impostor. -/
theorem opened_or_impostor (hp : h.exists? p = true) :
    (∃ place, Opened h p place) ∨ Impostor h p := by
  obtain ⟨n, hlookup⟩ := FileSystem.exists?_iff.1 hp
  obtain ⟨place, hplace, hnode⟩ := FileSystem.lookup_eq_ok_iff.1 hlookup
  by_cases hslash : '/' ∈ p.toList
  · by_cases hdirectory : n = .directory
    · subst hdirectory
      exact .inr ⟨hp, fun _ ↦ FileSystem.isDirectory_iff.2 hlookup⟩
    · exact .inl ⟨place, hslash, hplace, ⟨n, hnode, hdirectory⟩,
        Host.moduleFile?_of_slash hslash hplace hnode⟩
  · exact .inr ⟨hp, fun h ↦ absurd h hslash⟩

theorem Opened.not_impostor (hp : Opened h p place) : ¬Impostor h p := by
  rintro ⟨-, hdirectory⟩
  obtain ⟨n, hlookup, hfile⟩ := hp.lookup
  have hdir := FileSystem.isDirectory_iff.1 (hdirectory hp.slash)
  exact hfile (Except.ok.inj (hlookup.symm.trans hdir))

/-! ## The order of the search -/

/-- All candidates in the order in which they are tried. -/
def Search.order (s : Search) : List Path := s.names.flatMap s.candidates

theorem Search.locate?_eq {s : Search} (hs : s.explicit = none) (h : Host) :
    s.locate? h = s.order.find? h.exists? := by
  rw [locate?, hs, Option.none_or, order, List.find?_flatMap]
  rfl

theorem explicit_ofConfig {c : LibraryConfig} (hpath : c.path = none)
    (henv : h.env? overrideVariable = none) : (Search.ofConfig h c).explicit = none := by
  rw [Search.ofConfig, hpath, Option.or_none]
  exact henv

theorem slash_mem_join {dir : Path} (hdir : dir ≠ "") (name : Path) :
    '/' ∈ (Path.join dir name).toList := by
  rw [Path.join]
  by_cases habsolute : Path.isAbsolute name = true
  · rw [habsolute, Bool.true_or, if_pos rfl]
    exact List.mem_of_mem_head? (of_decide_eq_true habsolute)
  · rw [Bool.eq_false_of_not_eq_true habsolute, Bool.false_or,
      if_neg (mt String.isEmpty_iff.1 hdir)]
    split
    · next hlast =>
      rw [String.toList_append]
      exact List.mem_append_left _ (List.mem_of_getLast? hlast)
    · simp

/-- Only configured directories can be empty paths. -/
theorem ne_empty_of_mem_standard {dir : Path} (hdir : dir ∈ (Search.standard h).paths) :
    dir ≠ "" := by
  rintro rfl
  rw [Search.standard, List.cons_append, List.mem_cons, List.mem_append] at hdir
  rcases hdir with hdir | hdir | hdir
  · have hroot := congrArg String.toList hdir
    rw [Host.pathOf, String.toList_append] at hroot
    cases hroot
  · exact absurd hdir (by decide)
  · rw [environmentDirectories] at hdir
    split at hdir
    · cases hdir
    · obtain ⟨piece, hpiece, hempty⟩ := List.mem_map.1 hdir
      obtain ⟨-, hne⟩ := List.mem_filter.1 hpiece
      refine of_decide_eq_true hne ?_
      rw [← String.toList_ofList (l := piece), hempty]
      rfl

theorem bare_of_mem_order {c : LibraryConfig} (hp : p ∈ (Search.ofConfig h c).order)
    (hslash : '/' ∉ p.toList) : p ∈ (Search.ofConfig h c).names ∨
      "" ∈ c.searchPaths ∧ ∃ name ∈ (Search.ofConfig h c).names, p = fileName name := by
  obtain ⟨name, hname, hp⟩ := List.mem_flatMap.1 hp
  rw [Search.candidates, List.mem_cons] at hp
  rcases hp with rfl | hp
  · exact .inl hname
  · obtain ⟨dir, hdir, rfl⟩ := List.mem_map.1 hp
    have hempty : dir = "" := by
      by_contra hne
      exact hslash (slash_mem_join hne _)
    subst hempty
    rw [Search.ofConfig, List.mem_append] at hdir
    rcases hdir with hdir | hdir
    · refine .inr ⟨hdir, name, hname, ?_⟩
      rw [Path.join]
      simp
    · exact absurd rfl (ne_empty_of_mem_standard hdir)

/-! ## Agreement -/

/-- What the search gives is opened as the file that it found just if every impostor among the
candidates comes after a file that is opened. -/
theorem opened_of_locate?_iff {s : Search} (hs : s.explicit = none) :
    (∀ p, s.locate? h = some p → ∃ place, Opened h p place) ↔
      ∀ before p after, s.order = before ++ p :: after → Impostor h p →
        ∃ q ∈ before, ∃ place, Opened h q place := by
  constructor
  · intro hopened before p after horder himpostor
    rw [Search.locate?_eq hs, horder, List.find?_append,
      List.find?_cons_of_pos himpostor.1] at hopened
    -- An impostor exists, so the search goes no further than to it.
    cases hbefore : before.find? h.exists? with
    | none =>
      rw [hbefore] at hopened
      obtain ⟨place, hp⟩ := hopened p rfl
      exact absurd himpostor hp.not_impostor
    | some q =>
      rw [hbefore] at hopened
      exact ⟨q, List.mem_of_find?_eq_some hbefore, hopened q rfl⟩
  · intro hbehind p hp
    rw [Search.locate?_eq hs, List.find?_eq_some_iff_append] at hp
    obtain ⟨hexists, before, after, horder, hnone⟩ := hp
    rcases opened_or_impostor hexists with hopened | himpostor
    · exact hopened
    · obtain ⟨q, hq, place, hplace⟩ := hbehind before p after horder himpostor
      have hmissing := hnone q hq
      rw [hplace.exists?] at hmissing
      cases hmissing

/-- A name without a slash that is found is one that was asked for, or the file name of one where an
empty directory was configured. What the loader makes of it does not depend on any file that is
found by a path. -/
theorem bare_of_locate? {c : LibraryConfig} (hs : (Search.ofConfig h c).explicit = none)
    (hp : (Search.ofConfig h c).locate? h = some p) (hslash : '/' ∉ p.toList) :
    (p ∈ (Search.ofConfig h c).names ∨
      "" ∈ c.searchPaths ∧ ∃ name ∈ (Search.ofConfig h c).names, p = fileName name) ∧
    ∀ other : Host, other.modules = h.modules → other.loaderDirectories = h.loaderDirectories →
      other.moduleFile? p = h.moduleFile? p := by
  rw [Search.locate?_eq hs] at hp
  refine ⟨bare_of_mem_order (List.mem_of_find?_eq_some hp) hslash, fun other hmodules hdirs ↦ ?_⟩
  obtain ⟨n, hlookup⟩ := FileSystem.exists?_iff.1 (List.find?_some hp)
  obtain ⟨place, hplace, -⟩ := FileSystem.lookup_eq_ok_iff.1 hlookup
  obtain ⟨hne, hwalkable⟩ := FileSystem.walkable_of_place hplace
  rw [Host.moduleFile?_of_bare hne hwalkable.noNul hslash,
    Host.moduleFile?_of_bare hne hwalkable.noNul hslash, hmodules, hdirs]

/-- Without an explicit path, what the search gives is the file that the loader opens just if every
impostor among the candidates comes after such a file. Otherwise what it gives is a directory, or a
name without a slash, and for that the loader does not look at what was found. -/
theorem located_is_opened_iff {c : LibraryConfig} (hpath : c.path = none)
    (henv : h.env? overrideVariable = none) :
    ((∀ p, (Search.ofConfig h c).locate? h = some p → ∃ place, Opened h p place) ↔
      ∀ before p after, (Search.ofConfig h c).order = before ++ p :: after → Impostor h p →
        ∃ q ∈ before, ∃ place, Opened h q place) ∧
    ∀ p, (Search.ofConfig h c).locate? h = some p →
      (∃ place, Opened h p place) ∨
      ('/' ∈ p.toList ∧ h.files.isDirectory h.cwd p = true) ∨
      '/' ∉ p.toList ∧
        (p ∈ (Search.ofConfig h c).names ∨
          "" ∈ c.searchPaths ∧ ∃ name ∈ (Search.ofConfig h c).names, p = fileName name) ∧
        ∀ other : Host, other.modules = h.modules →
          other.loaderDirectories = h.loaderDirectories →
            other.moduleFile? p = h.moduleFile? p := by
  have hs := explicit_ofConfig hpath henv
  refine ⟨opened_of_locate?_iff hs, fun p hp ↦ ?_⟩
  by_cases hslash : '/' ∈ p.toList
  · have hexists : h.exists? p = true := by
      rw [Search.locate?_eq hs] at hp
      exact List.find?_some hp
    rcases opened_or_impostor hexists with hopened | himpostor
    · exact .inl hopened
    · exact .inr (.inl ⟨hslash, himpostor.2 hslash⟩)
  · exact .inr (.inr ⟨hslash, bare_of_locate? hs hp hslash⟩)

/-- A machine with a library in a search path, and a directory with the library's name where the
process works. -/
def namesake : Host where
  files := ⟨[(["w"], .directory), (["w", "zq"], .directory), (["w", "p"], .directory),
    (["w", "p", "libzq.so.4"], .file [])]⟩
  cwd := ["w"]
  environment := []
  modules := [(["w", "p", "libzq.so.4"], ⟨[], none⟩)]
  refusal := ""

theorem opened_namesake : Opened namesake "/w/p/libzq.so.4" ["w", "p", "libzq.so.4"] where
  slash := by decide
  leads := by decide
  file := ⟨.file [], rfl, nofun⟩
  loaded := by decide

/-- The library is found if a path to it is asked for before the name that leads to the
directory. -/
theorem located_is_opened_iff_namesake :
    namesake.env? overrideVariable = none ∧
      (∀ before p after, (Search.ofConfig namesake ⟨none, ["./p/libzq.so.4", "zq"], []⟩).order =
        before ++ p :: after → Impostor namesake p →
          ∃ q ∈ before, ∃ place, Opened namesake q place) ∧
      (Search.ofConfig namesake ⟨none, ["./p/libzq.so.4", "zq"], []⟩).locate? namesake =
        some "./p/libzq.so.4" ∧
      ∃ place, Opened namesake "./p/libzq.so.4" place := by
  have hopened : Opened namesake "./p/libzq.so.4" ["w", "p", "libzq.so.4"] :=
    ⟨by decide, by decide, ⟨.file [], rfl, nofun⟩, by decide⟩
  have hbehind : ∀ before p after,
      (Search.ofConfig namesake ⟨none, ["./p/libzq.so.4", "zq"], []⟩).order = before ++ p :: after →
        Impostor namesake p → ∃ q ∈ before, ∃ place, Opened namesake q place := by
    rintro (_ | ⟨first, before⟩) p after horder himpostor
    · obtain rfl : "./p/libzq.so.4" = p := (List.cons.inj horder).1
      exact absurd himpostor hopened.not_impostor
    · obtain rfl : "./p/libzq.so.4" = first := (List.cons.inj horder).1
      exact ⟨_, List.mem_cons_self, _, hopened⟩
  have hlocate : (Search.ofConfig namesake ⟨none, ["./p/libzq.so.4", "zq"], []⟩).locate? namesake =
      some "./p/libzq.so.4" := by decide
  exact ⟨rfl, hbehind, hlocate, (located_is_opened_iff rfl rfl).1.2 hbehind _ hlocate⟩

/-- The directory is found in place of the library. -/
theorem directory_is_located :
    namesake.env? overrideVariable = none ∧
      "/w/p/libzq.so.4" ∈ (Search.ofConfig namesake ⟨none, ["zq"], ["/w/p"]⟩).order ∧
        Opened namesake "/w/p/libzq.so.4" ["w", "p", "libzq.so.4"] ∧
          (Search.ofConfig namesake ⟨none, ["zq"], ["/w/p"]⟩).locate? namesake = some "zq" ∧
            Impostor namesake "zq" ∧ namesake.files.isDirectory ["w"] "zq" = true :=
  ⟨rfl, by decide, opened_namesake, by decide, ⟨by decide, by decide⟩, by decide⟩

end Library

end NativeTransfer
