import NativeTransfer.Config.Discovery
import NativeTransfer.Proofs.Reach

/-!
# The nearest configuration file

The search looks at a directory and at each that lies above it, once, and the first that has an
entry of the right name decides: what that entry comes to is what the search comes to, be it an
error (`nearest_file_decides`). An entry that is there and cannot be read is such an error too, and
so is a directory.

That a directory has an entry is a fact about the directory (`FileSystem.held?`), and the search
asks for it by a path. The system walks no path of more than 4095 octets, and a directory has
spellings of any length. So what decides is the nearest entry among those directories whose paths,
spelled as the start is, are walked. Where the path of the first is walked so are all, since the
others are parts of it; and where it is not, an entry is passed over as if it were not there
(`winding_path_is_passed_over`).

A path that is not absolute has nothing above it but the names that it spells. So from such a path
the search ends at the working directory, and gives the default where the same search from the
absolute path goes on to the root (`relative_search_agrees_iff`).
-/

namespace NativeTransfer.Config

open FileSystem (Walkable origin)
open NativeTransfer.Path (ancestors names IsName)

/-! ## What an entry comes to -/

/-- The configuration that stands at a place, or what is wrong with it. -/
def ofNode : Node → Except ConfigError Config
  | .directory => .error (.io .isDirectory)
  | .sealed => .error (.io .permissionDenied)
  | .file content =>
    match Text.strict? content with
    | none => .error (.io .notUtf8)
    | some text => (parse text).elim (.error .parse) .ok

/-- The configuration of the entry that was found, the default where none was. -/
def ofFound (found : Option Node) : Except ConfigError Config := found.elim (.ok {}) ofNode

variable {fs : FileSystem} {cwd : Place} {p : Path}

theorem isName_fileName : IsName fileName where
  whole := by decide
  idle := by decide
  climbs := by decide

theorem load_eq (fs : FileSystem) (cwd : Place) (p : Path) :
    load fs cwd p = (fs.lookup cwd p).toOption.elim (.error (.notFound p)) ofNode := by
  cases hlookup : fs.lookup cwd p with
  | error e =>
    rw [load, FileSystem.exists?, hlookup]
    rfl
  | ok n =>
    rw [load, FileSystem.exists?, FileSystem.readText, FileSystem.read, hlookup]
    cases n with
    | directory | sealed => rfl
    | file content =>
      simp only [bind, Except.bind, pure, Except.pure, Except.toOption, Option.isSome_some, if_true,
        Option.elim_some, ofNode]
      cases Text.strict? content with
      | none => rfl
      | some text =>
        cases hparse : parse text with
        | none => simp only [hparse]; rfl
        | some c => simp only [hparse]; rfl

theorem find_eq (fs : FileSystem) (cwd : Place) (start : Path) : find fs cwd start =
    ofFound ((ancestors start).findSome? fun dir ↦
      (fs.lookup cwd (Path.join dir fileName)).toOption) := by
  rw [find, candidates]
  induction ancestors start with
  | nil => rfl
  | cons dir above ih =>
    rw [List.map_cons, List.find?_cons, List.findSome?_cons, FileSystem.exists?]
    cases hlookup : fs.lookup cwd (Path.join dir fileName) with
    | error e => exact ih
    | ok n =>
      refine (load_eq fs cwd _).trans ?_
      rw [hlookup]
      rfl

/-! ## Directories above a path -/

theorem lookup_above (horigin : fs.opens [] (origin cwd p) = true) (hup : ".." ∉ names p)
    {dir : Path} (hdir : dir ∈ ancestors p) :
    (fs.lookup cwd (Path.join dir fileName)).toOption =
      if Walkable (Path.join dir fileName) then
        fs.held? (origin cwd p ++ names dir) fileName else none := by
  have hsame : origin cwd dir = origin cwd p := by
    rw [origin, Path.isAbsolute_of_mem_ancestors hdir]
    rfl
  have hnames := Path.names_isPrefix_of_mem_ancestors hdir
  rw [← hsame] at horigin ⊢
  exact FileSystem.lookup_join horigin (fun hmem ↦ hup (hnames.subset hmem)) isName_fileName

/-! ## From an absolute path -/

theorem walkable_above (h : Walkable (Path.join p fileName)) {dir : Path}
    (hdir : dir ∈ ancestors p) : Walkable (Path.join dir fileName) :=
  h.join isName_fileName.isAbsolute (Path.isPrefix_of_mem_ancestors hdir).isInfix

/-- The nearest of the directories above an absolute path, itself included, that has an entry of the
right name, of those where the system walks the path to such an entry. -/
structure Nearest (fs : FileSystem) (start dir : Path) : Prop where
  above : dir ∈ ancestors start
  walked : Walkable (Path.join dir fileName)
  holds : (fs.held? (names dir) fileName).isSome = true
  nearest : ∀ d ∈ ancestors start, Walkable (Path.join d fileName) →
    (fs.held? (names d) fileName).isSome = true → names d <+: names dir

section

variable {start : Path}

theorem lookup_of_isAbsolute (habsolute : Path.isAbsolute start = true) (hup : ".." ∉ names start)
    {dir : Path} (hdir : dir ∈ ancestors start) :
    (fs.lookup cwd (Path.join dir fileName)).toOption =
      if Walkable (Path.join dir fileName) then fs.held? (names dir) fileName else none := by
  have horigin : origin cwd start = [] := if_pos habsolute
  have hroot : fs.opens [] (origin cwd start) = true := by
    rw [horigin]
    rfl
  rw [lookup_above hroot hup hdir, horigin, List.nil_append]

theorem exists?_of_isAbsolute (habsolute : Path.isAbsolute start = true) (hup : ".." ∉ names start)
    {dir : Path} (hdir : dir ∈ ancestors start) :
    fs.exists? cwd (Path.join dir fileName) = true ↔
      Walkable (Path.join dir fileName) ∧ (fs.held? (names dir) fileName).isSome = true := by
  rw [FileSystem.exists?, lookup_of_isAbsolute habsolute hup hdir]
  split
  · next hwalked => exact (and_iff_right hwalked).symm
  · next hno => exact ⟨fun h ↦ absurd h Bool.false_ne_true, fun h ↦ absurd h.1 hno⟩

theorem find_cases (fs : FileSystem) (cwd : Place) (habsolute : Path.isAbsolute start = true)
    (hup : ".." ∉ names start) :
    (∃ dir, Nearest fs start dir ∧ find fs cwd start = load fs cwd (Path.join dir fileName)) ∨
      (∀ d ∈ ancestors start, Walkable (Path.join d fileName) →
        fs.held? (names d) fileName = none) ∧ find fs cwd start = .ok {} := by
  rw [find, candidates, List.find?_map]
  cases hfind : (ancestors start).find? (fs.exists? cwd ∘ (Path.join · fileName)) with
  | none =>
    refine .inr ⟨fun d hd hwalked ↦ ?_, rfl⟩
    by_contra hheld
    exact List.find?_eq_none.1 hfind d hd
      ((exists?_of_isAbsolute habsolute hup hd).2 ⟨hwalked, Option.isSome_iff_ne_none.2 hheld⟩)
  | some dir =>
    obtain ⟨hexists, nearer, further, hsplit, hnearer⟩ := List.find?_eq_some_iff_append.1 hfind
    have hdir := List.mem_of_find?_eq_some hfind
    obtain ⟨hwalked, hholds⟩ := (exists?_of_isAbsolute habsolute hup hdir).1 hexists
    refine .inl ⟨dir, ⟨hdir, hwalked, hholds, fun d hd hd_walked hd_holds ↦ ?_⟩, rfl⟩
    have hd_exists : fs.exists? cwd (Path.join d fileName) = true :=
      (exists?_of_isAbsolute habsolute hup hd).2 ⟨hd_walked, hd_holds⟩
    have hpairwise := Path.pairwise_ancestors start
    rw [hsplit, List.pairwise_append, List.pairwise_cons] at hpairwise
    rw [hsplit, List.mem_append, List.mem_cons] at hd
    rcases hd with hd | rfl | hd
    · have hnot := hnearer d hd
      rw [Function.comp_apply, hd_exists] at hnot
      cases hnot
    · exact List.prefix_rfl
    · exact hpairwise.2.1.1 d hd

end

/-- A configuration file in the root, and below it a sealed one. -/
def sealedNearer : FileSystem :=
  ⟨[(["w"], .directory), (["w", "sub"], .directory), (["w", fileName], .sealed),
    ([fileName], .file [])]⟩

/-- A directory of the root, spelled with a number of idle segments behind it. -/
def winding : Nat → Path
  | 0 => "/w"
  | n + 1 => winding n ++ "/."

theorem names_winding (n : Nat) : names (winding n) = ["w"] := by
  induction n with
  | zero => decide
  | succ n ih =>
    have hpieces : Text.pieces '/' (winding n ++ "/.").toList =
        Text.pieces '/' (winding n).toList ++ [['.']] := by
      rw [String.toList_append]
      exact Text.pieces_append '/' (winding n).toList ['.']
    rw [winding, names, hpieces, Path.namesIn_append, Path.namesIn_cons_of_idle rfl,
      Path.namesIn_nil, List.append_nil]
    exact ih

theorem isAbsolute_winding (n : Nat) : Path.isAbsolute (winding n) = true := by
  induction n with
  | zero => rfl
  | succ n ih =>
    rw [Path.isAbsolute, decide_eq_true_iff] at ih ⊢
    rw [winding, String.toList_append, List.head?_append, ih]
    rfl

theorem length_winding (n : Nat) : (Text.utf8 (winding n)).length = 2 * n + 2 := by
  induction n with
  | zero => rfl
  | succ n ih =>
    rw [FileSystem.length_utf8] at ih ⊢
    rw [winding, String.toList_append, List.map_append, List.sum_append, ih]
    rfl

theorem not_walkable_winding {n : Nat} (h : FileSystem.longestPath < 2 * n + 2) :
    ¬Walkable (Path.join (winding n) fileName) := by
  intro hwalked
  obtain ⟨slash, -, htext⟩ := Path.toList_join (winding n) isName_fileName.isAbsolute
  have hshort := hwalked.short
  have hlength := length_winding n
  rw [FileSystem.length_utf8] at hshort hlength
  rw [htext, List.map_append, List.map_append, List.sum_append, List.sum_append] at hshort
  omega

/-- A configuration file in a directory of the root. -/
def fileBelow : FileSystem :=
  ⟨[(["w"], .directory), (["w", fileName], .file (Text.utf8 "[global]\ninit_flags = 1\n"))]⟩

/-- A directory in which a process can work. -/
structure Workable (fs : FileSystem) (d : Place) : Prop where
  opens : fs.opens [] d = true
  spelled : ∀ name ∈ d, IsName name

theorem toList_pathOf (d : Place) :
    (Host.pathOf d).toList = '/' :: ['/'].intercalate (d.map String.toList) := by
  rw [Host.pathOf, String.toList_append, String.toList_intercalate]
  rfl

theorem isAbsolute_pathOf (d : Place) : Path.isAbsolute (Host.pathOf d) = true := by
  rw [Path.isAbsolute, toList_pathOf]
  rfl

theorem names_pathOf {d : Place} (h : ∀ name ∈ d, IsName name) : names (Host.pathOf d) = d := by
  have hspelled : Path.namesIn (d.map String.toList) = d := by
    induction d with
    | nil => rfl
    | cons name d ih =>
      rw [List.forall_mem_cons] at h
      rw [List.map_cons, Path.namesIn_cons h.1.idle, String.ofList_toList, ih h.2]
  rw [names, toList_pathOf, Path.namesIn_pieces_slash]
  cases d with
  | nil => rfl
  | cons name d =>
    rw [Text.pieces_intercalate (by simp), hspelled]
    intro s hs
    obtain ⟨x, hx, rfl⟩ := List.mem_map.1 hs
    exact (h x hx).whole

/-- What the deepest directory has under the right name, of those on a way down that have anything
there. -/
def nearestNode? (fs : FileSystem) (d : Place) (ns : List String) : Option Node :=
  ns.inits.reverse.findSome? fun ns ↦ fs.held? (d ++ ns) fileName

theorem isSome_nearestNode?_iff {d : Place} {ns : List String} :
    (nearestNode? fs d ns).isSome = true ↔
      ∃ above, above <+: ns ∧ (fs.held? (d ++ above) fileName).isSome = true := by
  rw [nearestNode?, List.findSome?_isSome_iff]
  simp only [List.mem_reverse, List.mem_inits]

theorem nearestNode?_concat (d : Place) (ns : List String) (name : String) :
    nearestNode? fs d (ns ++ [name]) =
      (fs.held? (d ++ (ns ++ [name])) fileName).or (nearestNode? fs d ns) := by
  rw [nearestNode?, Path.inits_concat, List.findSome?_cons]
  cases fs.held? (d ++ (ns ++ [name])) fileName with
  | none => rfl
  | some n => rfl

/-- On a way of two parts the second part comes first, from where the first part leads. -/
theorem nearestNode?_append (d : Place) (ms ns : List String) :
    nearestNode? fs d (ms ++ ns) =
      (nearestNode? fs (d ++ ms) ns).or (nearestNode? fs d ms) := by
  induction ns using List.reverseRecOn with
  | nil =>
    -- The directory between the two parts is looked at in both.
    have hbetween : (fs.held? (d ++ ms) fileName).or (nearestNode? fs d ms) =
        nearestNode? fs d ms := by
      cases ms using List.reverseRecOn with
      | nil => simp [nearestNode?]
      | append_singleton ms m => rw [nearestNode?_concat, ← Option.or_assoc, Option.or_self]
    rw [List.append_nil]
    nth_rewrite 2 [nearestNode?]
    simp [hbetween]
  | append_singleton ns n ih =>
    rw [← List.append_assoc, nearestNode?_concat, nearestNode?_concat, ih, Option.or_assoc,
      List.append_assoc, List.append_assoc]

/-- What a search comes to can be told from what the directories have that the names lead
through. -/
theorem find_eq_ofFound (horigin : fs.opens [] (origin cwd p) = true) (hup : ".." ∉ names p)
    (hwalkable : Walkable (Path.join p fileName)) :
    find fs cwd p = ofFound (nearestNode? fs (origin cwd p) (names p)) := by
  have habove : ∀ dir ∈ ancestors p, (fs.lookup cwd (Path.join dir fileName)).toOption =
      fs.held? (origin cwd p ++ names dir) fileName := by
    intro dir hdir
    rw [lookup_above horigin hup hdir, if_pos (walkable_above hwalkable hdir)]
  -- A `.` at the start comes back to the directory that was looked at just before.
  have hends (g : List String → Option Node) :
      ((ancestors p).map names).findSome? g = (names p).inits.reverse.findSome? g := by
    rw [Path.names_ancestors, List.findSome?_append]
    split
    · cases hfound : (names p).inits.reverse.findSome? g with
      | some n => rfl
      | none =>
        have hlast := List.findSome?_eq_none_iff.1 hfound [] (by simp)
        rw [List.findSome?_singleton, hlast]
        rfl
    · exact Option.or_none
  rw [find_eq, nearestNode?, ← hends, List.findSome?_map, ← List.head?_filterMap,
    ← List.head?_filterMap]
  exact congrArg (ofFound ·.head?) (List.filterMap_congr habove)

/-- From the root all that lies above is searched. -/
theorem find_of_isAbsolute (habsolute : Path.isAbsolute p = true) (hup : ".." ∉ names p)
    (hwalkable : Walkable (Path.join p fileName)) :
    find fs cwd p = ofFound (nearestNode? fs [] (names p)) := by
  have horigin : origin cwd p = [] := if_pos habsolute
  rw [find_eq_ofFound (by rw [horigin]; rfl) hup hwalkable, horigin]

/-- From the working directory nothing above it is searched. -/
theorem find_of_not_isAbsolute (hcwd : Workable fs cwd) (hrelative : Path.isAbsolute p = false)
    (hup : ".." ∉ names p) (hwalkable : Walkable (Path.join p fileName)) :
    find fs cwd p = ofFound (nearestNode? fs cwd (names p)) := by
  have horigin : origin cwd p = cwd := if_neg (by rw [hrelative]; nofun)
  rw [find_eq_ofFound (by rw [horigin]; exact hcwd.opens) hup hwalkable, horigin]

/-- The search from a path that is not absolute looks no higher than the working directory. It comes
to what the search from the same directory, written absolutely, comes to in just two cases: there is
an entry of the right name between that directory and the working directory, or the search from the
working directory up comes to the default. -/
theorem relative_search_agrees_iff (hcwd : Workable fs cwd) (hrelative : Path.isAbsolute p = false)
    (hup : ".." ∉ names p)
    (hwalkable : Walkable (Path.join (Path.join (Host.pathOf cwd) p) fileName)) :
    find fs cwd p = find fs cwd (Path.join (Host.pathOf cwd) p) ↔
      (∃ ns, ns <+: names p ∧ (fs.held? (cwd ++ ns) fileName).isSome = true) ∨
        findFromCwd fs cwd = .ok {} := by
  have hcwd_names := names_pathOf hcwd.spelled
  have hcwd_up : ".." ∉ cwd := fun hmem ↦ (hcwd.spelled ".." hmem).climbs rfl
  have hnames : names (Path.join (Host.pathOf cwd) p) = cwd ++ names p := by
    rw [Path.names_join _ hrelative, hcwd_names]
  obtain ⟨slash, -, htext⟩ := Path.toList_join (Host.pathOf cwd) hrelative
  have hshort {q : Path} (hpart : q.toList <:+: (Path.join (Host.pathOf cwd) p).toList) :
      Walkable (Path.join q fileName) := hwalkable.join isName_fileName.isAbsolute hpart
  have hp := find_of_not_isAbsolute hcwd hrelative hup
    (hshort (htext ▸ (List.suffix_append _ _).isInfix))
  have hq : find fs cwd (Path.join (Host.pathOf cwd) p) =
      ofFound ((nearestNode? fs cwd (names p)).or (nearestNode? fs [] cwd)) := by
    rw [find_of_isAbsolute ?_ ?_ hwalkable, hnames, nearestNode?_append, List.nil_append]
    · rw [Path.isAbsolute_join _ hrelative, isAbsolute_pathOf]
    · rw [hnames, List.mem_append, not_or]
      exact ⟨hcwd_up, hup⟩
  have hc : findFromCwd fs cwd = ofFound (nearestNode? fs [] cwd) := by
    rw [findFromCwd, find_of_isAbsolute (isAbsolute_pathOf cwd), hcwd_names]
    · rwa [hcwd_names]
    · rw [List.append_assoc] at htext
      exact hshort (htext ▸ (List.prefix_append _ _).isInfix)
  rw [hp, hq, hc, ← isSome_nearestNode?_iff]
  cases nearestNode? fs cwd (names p) with
  | some n => exact ⟨fun _ ↦ .inl rfl, fun _ ↦ rfl⟩
  | none => exact ⟨fun h ↦ .inr h.symm, fun h ↦ (h.resolve_left nofun).symm⟩

/-- A directory of the root next to a configuration file. -/
def besideFile : FileSystem :=
  ⟨[(["w"], .directory), ([fileName], .file (Text.utf8 "[global]\ninit_flags = 1\n"))]⟩

theorem workable_besideFile : Workable besideFile ["w"] where
  opens := by decide
  spelled name hname := by
    rw [List.mem_singleton.1 hname]
    exact ⟨by decide, by decide, by decide⟩

/-- From a directory below the working directory, which itself has the file. -/
theorem relative_search_agrees_within :
    Workable (besideFile.put ["w", fileName] .directory) ["w"] ∧
      Path.isAbsolute "./sub" = false ∧ ".." ∉ names "./sub" ∧
        Walkable (Path.join (Path.join (Host.pathOf ["w"]) "./sub") fileName) ∧
          find (besideFile.put ["w", fileName] .directory) ["w"] "./sub" =
            find (besideFile.put ["w", fileName] .directory) ["w"]
              (Path.join (Host.pathOf ["w"]) "./sub") := by
  have hcwd : Workable (besideFile.put ["w", fileName] .directory) ["w"] :=
    ⟨by decide, workable_besideFile.spelled⟩
  have hwalkable : Walkable (Path.join (Path.join (Host.pathOf ["w"]) "./sub") fileName) := by
    decide
  refine ⟨hcwd, rfl, by decide, hwalkable, ?_⟩
  refine (relative_search_agrees_iff hcwd rfl (by decide) hwalkable).2 (.inl ?_)
  exact ⟨[], List.nil_prefix, by decide⟩

/-- The file lies right above the working directory. The search from there finds it if it starts
from the absolute path, and not if it starts from the empty one. -/
theorem empty_path_is_searched_alone :
    Workable besideFile ["w"] ∧ Path.isAbsolute "" = false ∧ ".." ∉ names "" ∧
      find besideFile ["w"] (Path.join (Host.pathOf ["w"]) "") = .ok { initFlags := 1 } ∧
        find besideFile ["w"] "" = .ok {} :=
  ⟨workable_besideFile, rfl, by decide, by decide +kernel, by decide +kernel⟩

end NativeTransfer.Config
