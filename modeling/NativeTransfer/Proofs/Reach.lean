import NativeTransfer.Proofs.Ancestry
import NativeTransfer.Proofs.WrittenFile

/-!
# Where a path without `..` leads

Without a `..` on it a path leads where its names do, one directory after the other, from the root
or from the working directory. So whether a directory has an entry can be told from the names alone
(`FileSystem.held?`), and how the directory is written matters only in so far as the system walks no
path that is too long or has a NUL in it (`FileSystem.Walkable`).
-/

namespace NativeTransfer.FileSystem

open NativeTransfer.Path (names namesIn IsName)

/-! ## Entries of directories -/

/-- Whether all names on a way down lead into directories. -/
def opens (fs : FileSystem) (here : Place) : List String → Bool
  | [] => true
  | name :: rest =>
    fits name && fs.node? (here ++ [name]) = some .directory && fs.opens (here ++ [name]) rest

/-- What a directory has under a name. -/
def held? (fs : FileSystem) (dir : Place) (name : String) : Option Node :=
  if fs.opens [] dir && fits name then fs.node? (dir ++ [name]) else none

/-- A path that the system walks at all. -/
structure Walkable (p : Path) : Prop where
  noNul : '\x00' ∉ p.toList
  short : (Text.utf8 p).length ≤ longestPath

instance (p : Path) : Decidable (Walkable p) :=
  decidable_of_iff ('\x00' ∉ p.toList ∧ (Text.utf8 p).length ≤ longestPath)
    ⟨fun h ↦ ⟨h.1, h.2⟩, fun h ↦ ⟨h.noNul, h.short⟩⟩

/-- Where a path is walked from. -/
def origin (cwd : Place) (p : Path) : Place := if Path.isAbsolute p then [] else cwd

variable {fs : FileSystem} {cwd here : Place} {p dir : Path} {name : String}

theorem opens_append (fs : FileSystem) (here : Place) (xs ys : List String) :
    fs.opens here (xs ++ ys) = (fs.opens here xs && fs.opens (here ++ xs) ys) := by
  induction xs generalizing here with
  | nil => simp [opens]
  | cons x xs ih => simp [opens, ih, Bool.and_assoc]

theorem all_fits_of_opens {xs : List String} (h : fs.opens here xs = true) : xs.all fits := by
  induction xs generalizing here with
  | nil => rfl
  | cons x xs ih =>
    rw [opens, Bool.and_eq_true, Bool.and_eq_true] at h
    rw [List.all_cons, h.1.1, ih h.2]
    rfl

/-! ## Walks -/

theorem walk_cons_of_idle {s : List Char} (h : Path.idle s = true) (rest : List (List Char)) :
    fs.walk here (s :: rest) = fs.walk here rest := by
  rw [walk, if_pos h]

/-- A walk may as well go along all that stands between the slashes of a path. -/
theorem walk_segments (fs : FileSystem) (here : Place) (p : Path) :
    fs.walk here (Path.parts p).segments = fs.walk here (Text.pieces '/' p.toList) := by
  have hbody (body : List Char) :
      fs.walk here (Path.segmentsOf body) = fs.walk here (Text.pieces '/' body) := by
    rw [Path.segmentsOf]
    split
    · next h => subst h; exact (walk_cons_of_idle rfl []).symm
    · rfl
  have hslash (body : List Char) : Text.pieces '/' ('/' :: body) = [] :: Text.pieces '/' body :=
    Text.pieces_append '/' [] body
  have hdot (body : List Char) :
      Text.pieces '/' ('.' :: '/' :: body) = ['.'] :: Text.pieces '/' body :=
    Text.pieces_append '/' ['.'] body
  rw [Path.parts]
  split
  · next heq => rw [heq, hbody, hslash, walk_cons_of_idle rfl]
  · next heq => rw [heq]; exact (walk_cons_of_idle rfl []).symm
  · next heq => rw [heq, hbody, hslash, hdot, walk_cons_of_idle rfl, walk_cons_of_idle rfl]
  · exact hbody _

/-- A walk without `..` to a last name ends there if all before it are directories. -/
theorem walk_concat {segments : List (List Char)} (hup : ".." ∉ namesIn segments)
    (h : IsName name) : (fs.walk here (segments ++ [name.toList])).toOption =
      if fs.opens here (namesIn segments) then some (here ++ namesIn segments ++ [name])
      else none := by
  induction segments generalizing here with
  | nil =>
    have hclimb : name.toList ≠ ['.', '.'] := fun he ↦ h.climbs (String.toList_injective he)
    rw [List.nil_append, walk, if_neg (by simp [h.idle]), if_neg hclimb, if_pos rfl,
      String.ofList_toList, Path.namesIn_nil, List.append_nil]
    rfl
  | cons s rest ih =>
    rw [List.cons_append]
    by_cases hidle : Path.idle s = true
    · rw [Path.namesIn_cons_of_idle hidle] at hup ⊢
      rw [walk_cons_of_idle hidle, ih hup]
    rw [Path.namesIn_cons (Bool.eq_false_of_not_eq_true hidle), List.mem_cons, not_or] at hup
    have hclimb : s ≠ ['.', '.'] := by
      rintro rfl
      exact hup.1 rfl
    rw [Path.namesIn_cons (Bool.eq_false_of_not_eq_true hidle), walk, if_neg hidle, if_neg hclimb,
      if_neg (List.append_ne_nil_of_right_ne_nil rest (List.cons_ne_nil _ _)), opens]
    cases hfits : fits (String.ofList s) with
    | false => rfl
    | true =>
      cases hnode : fs.node? (here ++ [String.ofList s]) with
      | none => rfl
      | some n =>
        cases n with
        | file | sealed => simp [Except.toOption]
        | directory =>
          have hbelow := @ih (here ++ [String.ofList s]) hup.2
          simpa [List.append_assoc] using hbelow

/-- A walk to a last name ends at a place of that name, whatever it climbs over. -/
theorem getLast?_of_walk {segments : List (List Char)} (h : IsName name) {place : Place}
    (hwalk : fs.walk here (segments ++ [name.toList]) = .ok place) :
    place.getLast? = some name := by
  induction segments generalizing here with
  | nil =>
    have hclimb : name.toList ≠ ['.', '.'] := fun he ↦ h.climbs (String.toList_injective he)
    rw [List.nil_append, walk, if_neg (by simp [h.idle]), if_neg hclimb, if_pos rfl,
      String.ofList_toList] at hwalk
    rw [← Except.ok.inj hwalk, List.getLast?_concat]
  | cons s rest ih =>
    rw [List.cons_append, walk] at hwalk
    split at hwalk
    · exact ih hwalk
    split at hwalk
    · exact ih hwalk
    rw [if_neg (List.append_ne_nil_of_right_ne_nil rest (List.cons_ne_nil _ _))] at hwalk
    split at hwalk
    · cases hwalk
    · split at hwalk
      · cases hwalk
      · cases hwalk
      · cases hwalk
      · exact ih hwalk

/-! ## Looking up -/

theorem lookup_eq (fs : FileSystem) (cwd : Place) (p : Path) :
    (fs.lookup cwd p).toOption = (fs.place cwd p).toOption.bind fs.node? := by
  rw [lookup]
  cases fs.place cwd p with
  | error e => rfl
  | ok place =>
    cases hnode : fs.node? place with
    | none => simp [bind, Except.bind, hnode, Except.toOption, throw, throwThe, MonadExceptOf.throw]
    | some n => simp [bind, Except.bind, hnode, Except.toOption, pure, Except.pure]

theorem placeOf_eq (fs : FileSystem) (cwd : Place) {p : Path} (hne : p.isEmpty = false)
    (segments : List (List Char)) : (fs.placeOf cwd p segments).toOption =
      if Walkable p then (fs.walk (origin cwd p) segments).toOption else none := by
  have horigin : (if (Path.parts p).start = .root then [] else cwd) = origin cwd p :=
    if_congr (Path.start_eq_root_iff p) rfl rfl
  rw [placeOf, horigin]
  by_cases hnul : '\x00' ∈ p.toList
  · rw [if_pos (List.contains_iff_mem.2 hnul), if_neg fun h ↦ h.noNul hnul]
    rfl
  rw [if_neg (mt List.contains_iff_mem.1 hnul), hne, if_neg Bool.false_ne_true]
  by_cases hlong : longestPath < (Text.utf8 p).length
  · rw [if_pos hlong, if_neg fun h ↦ absurd h.short (Nat.not_le.2 hlong)]
    rfl
  · rw [if_neg hlong, if_pos ⟨hnul, Nat.not_lt.1 hlong⟩]

theorem place_eq (fs : FileSystem) (cwd : Place) (p : Path) : (fs.place cwd p).toOption =
    (fs.placeOf cwd p (Path.parts p).segments).toOption.filter (·.all fits) := by
  rw [place]
  cases fs.placeOf cwd p (Path.parts p).segments with
  | error e => rfl
  | ok place =>
    change (checked place).toOption = Option.filter _ (some place)
    rw [checked, Option.filter_some]
    split <;> rfl

/-- Only a path that is walked leads anywhere, and the empty one does not. -/
theorem walkable_of_place {place : Place} (h : fs.place cwd p = .ok place) :
    p.isEmpty = false ∧ Walkable p := by
  have hne : p.isEmpty = false := by
    rw [Bool.eq_false_iff]
    intro hempty
    rw [FileSystem.place, placeOf, String.isEmpty_iff.1 hempty] at h
    cases h
  refine ⟨hne, ?_⟩
  by_contra hno
  have hok : (fs.place cwd p).toOption = some place := by
    rw [h]
    rfl
  rw [place_eq, placeOf_eq fs cwd hne, if_neg hno] at hok
  cases hok

/-- A path to a name in a directory, both without `..`, leads to what the directory has under that
name, if it is walked at all. -/
theorem lookup_join (horigin : fs.opens [] (origin cwd dir) = true) (hup : ".." ∉ names dir)
    (h : IsName name) : (fs.lookup cwd (Path.join dir name)).toOption =
      if Walkable (Path.join dir name) then fs.held? (origin cwd dir ++ names dir) name
      else none := by
  obtain ⟨segments, hpieces, hnames⟩ := Path.pieces_join dir h.isAbsolute
  have hsame : origin cwd (Path.join dir name) = origin cwd dir := by
    rw [origin, Path.isAbsolute_join dir h.isAbsolute]
    rfl
  have hopens : fs.opens [] (origin cwd dir ++ names dir) =
      fs.opens (origin cwd dir) (names dir) := by
    rw [opens_append, horigin, Bool.true_and, List.nil_append]
  rw [lookup_eq, place_eq, placeOf_eq fs cwd (Path.isEmpty_join dir h), walk_segments, hpieces,
    h.segments, hsame]
  split
  · rw [walk_concat (hnames ▸ hup) h, hnames, held?, hopens]
    cases hdown : fs.opens (origin cwd dir) (names dir) with
    | false => rfl
    | true =>
      have hfits : (origin cwd dir ++ names dir ++ [name]).all fits = fits name := by
        rw [List.all_append, all_fits_of_opens (hopens.trans hdown)]
        simp
      rw [if_pos rfl, Option.filter_some, hfits]
      cases hname : fits name with
      | false => rfl
      | true => rfl
  · rfl

theorem getLast?_of_place_join {place : Place} (h : IsName name)
    (hplace : fs.place cwd (Path.join dir name) = .ok place) : place.getLast? = some name := by
  obtain ⟨segments, hpieces, -⟩ := Path.pieces_join dir h.isAbsolute
  have hok : (fs.place cwd (Path.join dir name)).toOption = some place := by
    rw [hplace]
    rfl
  rw [place_eq, placeOf_eq fs cwd (Path.isEmpty_join dir h), walk_segments, hpieces, h.segments,
    Option.filter_eq_some_iff] at hok
  obtain ⟨hwalk, -⟩ := hok
  split at hwalk
  · cases hw : fs.walk (origin cwd (Path.join dir name)) (segments ++ [name.toList]) with
    | error e =>
      rw [hw] at hwalk
      cases hwalk
    | ok walked =>
      rw [hw] at hwalk
      rw [← Option.some_inj.1 hwalk]
      exact getLast?_of_walk h hw
  · cases hwalk

/-! ## Paths that are walked -/

theorem length_utf8 (p : Path) :
    (Text.utf8 p).length = (p.toList.map Char.utf8Size).sum := by
  rw [Text.utf8, List.length_flatMap]
  simp

/-- If the path to a name under a directory is walked, so is that under any part of the directory's
text. -/
theorem Walkable.join {q : Path} (h : Walkable (Path.join p name))
    (hname : Path.isAbsolute name = false) (hpart : q.toList <:+: p.toList) :
    Walkable (Path.join q name) := by
  obtain ⟨before, after, hpart⟩ := hpart
  cases hrest : before ++ after with
  | nil =>
    obtain ⟨rfl, rfl⟩ := List.append_eq_nil_iff.1 hrest
    rw [List.nil_append, List.append_nil] at hpart
    rwa [String.toList_injective hpart]
  | cons c rest =>
    obtain ⟨slash, -, hp⟩ := Path.toList_join p hname
    obtain ⟨slash', hslash', hq⟩ := Path.toList_join q hname
    rw [← hpart] at hp
    refine ⟨fun hmem ↦ h.noNul ?_, ?_⟩
    · rw [hq, List.mem_append, List.mem_append] at hmem
      rw [hp]
      rcases hmem with (hmem | hmem) | hmem
      · simp [hmem]
      · rcases hslash' with rfl | rfl
        · cases hmem
        · exact absurd (List.mem_singleton.1 hmem) (by decide)
      · simp [hmem]
    · -- The slash takes no more room than a character that stands around `q` in `p`.
      have hshort := h.short
      have hroom : (slash'.map Char.utf8Size).sum ≤ c.utf8Size := by
        rcases hslash' with rfl | rfl
        · exact Nat.zero_le _
        · exact c.utf8Size_pos
      have haround := congrArg (fun cs ↦ (cs.map Char.utf8Size).sum) hrest
      rw [length_utf8, hp] at hshort
      rw [length_utf8, hq]
      simp only [List.map_append, List.map_cons, List.sum_append, List.sum_cons] at haround hshort ⊢
      omega

end NativeTransfer.FileSystem
