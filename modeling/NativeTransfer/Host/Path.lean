import NativeTransfer.Text.Pieces

/-!
# Paths as they are written

A path is a text, and it stays the text that it was: nothing is looked up or normalised when paths
are joined. Climbing to the parent is the one operation that looks inside. It passes over empty and
`.` segments at the end, because these name the same directory, and it removes a `..` like any other
segment, because that is a question about spelling and not about the disk.
-/

namespace NativeTransfer

/-- A path as written. -/
abbrev Path := String

namespace Path

/-! ## The parts of a path -/

/-- Where a path starts. -/
inductive Start
  /-- At the root: the path begins with a slash. -/
  | root
  /-- At an explicit `.` segment. -/
  | dot
  /-- Anywhere else, as for a plain name. -/
  | here
  deriving DecidableEq

/-- A path taken apart: what stands before the first segment, and the segments between slashes. -/
structure Parts where
  start : Start
  segments : List (List Char)
  deriving DecidableEq

/-- The segments of what follows the start, none where nothing follows. -/
def segmentsOf (body : List Char) : List (List Char) :=
  if body = [] then [] else Text.pieces '/' body

/-- The parts of a path. -/
def parts (p : Path) : Parts :=
  match p.toList with
  | '/' :: body => ⟨.root, segmentsOf body⟩
  | ['.'] => ⟨.dot, []⟩
  | '.' :: '/' :: body => ⟨.dot, segmentsOf ('/' :: body)⟩
  | body => ⟨.here, segmentsOf body⟩

def Start.text : Start → List Char
  | .root => ['/']
  | .dot => ['.']
  | .here => []

/-- The path that parts spell. -/
def Parts.path (v : Parts) : Path :=
  String.ofList (v.start.text ++ ['/'].intercalate v.segments)

/-! ## Going up -/

/-- A segment that stays where it is. -/
def idle (s : List Char) : Bool := s = [] || s = ['.']

/-- The segments without the idle ones at the end. -/
def settle (segments : List (List Char)) : List (List Char) :=
  (segments.reverse.dropWhile idle).reverse

/-- The parts of the parent: the last segment that names something goes, and after that an explicit
`.` at the start. -/
def Parts.parent? (v : Parts) : Option Parts :=
  match (settle v.segments).reverse with
  | _ :: rest => some ⟨v.start, settle rest.reverse⟩
  | [] => if v.start = .dot then some ⟨.here, []⟩ else none

def parent? (p : Path) : Option Path := p.parts.parent?.map (·.path)

theorem length_settle_le (s : List (List Char)) : (settle s).length ≤ s.length := by
  rw [settle, List.length_reverse]
  exact Nat.le_trans (List.dropWhile_sublist _).length_le (by simp)

/-- How often a path can be climbed. -/
def Parts.height (v : Parts) : Nat := v.segments.length + if v.start = .dot then 1 else 0

theorem Parts.height_lt_of_parent? {v w : Parts} (h : v.parent? = some w) :
    w.height < v.height := by
  unfold Parts.parent? at h
  split at h
  · next s rest hs =>
    have hlen := congrArg List.length hs
    have h1 := length_settle_le v.segments
    have h2 := length_settle_le rest.reverse
    simp only [List.length_reverse, List.length_cons] at hlen h2
    simp only [Option.some.injEq] at h
    subst h
    simp only [Parts.height]
    omega
  · split at h
    · next hd =>
      simp only [Option.some.injEq] at h
      subst h
      simp [Parts.height, hd]
    · simp at h

/-- The parts of a path and of all that lies above it, nearest first. -/
def Parts.ancestors (v : Parts) : List Parts :=
  match _h : v.parent? with
  | none => [v]
  | some w => v :: w.ancestors
termination_by v.height
decreasing_by exact Parts.height_lt_of_parent? ‹_›

/-- A path and all that lies above it, nearest first. -/
def ancestors (p : Path) : List Path := p :: (p.parts.ancestors.drop 1).map (·.path)

/-! ## Joining -/

def isAbsolute (p : Path) : Bool := p.toList.head? = some '/'

/-- `name` under `dir`. An absolute name stands for itself. -/
def join (dir name : Path) : Path :=
  if isAbsolute name || dir.isEmpty then name
  else if dir.toList.getLast? = some '/' then dir ++ name
  else dir ++ "/" ++ name

end Path

end NativeTransfer
