import Mathlib.Data.List.DropRight
import Mathlib.Data.List.Infix
import NativeTransfer.Host.Path

/-!
# What lies above a path

A path spells names, with empty and `.` segments between them that change nothing. Climbing takes
off one name after the other, and nothing else: what lies above a path spells the beginnings of its
names, each of them once and the longest first. Only an explicit `.` at the start is climbed from
without any name to take off.

Every path above another is also a beginning of it as a text. So none of them is longer, and none
has a character that the path does not have.

## Climbing

A path is taken apart into its start and the segments behind it, and climbing works on those parts
(`Parts.parent?`). `Parts.Spelled` says which parts a path can be taken apart into. Climbing
preserves it, and for parts of that kind the text that is put together again spells the names of the
segments. So an induction over what lies above a path is an induction over the climb, and what it
says of names is said by `namesIn` of the segments that are left.

Putting a name under a directory is the other way round, and is cut at slashes the same way: `join`
puts one slash between the two texts or none, and an empty segment more or less spells nothing.
-/

namespace NativeTransfer.Path

/-! ## Names -/

/-- The names that segments spell. -/
def namesIn (segments : List (List Char)) : List String :=
  (segments.filter (!idle ·)).map String.ofList

/-- The names that a path spells. -/
def names (p : Path) : List String := namesIn (Text.pieces '/' p.toList)

@[simp] theorem namesIn_nil : namesIn [] = [] := rfl

theorem namesIn_append (ss ts : List (List Char)) :
    namesIn (ss ++ ts) = namesIn ss ++ namesIn ts := by
  rw [namesIn, List.filter_append, List.map_append]
  rfl

theorem namesIn_cons_of_idle {s : List Char} (h : idle s = true) (segments : List (List Char)) :
    namesIn (s :: segments) = namesIn segments := by
  rw [namesIn, List.filter_cons_of_neg (by simp [h])]
  rfl

theorem namesIn_cons {s : List Char} (h : idle s = false) (segments : List (List Char)) :
    namesIn (s :: segments) = String.ofList s :: namesIn segments := by
  rw [namesIn, List.filter_cons_of_pos (by simp [h]), List.map_cons]
  rfl

theorem namesIn_segmentsOf (body : List Char) :
    namesIn (segmentsOf body) = namesIn (Text.pieces '/' body) := by
  rw [segmentsOf]
  split
  · next h => subst h; rfl
  · rfl

theorem settle_eq_rdropWhile (segments : List (List Char)) :
    settle segments = segments.rdropWhile idle := rfl

theorem isPrefix_settle (segments : List (List Char)) : settle segments <+: segments :=
  List.rdropWhile_prefix idle segments

theorem namesIn_settle (segments : List (List Char)) :
    namesIn (settle segments) = namesIn segments := by
  induction segments using List.reverseRecOn with
  | nil => rfl
  | append_singleton segments s ih =>
    rw [settle_eq_rdropWhile] at ih ⊢
    by_cases hs : idle s = true
    · rw [List.rdropWhile_concat_pos _ _ _ hs, ih, namesIn_append,
        namesIn_cons_of_idle hs, namesIn_nil, List.append_nil]
    · rw [List.rdropWhile_concat_neg _ _ _ hs]

/-! ## Parts -/

theorem namesIn_pieces_slash (cs : List Char) :
    namesIn (Text.pieces '/' ('/' :: cs)) = namesIn (Text.pieces '/' cs) :=
  (congrArg namesIn (Text.pieces_append '/' [] cs)).trans (namesIn_cons_of_idle rfl _)

theorem namesIn_pieces_dot (cs : List Char) :
    namesIn (Text.pieces '/' ('.' :: '/' :: cs)) = namesIn (Text.pieces '/' cs) :=
  (congrArg namesIn (Text.pieces_append '/' ['.'] cs)).trans (namesIn_cons_of_idle rfl _)

theorem names_eq (p : Path) : names p = namesIn (parts p).segments := by
  rw [names, parts]
  split
  · next heq => rw [heq, namesIn_segmentsOf, namesIn_pieces_slash]
  · next heq => rw [heq]; rfl
  · next heq => rw [heq, namesIn_segmentsOf, namesIn_pieces_dot, namesIn_pieces_slash]
  · exact (namesIn_segmentsOf _).symm

theorem path_parts (p : Path) : (parts p).path = p := by
  have hbody (body : List Char) : ['/'].intercalate (segmentsOf body) = body := by
    rw [segmentsOf]
    split
    · next h => subst h; rfl
    · exact Text.intercalate_pieces '/' body
  refine String.toList_injective ?_
  rw [Parts.path, String.toList_ofList, parts]
  split
  · next heq => rw [hbody, heq]; rfl
  · next heq => rw [heq]; rfl
  · next heq => rw [hbody, heq]; rfl
  · exact hbody _

/-- Parts that a path was taken apart into, or what climbing from there left of them. -/
structure Parts.Spelled (v : Parts) : Prop where
  plain : ∀ s ∈ v.segments, '/' ∉ s
  dot : v.start = .dot → v.segments ≠ [] → v.segments.head? = some []
  here : v.start = .here → v.segments.head? ≠ some []

theorem plain_segmentsOf (body : List Char) : ∀ s ∈ segmentsOf body, '/' ∉ s := by
  intro s hs
  rw [segmentsOf] at hs
  split at hs
  · cases hs
  · exact Text.notMem_of_mem_pieces hs

theorem spelled_parts (p : Path) : (parts p).Spelled := by
  rw [parts]
  split
  · exact ⟨plain_segmentsOf _, nofun, nofun⟩
  · exact ⟨fun _ hs ↦ (List.not_mem_nil hs).elim, fun _ h ↦ absurd rfl h, nofun⟩
  · next body _ =>
    refine ⟨plain_segmentsOf ('/' :: body), fun _ _ ↦ ?_, nofun⟩
    rw [segmentsOf, if_neg (List.cons_ne_nil _ _)]
    exact congrArg List.head? (Text.pieces_append '/' [] body)
  · next hroot _ _ =>
    refine ⟨plain_segmentsOf _, nofun, fun _ ↦ ?_⟩
    rw [segmentsOf]
    split
    · nofun
    · next hne =>
      obtain ⟨c, body, hbody⟩ := List.exists_cons_of_ne_nil hne
      rw [hbody]
      refine Text.head?_pieces_cons (fun hc ↦ ?_) body
      subst hc
      exact hroot body hbody

/-- Climbing takes off the last name, or where there is none an explicit `.` at the start. -/
theorem Parts.parent?_cases {v w : Parts} (h : v.parent? = some w) :
    (∃ init s, settle v.segments = init ++ [s] ∧ idle s = false ∧ w = ⟨v.start, settle init⟩) ∨
      settle v.segments = [] ∧ v.start = .dot ∧ w = ⟨.here, []⟩ := by
  rw [Parts.parent?] at h
  split at h
  · next s rest heq =>
    refine .inl ⟨rest.reverse, s, ?_, ?_, (Option.some_inj.1 h).symm⟩
    · rw [← List.reverse_reverse (settle v.segments), heq, List.reverse_cons]
    · have hhead := List.head?_dropWhile_not idle v.segments.reverse
      rw [settle, List.reverse_reverse] at heq
      rwa [heq] at hhead
  · next heq =>
    rw [List.reverse_eq_nil_iff] at heq
    split at h
    · next hdot => exact .inr ⟨heq, hdot, (Option.some_inj.1 h).symm⟩
    · cases h

theorem Parts.parent?_eq_none {v : Parts} (h : v.parent? = none) :
    settle v.segments = [] ∧ v.start ≠ .dot := by
  rw [Parts.parent?] at h
  split at h
  · cases h
  · next heq =>
    rw [List.reverse_eq_nil_iff] at heq
    split at h
    · cases h
    · next hdot => exact ⟨heq, hdot⟩

theorem Parts.segments_isPrefix_of_parent? {v w : Parts} (h : v.parent? = some w) :
    w.segments <+: v.segments := by
  rcases parent?_cases h with ⟨init, s, hsettle, -, rfl⟩ | ⟨-, -, rfl⟩
  · calc settle init
      _ <+: init := isPrefix_settle init
      _ <+: init ++ [s] := List.prefix_append init [s]
      _ <+: v.segments := hsettle ▸ isPrefix_settle v.segments
  · exact List.nil_prefix

theorem Parts.Spelled.parent {v w : Parts} (hv : v.Spelled) (hw : v.parent? = some w) :
    w.Spelled := by
  obtain ⟨rest, hrest⟩ := segments_isPrefix_of_parent? hw
  rcases parent?_cases hw with ⟨init, s, -, -, rfl⟩ | ⟨-, -, rfl⟩
  · refine ⟨fun t ht ↦ hv.plain t ?_, fun hdot hne ↦ ?_, fun hhere hhead ↦ hv.here hhere ?_⟩
    · rw [← hrest]
      exact List.mem_append_left rest ht
    · have hhead := hv.dot hdot (hrest ▸ List.append_ne_nil_of_left_ne_nil hne rest)
      rwa [← hrest, List.head?_append_of_ne_nil _ hne] at hhead
    · rw [← hrest, List.head?_append, hhead]
      rfl
  · exact ⟨fun _ hs ↦ (List.not_mem_nil hs).elim, nofun, fun _ ↦ nofun⟩

/-- The text of such parts spells the names that their segments spell. -/
theorem Parts.Spelled.names_path {v : Parts} (hv : v.Spelled) :
    names v.path = namesIn v.segments := by
  have hbody : namesIn (Text.pieces '/' (['/'].intercalate v.segments)) = namesIn v.segments := by
    by_cases hne : v.segments = []
    · rw [hne]
      rfl
    · rw [Text.pieces_intercalate hne hv.plain]
  rw [names, Parts.path, String.toList_ofList]
  cases hstart : v.start with
  | root => exact (namesIn_pieces_slash _).trans hbody
  | here => exact hbody
  | dot =>
    -- What follows the `.` starts with a slash, as the first segment is empty.
    cases hsegments : v.segments with
    | nil => rfl
    | cons s rest =>
      have hs := hv.dot hstart (hsegments ▸ List.cons_ne_nil s rest)
      rw [hsegments, List.head?_cons, Option.some_inj] at hs
      subst hs
      cases rest with
      | nil => rfl
      | cons t more =>
        rw [hsegments, List.intercalate_cons_cons] at hbody
        rw [List.intercalate_cons_cons]
        exact (namesIn_pieces_dot _).trans ((namesIn_pieces_slash _).symm.trans hbody)

/-! ## Ancestors -/

theorem Parts.ancestors_of_none {v : Parts} (h : v.parent? = none) : v.ancestors = [v] := by
  rw [Parts.ancestors]
  split
  · rfl
  · next hw => rw [h] at hw; cases hw

theorem Parts.ancestors_of_some {v w : Parts} (h : v.parent? = some w) :
    v.ancestors = v :: w.ancestors := by
  rw [Parts.ancestors]
  split
  · next hw => rw [h] at hw; cases hw
  · next hw => rw [h] at hw; rw [Option.some_inj.1 hw]

theorem Parts.forall_mem_ancestors {P : Parts → Prop} {v : Parts} (hv : P v)
    (hparent : ∀ v w, P v → v.parent? = some w → P w) : ∀ w ∈ v.ancestors, P w := by
  induction v using Parts.ancestors.induct with
  | case1 v h =>
    rw [ancestors_of_none h]
    exact fun w hw ↦ List.mem_singleton.1 hw ▸ hv
  | case2 v w h ih =>
    rw [ancestors_of_some h]
    exact List.forall_mem_cons.2 ⟨hv, ih (hparent v w hv h)⟩

theorem inits_concat {α : Type} (xs : List α) (x : α) :
    (xs ++ [x]).inits.reverse = (xs ++ [x]) :: xs.inits.reverse := by
  rw [List.inits_append]
  simp

/-- The names go one after the other, and an explicit `.` at the start goes last. -/
theorem Parts.namesIn_ancestors (v : Parts) : v.ancestors.map (namesIn ·.segments) =
    (namesIn v.segments).inits.reverse ++ if v.start = .dot then [[]] else [] := by
  induction v using Parts.ancestors.induct with
  | case1 v h =>
    obtain ⟨hsettle, hdot⟩ := parent?_eq_none h
    rw [ancestors_of_none h, if_neg hdot, List.map_singleton, ← namesIn_settle, hsettle]
    rfl
  | case2 v w h ih =>
    rw [ancestors_of_some h, List.map_cons, ih]
    rcases parent?_cases h with ⟨init, s, hsettle, hs, rfl⟩ | ⟨hsettle, hdot, rfl⟩
    · have hnames : namesIn v.segments = namesIn init ++ [String.ofList s] := by
        rw [← namesIn_settle, hsettle, namesIn_append, namesIn_cons hs, namesIn_nil]
      rw [hnames, inits_concat, namesIn_settle, List.cons_append]
    · rw [if_pos hdot, ← namesIn_settle v.segments, hsettle]
      rfl

theorem isPrefix_intercalate (sep : List Char) (ss ts : List (List Char)) :
    sep.intercalate ss <+: sep.intercalate (ss ++ ts) := by
  induction ss with
  | nil => exact List.nil_prefix
  | cons s ss ih =>
    cases ss with
    | nil =>
      cases ts with
      | nil => exact List.prefix_rfl
      | cons t ts =>
        rw [List.singleton_append, List.intercalate_singleton, List.intercalate_cons_cons,
          List.append_assoc]
        exact List.prefix_append s _
    | cons t ss =>
      rw [List.cons_append, List.cons_append, List.intercalate_cons_cons,
        List.intercalate_cons_cons]
      exact (List.prefix_append_right_inj _).2 ih

theorem Parts.path_isPrefix_of_parent? {v w : Parts} (h : v.parent? = some w) :
    w.path.toList <+: v.path.toList := by
  obtain ⟨rest, hrest⟩ := segments_isPrefix_of_parent? h
  rw [Parts.path, Parts.path, String.toList_ofList, String.toList_ofList, ← hrest]
  rcases parent?_cases h with ⟨init, s, -, -, rfl⟩ | ⟨-, -, rfl⟩
  · exact (List.prefix_append_right_inj _).2 (isPrefix_intercalate ['/'] _ rest)
  · exact List.nil_prefix

theorem ancestors_eq (p : Path) : ancestors p = (parts p).ancestors.map (·.path) := by
  have hcons : ∃ above, (parts p).ancestors = parts p :: above := by
    cases h : (parts p).parent? with
    | none => exact ⟨[], Parts.ancestors_of_none h⟩
    | some w => exact ⟨w.ancestors, Parts.ancestors_of_some h⟩
  obtain ⟨above, habove⟩ := hcons
  rw [ancestors, habove, List.map_cons, path_parts]
  rfl

variable {p q : Path}

theorem names_ancestors (p : Path) : (ancestors p).map names =
    (names p).inits.reverse ++ if (parts p).start = .dot then [[]] else [] := by
  have hspelled : ∀ v ∈ (parts p).ancestors, v.Spelled :=
    Parts.forall_mem_ancestors (spelled_parts p) fun _ _ hv ↦ hv.parent
  rw [names_eq, ← Parts.namesIn_ancestors, ancestors_eq, List.map_map]
  exact List.map_congr_left fun v hv ↦ (hspelled v hv).names_path

theorem names_isPrefix_of_mem_ancestors (h : q ∈ ancestors p) : names q <+: names p := by
  have hq := List.mem_map_of_mem h (f := names)
  rw [names_ancestors, List.mem_append, List.mem_reverse, List.mem_inits] at hq
  rcases hq with hq | hq
  · exact hq
  · split at hq
    · rw [List.mem_singleton.1 hq]
      exact List.nil_prefix
    · cases hq

theorem pairwise_inits_reverse {α : Type} (xs : List α) :
    xs.inits.reverse.Pairwise fun ys zs ↦ zs <+: ys := by
  induction xs using List.reverseRecOn with
  | nil => exact List.pairwise_singleton _ _
  | append_singleton xs x ih =>
    rw [inits_concat, List.pairwise_cons]
    refine ⟨fun zs hzs ↦ ?_, ih⟩
    rw [List.mem_reverse, List.mem_inits] at hzs
    exact hzs.trans (List.prefix_append xs [x])

/-- What lies above a path comes in order: what comes later lies above what comes before. -/
theorem pairwise_ancestors (p : Path) :
    (ancestors p).Pairwise fun q r ↦ names r <+: names q := by
  rw [← List.pairwise_map (f := names) (R := fun xs ys ↦ ys <+: xs), names_ancestors,
    List.pairwise_append]
  refine ⟨pairwise_inits_reverse (names p), ?_, ?_⟩
  · split
    · exact List.pairwise_singleton _ _
    · exact List.Pairwise.nil
  · intro xs _ ys hys
    split at hys
    · rw [List.mem_singleton.1 hys]
      exact List.nil_prefix
    · cases hys

theorem isPrefix_of_mem_ancestors (h : q ∈ ancestors p) : q.toList <+: p.toList := by
  rw [ancestors_eq, List.mem_map] at h
  obtain ⟨w, hw, rfl⟩ := h
  refine Parts.forall_mem_ancestors (P := fun w ↦ w.path.toList <+: p.toList) ?_ ?_ w hw
  · rw [path_parts]
  · exact fun _ _ hv hw ↦ (Parts.path_isPrefix_of_parent? hw).trans hv

theorem start_eq_root_iff (p : Path) : (parts p).start = .root ↔ isAbsolute p = true := by
  rw [isAbsolute, decide_eq_true_iff, parts]
  split
  · next heq => simp [heq]
  · next heq => simp [heq]
  · next heq => simp [heq]
  · next hroot _ _ =>
    refine ⟨nofun, fun hhead ↦ ?_⟩
    cases heq : p.toList with
    | nil => rw [heq] at hhead; cases hhead
    | cons c body =>
      rw [heq, List.head?_cons, Option.some_inj] at hhead
      subst hhead
      exact (hroot body heq).elim

/-- What lies above a path starts where the path does. -/
theorem isAbsolute_of_mem_ancestors (h : q ∈ ancestors p) : isAbsolute q = isAbsolute p := by
  refine Bool.eq_iff_iff.2 ⟨fun hq ↦ ?_, fun hp ↦ ?_⟩
  · obtain ⟨rest, hrest⟩ := isPrefix_of_mem_ancestors h
    rw [isAbsolute, decide_eq_true_iff] at hq ⊢
    rw [← hrest, List.head?_append, hq]
    rfl
  · rw [ancestors_eq, List.mem_map] at h
    obtain ⟨w, hw, rfl⟩ := h
    have hroot : w.start = .root := by
      refine Parts.forall_mem_ancestors (P := fun v ↦ v.start = .root)
        ((start_eq_root_iff p).2 hp) ?_ w hw
      intro v w hv hw
      rcases Parts.parent?_cases hw with ⟨-, -, -, -, rfl⟩ | ⟨-, hdot, -⟩
      · exact hv
      · rw [hv] at hdot
        cases hdot
    rw [isAbsolute, Parts.path, hroot, String.toList_ofList]
    rfl

/-! ## Names under a directory -/

variable {dir name : Path}

/-- A name that one segment spells, which is neither idle nor climbs. -/
structure IsName (name : String) : Prop where
  whole : '/' ∉ name.toList
  idle : idle name.toList = false
  climbs : name ≠ ".."

namespace IsName

theorem isAbsolute (h : IsName name) : Path.isAbsolute name = false := by
  rw [Path.isAbsolute, decide_eq_false_iff_not]
  exact fun hhead ↦ h.whole (List.mem_of_mem_head? hhead)

theorem segments (h : IsName name) : Text.pieces '/' name.toList = [name.toList] :=
  Text.pieces_of_notMem h.whole

end IsName

theorem toList_join (dir : Path) (h : isAbsolute name = false) : ∃ slash : List Char,
    (slash = [] ∨ slash = ['/']) ∧
      (join dir name).toList = dir.toList ++ slash ++ name.toList := by
  rw [join, h, Bool.false_or]
  by_cases hempty : dir.isEmpty = true
  · rw [if_pos hempty, String.isEmpty_iff.1 hempty]
    exact ⟨[], .inl rfl, rfl⟩
  · rw [if_neg hempty]
    split
    · exact ⟨[], .inl rfl, by rw [String.toList_append, List.append_nil]⟩
    · exact ⟨['/'], .inr rfl, by rw [String.toList_append, String.toList_append]; rfl⟩

theorem IsName.toList_ne_nil (h : IsName name) : name.toList ≠ [] := by
  intro hnil
  have hidle := h.idle
  rw [hnil] at hidle
  cases hidle

theorem isEmpty_join (dir : Path) (h : IsName name) : (join dir name).isEmpty = false := by
  obtain ⟨slash, -, hjoin⟩ := toList_join dir h.isAbsolute
  rw [Bool.eq_false_iff, Ne, String.isEmpty_iff]
  intro hempty
  rw [hempty] at hjoin
  exact h.toList_ne_nil (List.append_eq_nil_iff.1 hjoin.symm).2

theorem getLast?_join (dir : Path) (h : IsName name) :
    (join dir name).toList.getLast? ≠ some '/' := by
  obtain ⟨slash, -, hjoin⟩ := toList_join dir h.isAbsolute
  rw [hjoin, List.getLast?_append_of_ne_nil _ h.toList_ne_nil]
  exact fun hlast ↦ h.whole (List.mem_of_getLast? hlast)

theorem isAbsolute_join (dir : Path) (h : isAbsolute name = false) :
    isAbsolute (join dir name) = isAbsolute dir := by
  by_cases hempty : dir.isEmpty = true
  · rw [join, hempty, Bool.or_true, if_pos rfl, h, String.isEmpty_iff.1 hempty]
    rfl
  · obtain ⟨slash, -, hjoin⟩ := toList_join dir h
    have hdir : dir.toList ≠ [] := fun hdir ↦
      hempty (String.isEmpty_iff.2 (String.toList_injective hdir))
    rw [isAbsolute, hjoin, List.append_assoc, List.head?_append_of_ne_nil _ hdir]
    rfl

/-- A path under a directory is cut into what the directory is cut into, up to empty segments, and
the pieces of the path. -/
theorem pieces_join (dir : Path) (h : isAbsolute name = false) :
    ∃ segments, Text.pieces '/' (join dir name).toList = segments ++ Text.pieces '/' name.toList ∧
      namesIn segments = names dir := by
  rw [join, h, Bool.false_or]
  by_cases hempty : dir.isEmpty = true
  · rw [if_pos hempty]
    refine ⟨[], rfl, ?_⟩
    rw [String.isEmpty_iff.1 hempty]
    rfl
  · rw [if_neg hempty]
    by_cases hslash : dir.toList.getLast? = some '/'
    · obtain ⟨cs, hcs⟩ := List.getLast?_eq_some_iff.1 hslash
      rw [if_pos hslash, String.toList_append, hcs, List.append_assoc, List.singleton_append,
        Text.pieces_append]
      refine ⟨Text.pieces '/' cs, rfl, ?_⟩
      rw [names, hcs, Text.pieces_append, namesIn_append]
      exact (List.append_nil _).symm
    · rw [if_neg hslash, String.toList_append, String.toList_append, List.append_assoc]
      exact ⟨Text.pieces '/' dir.toList, Text.pieces_append '/' dir.toList name.toList, rfl⟩

theorem names_join (dir : Path) (h : isAbsolute name = false) :
    names (join dir name) = names dir ++ names name := by
  obtain ⟨segments, hpieces, hnames⟩ := pieces_join dir h
  rw [names, hpieces, namesIn_append, hnames]
  rfl

end NativeTransfer.Path
