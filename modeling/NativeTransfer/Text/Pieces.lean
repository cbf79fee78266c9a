/-!
# Texts in pieces

A text is cut at every occurrence of one character. There is always a piece more than there are
cuts, and the pieces with the character put back between them are the text again.
-/

namespace NativeTransfer.Text

/-- The pieces between the occurrences of `sep`. -/
def pieces (sep : Char) : List Char → List (List Char)
  | [] => [[]]
  | c :: rest =>
    if c = sep then [] :: pieces sep rest
    else
      match pieces sep rest with
      | [] => [[c]]
      | first :: others => (c :: first) :: others

theorem pieces_ne_nil (sep : Char) (cs : List Char) : pieces sep cs ≠ [] := by
  cases cs with
  | nil => simp [pieces]
  | cons c rest =>
    unfold pieces
    split
    · simp
    · split <;> simp

theorem intercalate_pieces (sep : Char) (cs : List Char) :
    [sep].intercalate (pieces sep cs) = cs := by
  induction cs with
  | nil => rfl
  | cons c rest ih =>
    cases hp : pieces sep rest with
    | nil => exact absurd hp (pieces_ne_nil sep rest)
    | cons first others =>
      rw [hp] at ih
      by_cases hc : c = sep
      · subst hc
        simp only [pieces, hp]
        simpa using congrArg (c :: ·) ih
      · simp only [pieces, if_neg hc, hp]
        cases others with
        | nil => simpa using ih
        | cons second more => simpa using ih

/-- Cutting at one occurrence leaves the pieces on either side of it. -/
theorem pieces_append (sep : Char) (as bs : List Char) :
    pieces sep (as ++ sep :: bs) = pieces sep as ++ pieces sep bs := by
  induction as with
  | nil => simp [pieces]
  | cons c rest ih =>
    rw [List.cons_append]
    by_cases hc : c = sep
    · simp only [pieces, if_pos hc, ih, List.cons_append]
    · cases hp : pieces sep rest with
      | nil => exact absurd hp (pieces_ne_nil sep rest)
      | cons first others =>
        rw [hp] at ih
        simp only [pieces, if_neg hc, ih, hp, List.cons_append]

theorem pieces_of_notMem {sep : Char} {cs : List Char} (h : sep ∉ cs) : pieces sep cs = [cs] := by
  induction cs with
  | nil => rfl
  | cons c rest ih =>
    rw [List.mem_cons, not_or] at h
    simp only [pieces, if_neg (Ne.symm h.1), ih h.2]

theorem head?_pieces_cons {sep c : Char} (h : c ≠ sep) (rest : List Char) :
    (pieces sep (c :: rest)).head? ≠ some [] := by
  rw [pieces, if_neg h]
  split
  · exact fun he ↦ List.cons_ne_nil c [] (Option.some_inj.1 he)
  · next first others _ => exact fun he ↦ List.cons_ne_nil c first (Option.some_inj.1 he)

theorem notMem_of_mem_pieces {sep : Char} {cs s : List Char} (h : s ∈ pieces sep cs) :
    sep ∉ s := by
  induction cs generalizing s with
  | nil =>
    rw [pieces, List.mem_singleton] at h
    subst h
    exact List.not_mem_nil
  | cons c rest ih =>
    rw [pieces] at h
    split at h
    · rcases List.mem_cons.1 h with rfl | h
      · exact List.not_mem_nil
      · exact ih h
    · next hc =>
      split at h
      · next hp => exact absurd hp (pieces_ne_nil sep rest)
      · next first others hp =>
        rw [hp] at ih
        rcases List.mem_cons.1 h with rfl | h
        · rw [List.mem_cons, not_or]
          exact ⟨Ne.symm hc, ih List.mem_cons_self⟩
        · exact ih (List.mem_cons_of_mem first h)

theorem pieces_intercalate {sep : Char} {segments : List (List Char)} (hne : segments ≠ [])
    (h : ∀ s ∈ segments, sep ∉ s) : pieces sep ([sep].intercalate segments) = segments := by
  induction segments with
  | nil => exact absurd rfl hne
  | cons s rest ih =>
    rw [List.forall_mem_cons] at h
    cases rest with
    | nil => rw [List.intercalate_singleton, pieces_of_notMem h.1]
    | cons t more =>
      rw [List.intercalate_cons_cons, List.append_assoc, List.singleton_append, pieces_append,
        pieces_of_notMem h.1, ih (List.cons_ne_nil t more) h.2, List.singleton_append]

/-- Whether `part` occurs in a text. -/
def occurs (part : List Char) : List Char → Bool
  | [] => part.isEmpty
  | c :: rest => part.isPrefixOf (c :: rest) || occurs part rest

end NativeTransfer.Text
