import Mathlib.Tactic.IntervalCases
import NativeTransfer.Toml.Text
import NativeTransfer.Toml.Writer

/-!
# A written string reads back

Whatever form the writer chooses for a string, the reader takes just that string off the front of
what follows, as long as no quote follows directly. In the long forms the reader looks at a whole
run of quotes at once, while the writer goes by single ones; so what is proved by induction on the
string is about the quotes just written together with all that is still to come.

## Fuel and runs

Every reader of characters has fuel, and `Takes` says that it takes a value off the front with any
fuel beyond the length of the characters. So fuel is asked for once and never counted.

In the long forms a run of quotes is read as a whole: one or two inside belong to the string, and so
do one or two before the three that close it. `GoesByRuns` is what the two long forms have in
common, and an induction over the string has the number of quotes just written as a parameter, since
a run may go on across the end of what was dealt with so far.
-/

namespace NativeTransfer.Toml

/-! ## Readers with fuel -/

/-- With more fuel than there are characters, a reader takes something off their front. -/
def Takes {α : Type} (read : Nat → Reader α) (cs : List Char) (a : α) (rest : List Char) : Prop :=
  ∀ fuel, cs.length < fuel → read fuel cs = some (a, rest)

theorem forall_fuel {n : Nat} {P : Nat → Prop} (h : ∀ fuel, n < fuel + 1 → P (fuel + 1)) :
    ∀ fuel, n < fuel → P fuel
  | 0, hfuel => absurd hfuel (Nat.not_lt_zero _)
  | fuel + 1, hfuel => h fuel hfuel

theorem length_lt_of_append {es cs : List Char} {fuel : Nat} (hes : es ≠ [])
    (h : (es ++ cs).length < fuel + 1) : cs.length < fuel := by
  have hpos := List.length_pos_iff.2 hes
  rw [List.length_append] at h
  omega

theorem skipBlanks_cons {c : Char} (hc : isBlank c = false) (cs : List Char) :
    skipBlanks (c :: cs) = c :: cs :=
  List.dropWhile_cons_of_neg (by rw [hc]; exact Bool.false_ne_true)

theorem lineEnd?_cons {c : Char} (hn : c ≠ '\n') (hr : c ≠ '\r') (cs : List Char) :
    lineEnd? (c :: cs) = none := by
  rw [lineEnd?.eq_def]
  split
  · next heq => exact absurd (List.cons.inj heq).1 hn
  · next heq => exact absurd (List.cons.inj heq).1 hr
  · rfl

/-! ## Escapes -/

theorem hexDigit?_upperDigit {n : Nat} (h : n < 16) : hexDigit? (upperDigit n) = some n := by
  interval_cases n <;> rfl

/-- What may stand behind a backslash, and is then no fold of lines. -/
def Escapes (c : Char) (es : List Char) : Prop :=
  ∃ d tail, es = '\\' :: d :: tail ∧ isBlank d = false ∧ d ≠ '\n' ∧ d ≠ '\r' ∧
    ∀ rest, escape (d :: tail ++ rest) = some (c, rest)

theorem escapes_control {c : Char} (hc : needsEscape c = true) :
    Escapes c ['\\', 'u', '0', '0', upperDigit (c.toNat / 16), upperDigit (c.toNat % 16)] := by
  have hlt : c.toNat < 128 := by
    simp only [needsEscape, Bool.or_eq_true, decide_eq_true_eq, Bool.and_eq_true] at hc
    omega
  refine ⟨'u', _, rfl, rfl, by decide, by decide, fun rest ↦ ?_⟩
  have hnumber : hexNumber 4 ('0' :: '0' :: upperDigit (c.toNat / 16) ::
      upperDigit (c.toNat % 16) :: rest) = some (c.toNat, rest) := by
    have hzero : hexDigit? '0' = some 0 := rfl
    rw [hexNumber, if_neg (by simp)]
    simp only [List.take_succ_cons, List.take_zero, List.drop_succ_cons, List.drop_zero,
      List.foldlM_cons, List.foldlM_nil, hzero, hexDigit?_upperDigit (by omega : c.toNat / 16 < 16),
      hexDigit?_upperDigit (by omega : c.toNat % 16 < 16), Option.map_some, Option.bind_eq_bind,
      Option.bind_some, Option.pure_def]
    congr 2
    omega
  have hchar : charOf? c.toNat = some c := by
    rw [charOf?, if_pos (show c.toNat.isValidChar from c.valid), Char.ofNat_toNat]
  show (hexNumber 4 ('0' :: '0' :: upperDigit (c.toNat / 16) ::
    upperDigit (c.toNat % 16) :: rest)).bind
      (fun p ↦ (charOf? p.1).bind fun c ↦ some (c, p.2)) = some (c, rest)
  rw [hnumber, Option.bind_some, hchar]
  rfl

theorem escapes_of_escaped? {c : Char} {es : List Char} (h : escaped? c = some es) :
    Escapes c es := by
  have hpair {c d : Char} (hd : isBlank d = false ∧ d ≠ '\n' ∧ d ≠ '\r')
      (hread : ∀ rest, escape (d :: rest) = some (c, rest)) : Escapes c ['\\', d] :=
    ⟨d, [], rfl, hd.1, hd.2.1, hd.2.2, hread⟩
  rw [escaped?] at h
  split_ifs at h with hb ht hf hr hs hc
  all_goals cases h
  · subst hb
    exact hpair (by decide) fun _ ↦ rfl
  · subst ht
    exact hpair (by decide) fun _ ↦ rfl
  · subst hf
    exact hpair (by decide) fun _ ↦ rfl
  · subst hr
    exact hpair (by decide) fun _ ↦ rfl
  · subst hs
    exact hpair (by decide) fun _ ↦ rfl
  · exact escapes_control hc

theorem plain_of_escaped? {c : Char} (h : escaped? c = none) (hn : c ≠ '\n') :
    isLineChar c = true ∧ c ≠ '\\' ∧ c ≠ '\r' := by
  rw [escaped?] at h
  split_ifs at h with _ _ _ hr hs hc
  refine ⟨?_, hs, hr⟩
  simp only [needsEscape, Bool.or_eq_true, decide_eq_true_eq, Bool.and_eq_true] at hc
  simp only [isLineChar, Bool.or_eq_true, decide_eq_true_eq, Bool.and_eq_true]
  grind

/-! ## One line -/

/-- A character between single double quotes is escaped, or stands as it is. -/
theorem basicChar_cases (c : Char) :
    Escapes c (basicChar c) ∨
      basicChar c = [c] ∧ isLineChar c = true ∧ c ≠ '"' ∧ c ≠ '\\' := by
  rw [basicChar]
  split_ifs with hq hn
  · subst hq
    exact .inl ⟨'"', [], rfl, by decide, by decide, by decide, fun _ ↦ rfl⟩
  · subst hn
    exact .inl ⟨'n', [], rfl, by decide, by decide, by decide, fun _ ↦ rfl⟩
  · cases h : escaped? c with
    | some es => exact .inl (escapes_of_escaped? h)
    | none =>
      have hplain := plain_of_escaped? h hn
      exact .inr ⟨rfl, hplain.1, hq, hplain.2.1⟩

theorem takes_basicChar {c : Char} {cs body rest : List Char} (h : Takes basicBody cs body rest) :
    Takes basicBody (basicChar c ++ cs) (c :: body) rest := by
  refine forall_fuel fun fuel hfuel ↦ ?_
  obtain ⟨d, tail, heq, -, -, -, hread⟩ | ⟨heq, hline, hquote, hback⟩ := basicChar_cases c
  · have hrest := h fuel (length_lt_of_append (heq ▸ List.cons_ne_nil _ _) hfuel)
    rw [heq, List.cons_append, basicBody, hread, Option.bind_eq_bind, Option.bind_some]
    simp only [hrest]
    rfl
  · have hrest := h fuel (length_lt_of_append (heq ▸ List.cons_ne_nil _ _) hfuel)
    rw [heq, List.singleton_append, basicBody, if_pos hline, hrest]
    · rfl
    · exact hquote
    · exact hback

theorem takes_basicBody (s rest : List Char) :
    Takes basicBody (s.flatMap basicChar ++ '"' :: rest) s rest := by
  induction s with
  | nil =>
    exact forall_fuel fun _ _ ↦ rfl
  | cons c s ih =>
    rw [List.flatMap_cons, List.append_assoc]
    exact takes_basicChar ih

theorem literalBody_append {s : List Char} (hs : ∀ c ∈ s, isLineChar c = true ∧ c ≠ '\'')
    (rest : List Char) : literalBody (s ++ '\'' :: rest) = some (s, rest) := by
  induction s with
  | nil => rfl
  | cons c s ih =>
    obtain ⟨hline, hquote⟩ := hs c List.mem_cons_self
    rw [List.cons_append, literalBody, if_neg hquote, if_pos hline,
      ih fun d hd ↦ hs d (List.mem_cons_of_mem _ hd)]
    rfl

/-! ## Runs of quotes -/

section

variable {q d : Char} {run : Nat} {cs rest : List Char}

theorem takeWhile_run (run : Nat) {cs : List Char} (hcs : cs.head? ≠ some q) :
    (List.replicate run q ++ cs).takeWhile (· = q) = List.replicate run q := by
  have hstop : cs.takeWhile (· = q) = [] := by
    cases cs with
    | nil => rfl
    | cons d cs =>
      have hd : d ≠ q := fun hd ↦ hcs (congrArg some hd)
      rw [List.takeWhile_cons, if_neg (by simpa using hd)]
  rw [List.takeWhile_append_of_pos (by simp [List.mem_replicate]), hstop, List.append_nil]

/-- One or two quotes in a row belong to the string. -/
theorem longQuotes_inside (hrun : run ≤ 2) (hcs : cs.head? ≠ some q) :
    longQuotes q (List.replicate run q ++ cs) = (run, none) := by
  rw [longQuotes, takeWhile_run run hcs, List.length_replicate]
  exact if_pos (Nat.lt_succ_of_le hrun)

/-- So do one or two before the three that close it. -/
theorem longQuotes_close (hrun : run ≤ 2) (hrest : rest.head? ≠ some q) :
    longQuotes q (List.replicate run q ++ q :: q :: q :: rest) = (run, some rest) := by
  have hmore : List.replicate run q ++ q :: q :: q :: rest =
      List.replicate (run + 3) q ++ rest := by
    rw [List.replicate_succ', List.replicate_succ', List.replicate_succ']
    simp
  rw [hmore, longQuotes, takeWhile_run (run + 3) hrest, List.length_replicate]
  have hinside : min (run + 3 - 3) 2 = run := by omega
  have hdrop : (List.replicate (run + 3) q ++ rest).drop (run + 3) = rest := by
    rw [List.drop_append_of_le_length (by simp), List.drop_of_length_le (by simp), List.nil_append]
  simp only [hinside, hdrop]
  exact if_neg (by omega)

/-- A reader that goes by runs of quotes. -/
structure GoesByRuns (q : Char) (read : Nat → Reader (List Char)) : Prop where
  inside : ∀ {fuel run : Nat} {cs : List Char}, longQuotes q (q :: cs) = (run, none) →
    read (fuel + 1) (q :: cs) =
      (read fuel ((q :: cs).drop run)).map fun p ↦ (List.replicate run q ++ p.1, p.2)
  close : ∀ {fuel run : Nat} {cs rest : List Char}, longQuotes q (q :: cs) = (run, some rest) →
    read (fuel + 1) (q :: cs) = some (List.replicate run q, rest)

theorem goesByRuns_longBasicBody : GoesByRuns '"' longBasicBody where
  inside {fuel run cs} h := by
    rw [longBasicBody, h]
    dsimp only
    cases longBasicBody fuel (('"' :: cs).drop run) <;> rfl
  close h := by rw [longBasicBody, h]

theorem goesByRuns_longLiteralBody : GoesByRuns '\'' longLiteralBody where
  inside {fuel run cs} h := by
    rw [longLiteralBody, h]
    dsimp only
    cases longLiteralBody fuel (('\'' :: cs).drop run) <;> rfl
  close h := by rw [longLiteralBody, h]

variable {read : Nat → Reader (List Char)} {body : List Char}

theorem GoesByRuns.takes_inside (hread : GoesByRuns q read) (hrun : run ≤ 2)
    (hcs : cs.head? ≠ some q) (h : Takes read cs body rest) :
    Takes read (List.replicate run q ++ cs) (List.replicate run q ++ body) rest := by
  cases run with
  | zero => exact h
  | succ run =>
    refine forall_fuel fun fuel hfuel ↦ ?_
    have hquotes := longQuotes_inside hrun hcs
    have hdrop : (List.replicate (run + 1) q ++ cs).drop (run + 1) = cs :=
      List.drop_left' List.length_replicate
    rw [List.length_append, List.length_replicate] at hfuel
    rw [List.replicate_succ, List.cons_append] at hquotes hdrop ⊢
    rw [hread.inside hquotes, hdrop, h fuel (by omega)]
    rfl

theorem GoesByRuns.takes_close (hread : GoesByRuns q read) (hrun : run ≤ 2)
    (hrest : rest.head? ≠ some q) :
    Takes read (List.replicate run q ++ q :: q :: q :: rest) (List.replicate run q) rest := by
  refine forall_fuel fun fuel hfuel ↦ ?_
  have hquotes := longQuotes_close hrun hrest
  cases run with
  | zero => exact hread.close hquotes
  | succ run =>
    rw [List.replicate_succ, List.cons_append] at hquotes ⊢
    exact hread.close hquotes

end

/-! ## Several lines -/

theorem skipFold?_cons {d : Char} (hblank : isBlank d = false) (hn : d ≠ '\n') (hr : d ≠ '\r')
    (cs : List Char) : skipFold? (d :: cs) = none := by
  rw [skipFold?, skipBlanks_cons hblank, lineEnd?_cons hn hr]
  rfl

section

variable {c : Char} {cs es body rest : List Char} (h : Takes longBasicBody cs body rest)

include h

theorem takes_escape (hes : Escapes c es) : Takes longBasicBody (es ++ cs) (c :: body) rest := by
  refine forall_fuel fun fuel hfuel ↦ ?_
  obtain ⟨d, tail, rfl, hblank, hn, hr, hread⟩ := hes
  have hrest := h fuel (length_lt_of_append (List.cons_ne_nil _ _) hfuel)
  rw [List.cons_append, longBasicBody]
  dsimp only
  rw [List.cons_append, skipFold?_cons hblank hn hr, ← List.cons_append, hread]
  simp only [Option.bind_eq_bind, Option.bind_some, hrest]
  rfl

theorem takes_plain (hc : c ≠ '"') (hes : escaped? c = none) :
    Takes longBasicBody (c :: cs) (c :: body) rest := by
  refine forall_fuel fun fuel hfuel ↦ ?_
  have hrest := h fuel (Nat.lt_of_succ_lt_succ hfuel)
  by_cases hn : c = '\n'
  · subst hn
    rw [longBasicBody]
    · simp only [lineEnd?, Option.bind_eq_bind, Option.bind_some, hrest]
      rfl
    · exact hc
    · decide
  · obtain ⟨hline, hback, -⟩ := plain_of_escaped? hes hn
    rw [longBasicBody, if_pos hline, hrest]
    · rfl
    · exact hc
    · exact hback

end

/-- A string in the long form with escapes, after `run` quotes that belong to it. -/
theorem takes_longBasicChars (s : List Char) {run : Nat} (hrun : run ≤ 2) {rest : List Char}
    (hrest : rest.head? ≠ some '"') :
    Takes longBasicBody
      (List.replicate run '"' ++ (longBasicChars run s ++ '"' :: '"' :: '"' :: rest))
      (List.replicate run '"' ++ s) rest := by
  have hinside {run : Nat} (hrun : run ≤ 2) {cs body : List Char} (hcs : cs.head? ≠ some '"')
      (h : Takes longBasicBody cs body rest) :=
    goesByRuns_longBasicBody.takes_inside hrun hcs h
  induction s generalizing run with
  | nil =>
    rw [longBasicChars, List.nil_append, List.append_nil]
    exact goesByRuns_longBasicBody.takes_close hrun hrest
  | cons c s ih =>
    rw [longBasicChars]
    split_ifs with hc hrun'
    · -- A third quote is escaped, and a run begins afresh behind it.
      subst hc
      have hes : Escapes '"' ['\\', '"'] :=
        ⟨'"', [], rfl, by decide, by decide, by decide, fun _ ↦ rfl⟩
      have hquote := takes_escape (ih (Nat.zero_le 2)) hes
      exact hinside hrun (by simp) hquote
    · have h := ih (Nat.succ_le_of_lt (Nat.lt_of_le_of_ne hrun hrun'))
      rw [List.replicate_succ', List.append_assoc, List.append_assoc] at h
      rw [hc]
      exact h
    · cases hes : escaped? c with
      | some es =>
        obtain ⟨d, tail, rfl, -⟩ := escapes_of_escaped? hes
        rw [Option.getD_some, List.append_assoc]
        exact hinside hrun (by simp) (takes_escape (ih (Nat.zero_le 2)) (escapes_of_escaped? hes))
      | none =>
        rw [Option.getD_none, List.append_assoc]
        exact hinside hrun (by simpa using hc) (takes_plain (ih (Nat.zero_le 2)) hc hes)

theorem isLineChar_of_needsEscape {c : Char} (h : needsEscape c = false) (hn : c ≠ '\n') :
    isLineChar c = true := by
  simp only [needsEscape, Bool.or_eq_false_iff, decide_eq_false_iff_not, Bool.and_eq_false_iff] at h
  simp only [isLineChar, Bool.or_eq_true, decide_eq_true_eq, Bool.and_eq_true]
  grind

theorem takes_literalChar {c : Char} {cs body rest : List Char} (hc : c ≠ '\'')
    (hplain : needsEscape c = false) (h : Takes longLiteralBody cs body rest) :
    Takes longLiteralBody (c :: cs) (c :: body) rest := by
  refine forall_fuel fun fuel hfuel ↦ ?_
  have hrest := h fuel (Nat.lt_of_succ_lt_succ hfuel)
  by_cases hn : c = '\n'
  · subst hn
    rw [longLiteralBody]
    · simp only [lineEnd?, Option.bind_eq_bind, Option.bind_some, hrest]
      rfl
    · exact hc
  · rw [longLiteralBody, if_pos (isLineChar_of_needsEscape hplain hn), hrest]
    · rfl
    · exact hc

theorem longestRun_le_iff (q : Char) (s : List Char) {best run n : Nat} :
    longestRun q best run s ≤ n ↔ best ≤ n ∧ longestRun q 0 run s ≤ n := by
  induction s generalizing best run with
  | nil => simp [longestRun]
  | cons c s ih =>
    rw [longestRun, longestRun]
    split
    · exact ih
    · rw [ih, @ih (max 0 run)]
      omega

theorem le_longestRun (q : Char) (s : List Char) (best run : Nat) :
    run ≤ longestRun q best run s := by
  induction s generalizing best run with
  | nil => exact Nat.le_max_right _ _
  | cons c s ih =>
    rw [longestRun]
    split
    · exact Nat.le_of_succ_le (ih best (run + 1))
    · exact Nat.le_trans (Nat.le_max_right best run)
        (((longestRun_le_iff q s).1 (Nat.le_refl _)).1)

theorem notMem_of_longestRun {q : Char} {s : List Char} {best run : Nat}
    (h : longestRun q best run s = 0) : q ∉ s := by
  induction s generalizing best run with
  | nil => exact List.not_mem_nil
  | cons c s ih =>
    rw [longestRun] at h
    split_ifs at h with hc
    · have hle := le_longestRun q s best (run + 1)
      omega
    · rw [List.mem_cons, not_or]
      exact ⟨Ne.symm hc, ih h⟩

/-- A string in the long form without escapes, after `run` quotes that belong to it. -/
theorem takes_longLiteral (s : List Char) (hs : ∀ c ∈ s, needsEscape c = false) {run : Nat}
    (hrun : longestRun '\'' 0 run s ≤ 2) {rest : List Char} (hrest : rest.head? ≠ some '\'') :
    Takes longLiteralBody (List.replicate run '\'' ++ (s ++ '\'' :: '\'' :: '\'' :: rest))
      (List.replicate run '\'' ++ s) rest := by
  induction s generalizing run with
  | nil =>
    rw [longestRun, Nat.zero_max] at hrun
    rw [List.nil_append, List.append_nil]
    exact goesByRuns_longLiteralBody.takes_close hrun hrest
  | cons c s ih =>
    have ih' {run : Nat} (hrun : longestRun '\'' 0 run s ≤ 2) :=
      ih (fun d hd ↦ hs d (List.mem_cons_of_mem _ hd)) hrun
    rw [longestRun] at hrun
    split_ifs at hrun with hc
    · have h := ih' hrun
      rw [List.replicate_succ', List.append_assoc, List.append_assoc] at h
      rw [hc]
      exact h
    · obtain ⟨hle, hrun⟩ := (longestRun_le_iff _ _).1 hrun
      rw [Nat.zero_max] at hle
      have h := takes_literalChar hc (hs c List.mem_cons_self) (ih' hrun)
      exact goesByRuns_longLiteralBody.takes_inside hle (by simpa using hc) h

/-! ## Any form -/

section

variable {s rest : List Char}

theorem formOf_literal (h : formOf s = .literal) : ∀ c ∈ s, isLineChar c = true ∧ c ≠ '\'' := by
  rw [formOf] at h
  split_ifs at h with _ hform
  simp only [Bool.and_eq_true, Bool.not_eq_true', decide_eq_true_eq, List.any_eq_false] at hform
  obtain ⟨⟨hplain, hline⟩, hrun⟩ := hform
  intro c hc
  have hn : c ≠ '\n' := by
    rintro rfl
    simp [hc] at hline
  have hq : c ≠ '\'' := by
    rintro rfl
    exact notMem_of_longestRun hrun hc
  exact ⟨isLineChar_of_needsEscape (by simpa using hplain c hc) hn, hq⟩

theorem formOf_longLiteral (h : formOf s = .longLiteral) :
    (∀ c ∈ s, needsEscape c = false) ∧ longestRun '\'' 0 0 s ≤ 2 := by
  rw [formOf] at h
  split_ifs at h with _ _ _ hform
  simp only [Bool.and_eq_true, Bool.not_eq_true', decide_eq_true_eq, List.any_eq_false] at hform
  exact ⟨fun c hc ↦ by simpa using hform.1 c hc, hform.2⟩

/-- A long string begins on its own line if it has more than one. -/
theorem dropLineEnd_opening {cs : List Char}
    (h : s.contains '\n' = false → cs.head? ≠ some '\n' ∧ cs.head? ≠ some '\r') :
    dropLineEnd ((if s.contains '\n' then ['\n'] else []) ++ cs) = cs := by
  split
  · rfl
  · next hs =>
    obtain ⟨hn, hr⟩ := h (by simpa using hs)
    rw [List.nil_append, dropLineEnd, lineEnd?.eq_def]
    split
    · exact absurd rfl hn
    · exact absurd rfl hr
    · rfl

theorem text_long {q : Char} {read : Nat → Reader (List Char)}
    (htext : ∀ cs, text (q :: q :: q :: cs) = read (cs.length + 1) (dropLineEnd cs))
    {cs body : List Char} (h : Takes read cs body rest)
    (hs : s.contains '\n' = false → cs.head? ≠ some '\n' ∧ cs.head? ≠ some '\r') :
    text (q :: q :: q :: ((if s.contains '\n' then ['\n'] else []) ++ cs)) = some (body, rest) := by
  rw [htext, dropLineEnd_opening hs]
  refine h _ ?_
  rw [List.length_append]
  omega

theorem text_basic {cs : List Char} (h : ∀ more, cs ≠ '"' :: '"' :: more) :
    text ('"' :: cs) = basicBody (cs.length + 1) cs := by
  rw [text.eq_def]
  split
  · next heq => exact absurd (List.cons.inj heq).2 (h _)
  · next heq => cases (List.cons.inj heq).1
  · rfl

theorem text_literal {cs : List Char} (h : ∀ more, cs ≠ '\'' :: '\'' :: more) :
    text ('\'' :: cs) = literalBody cs := by
  rw [text.eq_def]
  split
  · next heq => cases (List.cons.inj heq).1
  · next heq => exact absurd (List.cons.inj heq).2 (h _)
  · rfl

/-- What stands first between double quotes is a quote only if nothing does. -/
theorem head_basicBody (s : List Char) (hrest : rest.head? ≠ some '"') (more : List Char) :
    s.flatMap basicChar ++ '"' :: rest ≠ '"' :: '"' :: more := by
  cases s with
  | nil =>
    intro heq
    rw [List.flatMap_nil, List.nil_append, List.cons.injEq] at heq
    exact hrest (congrArg List.head? heq.2)
  | cons c s =>
    rw [List.flatMap_cons]
    obtain ⟨d, tail, hc, -⟩ | ⟨hc, -, hquote, -⟩ := basicChar_cases c
    · rw [hc]
      exact fun heq ↦ by cases (List.cons.inj heq).1
    · rw [hc]
      exact fun heq ↦ hquote (List.cons.inj heq).1

theorem head_longBasicChars (s more : List Char) (hs : s.contains '\n' = false) :
    (longBasicChars 0 s ++ '"' :: more).head? ≠ some '\n' ∧
      (longBasicChars 0 s ++ '"' :: more).head? ≠ some '\r' := by
  cases s with
  | nil => exact ⟨by simp [longBasicChars], by simp [longBasicChars]⟩
  | cons c s =>
    rw [longBasicChars]
    split_ifs with hc hzero
    · exact absurd hzero (by decide)
    · exact ⟨by simp, by simp⟩
    · cases hes : escaped? c with
      | some es =>
        obtain ⟨d, tail, rfl, -⟩ := escapes_of_escaped? hes
        exact ⟨by simp, by simp⟩
      | none =>
        have hn : c ≠ '\n' := by
          rintro rfl
          simp at hs
        exact ⟨by simpa using hn, by simpa using (plain_of_escaped? hes hn).2.2⟩

theorem head_longLiteral (more : List Char) (hplain : ∀ c ∈ s, needsEscape c = false)
    (hs : s.contains '\n' = false) :
    (s ++ '\'' :: more).head? ≠ some '\n' ∧ (s ++ '\'' :: more).head? ≠ some '\r' := by
  cases s with
  | nil => exact ⟨by simp, by simp⟩
  | cons c s =>
    have hc := hplain c List.mem_cons_self
    have hn : c ≠ '\n' := by
      rintro rfl
      simp at hs
    have hr : c ≠ '\r' := by
      rintro rfl
      exact absurd hc (by decide)
    exact ⟨by simpa using hn, by simpa using hr⟩

/-- A string reads back from any form, where no quote follows. -/
theorem text_stringText (s : List Char) (hdouble : rest.head? ≠ some '"')
    (hsingle : rest.head? ≠ some '\'') : text (stringText s ++ rest) = some (s, rest) := by
  rw [stringText]
  split
  · next hform =>
    rw [List.append_assoc, List.singleton_append, List.cons_append,
      text_basic (head_basicBody s hdouble)]
    exact takes_basicBody s rest _ (Nat.lt_succ_self _)
  · next hform =>
    have hs := formOf_literal hform
    rw [List.append_assoc, List.singleton_append, List.cons_append, text_literal ?_]
    · exact literalBody_append hs rest
    · cases s with
      | nil => cases hform
      | cons c s => exact fun _ heq ↦ (hs c List.mem_cons_self).2 (List.cons.inj heq).1
  · next hform =>
    have h := takes_longBasicChars s (Nat.zero_le 2) hdouble
    simp only [List.append_assoc]
    exact text_long (fun _ ↦ rfl) h (head_longBasicChars s _)
  · next hform =>
    obtain ⟨hplain, hrun⟩ := formOf_longLiteral hform
    have h := takes_longLiteral s hplain hrun hsingle
    simp only [List.append_assoc]
    exact text_long (fun _ ↦ rfl) h (head_longLiteral _ hplain)

end

end NativeTransfer.Toml
