import Mathlib.Tactic.IntervalCases
import NativeTransfer.Toml.Reader

/-!
# A written integer reads back

An integer is written in decimal digits at the end of a line. The reader tries a date first, and
then looks for a fraction or an exponent; both give up at the line end.

## What else it could be

A value that begins with a digit or a minus may be a date, a time, a decimal or hexadecimal number
or one with a fraction. The reader tries them in an order, and each attempt must be shown to give up
or to come to the number. What decides is the character behind the digits, which is the line end,
and that a decimal numeral has no zero in front, so that it is no mark of another base.
-/

namespace NativeTransfer.Toml

section

variable {c : Char} {ds rest : List Char}

theorem ne_of_kind {kind : Char → Bool} {d : Char} (hc : kind c = true) (hd : kind d = false) :
    c ≠ d := by
  rintro rfl
  rw [hc] at hd
  cases hd

/-! ## Digits -/

theorem isDigit_iff_toNat : c.isDigit = true ↔ 48 ≤ c.toNat ∧ c.toNat ≤ 57 := by
  simp only [Char.isDigit, Bool.and_eq_true, decide_eq_true_eq]
  rfl

/-- The values of decimal digits. -/
def digitValues (ds : List Char) : List Nat := ds.map fun c ↦ c.toNat - 48

theorem digitValue?_of_isDigit (hc : c.isDigit = true) :
    digitValue? 10 c = some (c.toNat - 48) := by
  have hrange := isDigit_iff_toNat.1 hc
  have hchars : (decide ('0' ≤ c) && decide (c ≤ '9')) = true := by
    rw [Bool.and_eq_true, decide_eq_true_eq, decide_eq_true_eq]
    exact hrange
  simp only [digitValue?, hchars, if_true]
  exact if_pos (by omega)

theorem moreDigits_append {fuel : Nat} (hds : ∀ c ∈ ds, c.isDigit = true)
    (hfuel : ds.length ≤ fuel) (rest : List Char) :
    moreDigits 10 fuel (ds ++ '\n' :: rest) = some (digitValues ds, '\n' :: rest) := by
  induction ds generalizing fuel with
  | nil =>
    cases fuel with
    | zero => rfl
    | succ fuel => rfl
  | cons c ds ih =>
    cases fuel with
    | zero => exact absurd hfuel (Nat.not_succ_le_zero _)
    | succ fuel =>
      have hc := hds c List.mem_cons_self
      have hmore := ih (fun d hd ↦ hds d (List.mem_cons_of_mem _ hd)) (Nat.le_of_succ_le_succ hfuel)
      rw [List.cons_append, moreDigits, digitValue?_of_isDigit hc]
      · simp only [Option.bind_eq_bind, Option.bind_some, hmore]
        rfl
      · exact fun _ _ h _ ↦ ne_of_kind hc rfl h
      · exact fun h _ ↦ ne_of_kind hc rfl h

theorem digits_append (hds : ∀ c ∈ ds, c.isDigit = true) (hne : ds ≠ []) :
    digits 10 (ds ++ '\n' :: rest) = some (digitValues ds, '\n' :: rest) := by
  obtain ⟨c, ds, rfl⟩ := List.exists_cons_of_ne_nil hne
  rw [List.cons_append, digits, digitValue?_of_isDigit (hds c List.mem_cons_self)]
  have hmore := moreDigits_append (fun d hd ↦ hds d (List.mem_cons_of_mem _ hd))
    (by simp : ds.length ≤ (ds ++ '\n' :: rest).length) rest
  simp only [Option.bind_eq_bind, Option.bind_some, hmore]
  rfl

theorem numeral_digitValues (ds : List Char) :
    numeral 10 (digitValues ds) = Nat.ofDigitChars 10 ds 0 := by
  rw [numeral, digitValues, Nat.ofDigitChars, List.foldl_map]
  congr 1
  funext n c
  rw [Nat.mul_comm]
  rfl

theorem head_toDigits {m : Nat} (hm : 0 < m) : (Nat.toDigits 10 m).head? ≠ some '0' := by
  induction m using Nat.base_induction 10 (by decide) with
  | single m hlt =>
    rw [Nat.toDigits_of_lt_base hlt]
    interval_cases m <;> decide
  | digit m k hk hpos ih =>
    obtain ⟨d, ds, hds⟩ := List.exists_cons_of_ne_nil (Nat.toDigits_ne_nil (n := m) (b := 10))
    rw [← Nat.toDigits_append_toDigits (by decide) hpos hk, hds]
    rw [hds] at ih
    exact ih hpos

theorem toDigits_append_ne {m : Nat} (hm : 0 < m) (cs more : List Char) :
    Nat.toDigits 10 m ++ cs ≠ '0' :: more := by
  obtain ⟨d, ds, hds⟩ := List.exists_cons_of_ne_nil (Nat.toDigits_ne_nil (n := m) (b := 10))
  have hhead := head_toDigits hm
  rw [hds] at hhead ⊢
  intro heq
  rw [(List.cons.inj heq).1] at hhead
  exact hhead rfl

theorem isDigit_toDigits (m : Nat) : ∀ c ∈ Nat.toDigits 10 m, c.isDigit = true :=
  fun _ hc ↦ Nat.isDigit_of_mem_toDigits (by decide) (by decide) hc

theorem wholePart_toDigits (m : Nat) (rest : List Char) :
    ∃ ds, wholePart (Nat.toDigits 10 m ++ '\n' :: rest) = some (ds, '\n' :: rest) ∧
      numeral 10 ds = m := by
  rcases Nat.eq_zero_or_pos m with rfl | hm
  · exact ⟨[0], rfl, rfl⟩
  · refine ⟨digitValues (Nat.toDigits 10 m), ?_, ?_⟩
    · rw [wholePart]
      · exact digits_append (isDigit_toDigits m) Nat.toDigits_ne_nil
      · exact fun more heq ↦ toDigits_append_ne hm _ more heq
    · rw [numeral_digitValues, Nat.ofDigitChars_ten_toDigits]

/-! ## No date -/

/-- A number of a fixed length ends before the line does, and none of the marks of a date or a time
follows it. -/
theorem expect_fixedNumber {n low high v : Nat} {cs : List Char} {mark : Char}
    (hds : ∀ c ∈ ds, c.isDigit = true) (hmark : mark.isDigit = false) (hline : mark ≠ '\n')
    (h : fixedNumber n low high (ds ++ '\n' :: rest) = some (v, cs)) : expect mark cs = none := by
  rw [fixedNumber] at h
  dsimp only at h
  split_ifs at h with hfront hbounds
  obtain rfl : (ds ++ '\n' :: rest).drop n = cs := (Prod.mk.inj (Option.some.inj h)).2
  rw [Bool.and_eq_true, decide_eq_true_eq] at hfront
  obtain ⟨hlength, hdigits⟩ := hfront
  -- A front that reached past the digits would hold the line end.
  have hle : n ≤ ds.length := by
    by_contra hlt
    obtain ⟨k, hk⟩ := Nat.exists_eq_add_of_lt (Nat.lt_of_not_le hlt)
    have hmem : '\n' ∈ (ds ++ '\n' :: rest).take n := by
      rw [hk, Nat.add_assoc, List.take_append, List.take_of_length_le (by omega),
        Nat.add_sub_cancel_left, List.take_succ_cons]
      exact List.mem_append_right _ List.mem_cons_self
    exact absurd (List.all_eq_true.1 hdigits _ hmem) (by decide)
  rw [List.drop_append_of_le_length hle]
  cases hd : ds.drop n with
  | nil => exact if_neg hline.symm
  | cons d more =>
    have hmem : d ∈ ds := List.mem_of_mem_drop (hd ▸ List.mem_cons_self)
    refine if_neg ?_
    rintro rfl
    rw [hds _ hmem] at hmark
    cases hmark

theorem dateTime_digits (hds : ∀ c ∈ ds, c.isDigit = true) :
    dateTime (ds ++ '\n' :: rest) = none := by
  have hdate : date (ds ++ '\n' :: rest) = none := by
    rw [date]
    cases h : fixedNumber 4 0 9999 (ds ++ '\n' :: rest) with
    | none => rfl
    | some p =>
      have hexpect : expect '-' p.2 = none := expect_fixedNumber hds rfl (by decide) h
      simp only [Option.bind_eq_bind, Option.bind_some, hexpect, Option.bind_none]
  have htime : timeOfDay (ds ++ '\n' :: rest) = none := by
    rw [timeOfDay]
    cases h : fixedNumber 2 0 23 (ds ++ '\n' :: rest) with
    | none => rfl
    | some p =>
      have hexpect : expect ':' p.2 = none := expect_fixedNumber hds rfl (by decide) h
      simp only [Option.bind_eq_bind, Option.bind_some, hexpect, Option.bind_none]
  rw [dateTime, hdate, htime]

theorem dateTime_minus (cs : List Char) : dateTime ('-' :: cs) = none := by
  have hfixed (n low high : Nat) : fixedNumber (n + 1) low high ('-' :: cs) = none := by
    rw [fixedNumber, List.take_succ_cons]
    exact if_neg (by simp)
  rw [dateTime, date, hfixed, timeOfDay, hfixed]
  rfl

/-! ## Integers -/

theorem exists_digit (m : Nat) : ∃ d ds, Nat.toDigits 10 m = d :: ds ∧ d.isDigit = true := by
  obtain ⟨d, ds, hds⟩ := List.exists_cons_of_ne_nil (Nat.toDigits_ne_nil (n := m) (b := 10))
  exact ⟨d, ds, hds, isDigit_toDigits m d (hds ▸ List.mem_cons_self)⟩

theorem sign_digits (m : Nat) (rest : List Char) :
    sign (Nat.toDigits 10 m ++ '\n' :: rest) = (false, Nat.toDigits 10 m ++ '\n' :: rest) := by
  obtain ⟨d, ds, hds, hd⟩ := exists_digit m
  rw [hds, List.cons_append, sign]
  · exact fun _ h ↦ ne_of_kind hd rfl (List.cons.inj h).1
  · exact fun _ h ↦ ne_of_kind hd rfl (List.cons.inj h).1

theorem namedFloat_digits (m : Nat) : namedFloat (Nat.toDigits 10 m ++ '\n' :: rest) = none := by
  obtain ⟨d, ds, hds, hd⟩ := exists_digit m
  rw [hds, List.cons_append, namedFloat]
  · exact fun _ h ↦ ne_of_kind hd rfl (List.cons.inj h).1
  · exact fun _ h ↦ ne_of_kind hd rfl (List.cons.inj h).1

section

variable {cs : List Char} {negative : Bool} {m : Nat} {n : Int}
  (hsign : sign cs = (negative, Nat.toDigits 10 m ++ '\n' :: rest))

include hsign

theorem integer_decimal (hdecimal : ∀ d more, cs = '0' :: d :: more → d ≠ 'x' ∧ d ≠ 'o' ∧ d ≠ 'b')
    (hn : fitting? (if negative then -(m : Int) else m) = some n) :
    integer cs = some (n, '\n' :: rest) := by
  obtain ⟨ds, hwhole, hds⟩ := wholePart_toDigits m rest
  rw [integer.eq_def]
  split
  · exact absurd rfl (hdecimal _ _ rfl).1
  · exact absurd rfl (hdecimal _ _ rfl).2.1
  · exact absurd rfl (hdecimal _ _ rfl).2.2
  · rw [hsign]
    simp only [hwhole, Option.bind_eq_bind, Option.bind_some, hds, hn]
    rfl

theorem number_integer (hinteger : integer cs = some (n, '\n' :: rest)) :
    number cs = some (.integer n, '\n' :: rest) := by
  obtain ⟨ds, hwhole, -⟩ := wholePart_toDigits m rest
  rw [number, hsign]
  dsimp only
  rw [namedFloat_digits, hwhole, hinteger]
  rfl

end

theorem ne_of_number {d : Char} (hc : c.isDigit = true ∨ c = '-') (hd : d.isDigit = false)
    (hminus : d ≠ '-') : c ≠ d := by
  rcases hc with hc | rfl
  · exact ne_of_kind hc hd
  · exact hminus.symm

/-- What begins neither a word nor a string is a date or a number. -/
theorem scalar_number {c : Char} {cs : List Char} (hc : c.isDigit = true ∨ c = '-')
    (hdate : dateTime (c :: cs) = none) : scalar (c :: cs) = number (c :: cs) := by
  have hne {d : Char} := ne_of_number (d := d) hc
  rw [scalar.eq_def]
  split
  · next heq => cases heq
  · next heq => exact absurd (List.cons.inj heq).1 (hne rfl (by decide))
  · next heq => exact absurd (List.cons.inj heq).1 (hne rfl (by decide))
  · next heq =>
    obtain ⟨rfl, rfl⟩ := List.cons.inj heq
    rw [if_neg, hdate]
    have hdouble := hne (d := '"') rfl (by decide)
    have hsingle := hne (d := '\'') rfl (by decide)
    simp [hdouble, hsingle]

theorem toString_cons (n : Int) :
    ∃ c cs, (toString n).toList = c :: cs ∧ (c.isDigit = true ∨ c = '-') := by
  rw [Int.toString_eq_repr, Int.repr_eq_if]
  split
  · obtain ⟨d, ds, hds, hd⟩ := exists_digit n.toNat
    exact ⟨d, ds, by rw [Nat.toList_repr, hds], .inl hd⟩
  · exact ⟨'-', _, by rw [String.toList_append]; rfl, .inr rfl⟩

/-- An integer of 64 bits reads back at the end of a line. -/
theorem scalar_toString {n : Int} (hn : fitting? n = some n) :
    scalar ((toString n).toList ++ '\n' :: rest) = some (.integer n, '\n' :: rest) := by
  rw [Int.toString_eq_repr, Int.repr_eq_if]
  split
  · next hpos =>
    rw [Nat.toList_repr]
    have hsign := sign_digits n.toNat rest
    have hdecimal (d : Char) (more : List Char)
        (heq : Nat.toDigits 10 n.toNat ++ '\n' :: rest = '0' :: d :: more) :
        d ≠ 'x' ∧ d ≠ 'o' ∧ d ≠ 'b' := by
      -- Only zero begins with a zero, and the line ends behind it.
      rcases Nat.eq_zero_or_pos n.toNat with hzero | hpos
      · rw [hzero] at heq
        obtain ⟨rfl, -⟩ := List.cons.inj (List.cons.inj heq).2
        decide
      · exact absurd heq (toDigits_append_ne hpos _ _)
    have hinteger := integer_decimal hsign hdecimal (n := n) (by simpa [hpos] using hn)
    have hdate : dateTime (Nat.toDigits 10 n.toNat ++ '\n' :: rest) = none :=
      dateTime_digits (isDigit_toDigits n.toNat)
    obtain ⟨d, ds, hds, hd⟩ := exists_digit n.toNat
    have hnumber := number_integer hsign hinteger
    rw [hds] at hnumber hdate ⊢
    exact (scalar_number (.inl hd) hdate).trans hnumber
  · next hneg =>
    have hsign : sign ('-' :: (Nat.toDigits 10 (-n).toNat ++ '\n' :: rest)) =
      (true, Nat.toDigits 10 (-n).toNat ++ '\n' :: rest) := rfl
    have hinteger := integer_decimal hsign (fun _ _ heq ↦ by cases (List.cons.inj heq).1) (n := n)
      (by rw [if_pos rfl, Int.toNat_of_nonneg (by omega), Int.neg_neg, hn])
    rw [String.toList_append, Nat.toList_repr]
    exact (scalar_number (.inr rfl) (dateTime_minus _)).trans (number_integer hsign hinteger)

end

end NativeTransfer.Toml
