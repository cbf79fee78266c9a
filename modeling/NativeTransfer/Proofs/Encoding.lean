import Mathlib.Tactic.IntervalCases
import NativeTransfer.Text.Utf8

/-!
# What UTF-8 encodes it decodes

The octets of a character settle that character and nothing else, so that reading the octets of a
text, strictly or not, gives the text back. The first octet says how many follow and where the
second may lie, and each of the others adds six bits.

## Reading as a walk

A decoder goes over the octets with a state that says how many are still to come and where the next
may lie. A whole character takes it from the state between characters back to that state, and has it
put out that one character (`scan_utf8EncodeChar`); this is four cases, one for each length, and the
only place where the numbers of the encoding are opened. Texts are then an induction on characters,
for the strict reader and for the forgiving one at once, since the walk is the same for both.
-/

namespace NativeTransfer.Text

/-! ## First octets -/

theorem lead_one {n : Nat} (h : n < 0x80) : lead (.ofNat n) = .whole (.ofNat n) := by
  have hn : (UInt8.ofNat n).toNat = n := UInt8.toNat_ofNat_of_lt' (Nat.lt_trans h (by decide))
  simp only [lead, hn]
  rw [if_pos h]

theorem lead_two {n : Nat} (hlow : 2 ≤ n) (hhigh : n < 32) :
    lead (.ofNat (n + 192)) = .begun ⟨0, 0x80, 0xBF, n⟩ := by
  interval_cases n <;> rfl

theorem lead_three {n : Nat} (h : n < 16) : lead (.ofNat (n + 224)) =
    .begun ⟨1, if n = 0 then 0xA0 else 0x80, if n = 0xD then 0x9F else 0xBF, n⟩ := by
  interval_cases n <;> rfl

theorem lead_four {n : Nat} (h : n < 5) : lead (.ofNat (n + 240)) =
    .begun ⟨2, if n = 0 then 0x90 else 0x80, if n = 4 then 0x8F else 0xBF, n⟩ := by
  interval_cases n <;> rfl

/-! ## Walking over a character -/

variable {b : Begun} {n : Nat} {x : UInt8} {rest : Bytes}

theorem scan_whole {c : Char} (h : lead x = .whole c) :
    scan none (x :: rest) = some c :: scan none rest := by
  rw [scan, Option.map_none, Option.getD_none, startWith, h]
  rfl

theorem scan_begun (h : lead x = .begun b) : scan none (x :: rest) = scan (some b) rest := by
  rw [scan, Option.map_none, Option.getD_none, startWith, h]
  rfl

/-- Six more bits, within the bounds for them. -/
theorem continueWith_push {low high : UInt8} {more value : Nat} (hn : n < 64)
    (hlow : low.toNat ≤ n + 128) (hhigh : n + 128 ≤ high.toNat) :
    Begun.continueWith ⟨more, low, high, value⟩ (.ofNat (n + 128)) =
      match more with
      | 0 => ([some (.ofNat (value * 64 + n))], none)
      | more + 1 => ([], some ⟨more, 0x80, 0xBF, value * 64 + n⟩) := by
  have hx : (UInt8.ofNat (n + 128)).toNat = n + 128 :=
    UInt8.toNat_ofNat_of_lt' (Nat.lt_trans (Nat.add_lt_add_right hn 128) (by decide))
  have hpush (b : Begun) : b.push (.ofNat (n + 128)) = b.value * 64 + n := by
    unfold Begun.push
    simp only [hx, Nat.add_sub_cancel]
  have hin : low ≤ UInt8.ofNat (n + 128) ∧ UInt8.ofNat (n + 128) ≤ high := by
    rw [UInt8.le_iff_toNat_le, UInt8.le_iff_toNat_le, hx]
    exact ⟨hlow, hhigh⟩
  rw [Begun.continueWith, if_pos hin]
  cases more with
  | zero => simp only [hpush]
  | succ more => simp only [hpush]

theorem scan_next {low high : UInt8} {more value : Nat} (hn : n < 64)
    (hlow : low.toNat ≤ n + 128) (hhigh : n + 128 ≤ high.toNat) :
    scan (some ⟨more + 1, low, high, value⟩) (.ofNat (n + 128) :: rest) =
      scan (some ⟨more, 0x80, 0xBF, value * 64 + n⟩) rest := by
  rw [scan, Option.map_some, Option.getD_some, continueWith_push hn hlow hhigh]
  rfl

section

variable {value : Nat} (hn : n < 64)

include hn

theorem within_tail : (0x80 : UInt8).toNat ≤ n + 128 ∧ n + 128 ≤ (0xBF : UInt8).toNat :=
  ⟨Nat.le_add_left 128 n, Nat.add_le_add_right (Nat.le_of_lt_succ hn) 128⟩

theorem scan_tail {more : Nat} :
    scan (some ⟨more + 1, 0x80, 0xBF, value⟩) (.ofNat (n + 128) :: rest) =
      scan (some ⟨more, 0x80, 0xBF, value * 64 + n⟩) rest :=
  scan_next hn (within_tail hn).1 (within_tail hn).2

theorem scan_last :
    scan (some ⟨0, 0x80, 0xBF, value⟩) (.ofNat (n + 128) :: rest) =
      some (.ofNat (value * 64 + n)) :: scan none rest := by
  rw [scan, Option.map_some, Option.getD_some,
    continueWith_push hn (within_tail hn).1 (within_tail hn).2]
  rfl

end

/-- The octets of a character are read as that character. -/
theorem scan_utf8EncodeChar (c : Char) (rest : Bytes) :
    scan none (String.utf8EncodeChar c ++ rest) = some c :: scan none rest := by
  have hvalid : c.val.toNat < 0xD800 ∨ 0xDFFF < c.val.toNat ∧ c.val.toNat < 0x110000 := c.valid
  have hback {n : Nat} (h : n = c.val.toNat) : Char.ofNat n = c := by
    rw [h]
    exact Char.ofNat_toNat c
  rw [String.utf8EncodeChar]
  generalize c.val.toNat = v at hvalid hback ⊢
  split
  · rw [List.singleton_append, scan_whole (lead_one (by omega)), hback rfl]
  split
  · rw [List.cons_append, List.singleton_append, Nat.mod_eq_of_lt (by omega : v / 64 < 32),
      scan_begun (lead_two (by omega) (by omega)), scan_last (by omega), hback (by omega)]
  split
  · -- The second octet lies higher after the first lead, and lower after the one of surrogates.
    have hlow : (if v / 4096 = 0 then (0xA0 : UInt8) else 0x80).toNat ≤ v / 64 % 64 + 128 := by
      split
      · show 160 ≤ _
        omega
      · show 128 ≤ _
        omega
    have hhigh : v / 64 % 64 + 128 ≤ (if v / 4096 = 0xD then (0x9F : UInt8) else 0xBF).toNat := by
      split
      · show _ ≤ 159
        omega
      · show _ ≤ 191
        omega
    rw [List.cons_append, List.cons_append, List.singleton_append,
      Nat.mod_eq_of_lt (by omega : v / 4096 < 16), scan_begun (lead_three (by omega)),
      scan_next (by omega) hlow hhigh, scan_last (by omega), hback (by omega)]
  · have hlow : (if v / 262144 = 0 then (0x90 : UInt8) else 0x80).toNat ≤ v / 4096 % 64 + 128 := by
      split
      · show 144 ≤ _
        omega
      · show 128 ≤ _
        omega
    have hhigh : v / 4096 % 64 + 128 ≤ (if v / 262144 = 4 then (0x8F : UInt8) else 0xBF).toNat := by
      split
      · show _ ≤ 143
        omega
      · show _ ≤ 191
        omega
    rw [List.cons_append, List.cons_append, List.cons_append, List.singleton_append,
      Nat.mod_eq_of_lt (by omega : v / 262144 < 8), scan_begun (lead_four (by omega)),
      scan_next (by omega) hlow hhigh, scan_tail (by omega), scan_last (by omega),
      hback (by omega)]

/-! ## Texts -/

theorem scan_utf8 (s : String) : scan none (utf8 s) = s.toList.map some := by
  rw [utf8]
  induction s.toList with
  | nil => rfl
  | cons c cs ih => rw [List.flatMap_cons, scan_utf8EncodeChar, ih, List.map_cons]

theorem strict?_utf8 (s : String) : strict? (utf8 s) = some s := by
  have hall (cs : List Char) : (cs.map some).mapM id = some cs := by
    induction cs with
    | nil => rfl
    | cons c cs ih => simp [ih]
  rw [strict?, scan_utf8, hall, Option.map_some, String.ofList_toList]

theorem forgiving_utf8 (s : String) : forgiving (utf8 s) = s := by
  rw [forgiving, scan_utf8, List.map_map]
  exact (congrArg String.ofList (List.map_id s.toList)).trans String.ofList_toList

end NativeTransfer.Text
