import NativeTransfer.Ledger.Places
import NativeTransfer.Pairs

/-!
# Rows and tables of places

How often an entry is found in a row of places, and in a table of rows. A release empties the places
from a mark on one after the other: an entry that is taken out is found once less, and when the last
place is empty the row is what was before the mark, with empty places behind it.

## Counting and looking

The count of an entry in a table is a sum over the rows, and a change to one row changes the sum by
what it changes there (`count_flatMap`). That is all that is needed of tables. Rows are looked at by
place: `Full` rows have no empty place, and in a full row the places and the entries are in step, so
that a mark for the one is a mark for the other.
-/

namespace NativeTransfer

/-! ## Counting in a table -/

namespace Pairs

variable {κ α β : Type} [DecidableEq κ] [BEq κ] [LawfulBEq κ] [BEq β] {l : List (κ × α)}

/-- What stands in a table is what stands under one key and what stands under the others. -/
theorem count_flatMap (f : α → List β) (b : β) (hl : (l.map (·.1)).Nodup) (k : κ) :
    (l.flatMap fun x ↦ f x.2).count b =
      (((l.lookup k).map f).getD []).count b +
        ((without k l).flatMap fun x ↦ f x.2).count b := by
  induction l with
  | nil => rfl
  | cons x rest ih =>
    obtain ⟨j, a⟩ := x
    rw [List.map_cons, List.nodup_cons] at hl
    rw [List.flatMap_cons, List.count_append, List.lookup_cons]
    by_cases hk : k = j
    · subst hk
      -- No other pair has the key, so none but the first goes.
      have hrest : without k rest = rest := by
        refine List.filter_eq_self.2 fun x hx ↦ decide_eq_true ?_
        rintro rfl
        exact hl.1 (List.mem_map.2 ⟨x, hx, rfl⟩)
      have hwithout : without k ((k, a) :: rest) = rest := by
        rw [without, List.filter_cons_of_neg (by simp)]
        exact hrest
      rw [beq_self_eq_true, hwithout]
      rfl
    · have hwithout : without k ((j, a) :: rest) = (j, a) :: without k rest := by
        rw [without, List.filter_cons_of_pos (by simpa using Ne.symm hk)]
        rfl
      rw [beq_false_of_ne hk, hwithout, List.flatMap_cons, List.count_append, ih hl.2]
      exact Nat.add_left_comm _ _ _

end Pairs

namespace Places

variable {p : Places} {k : Nat} {a : Allocation}

/-! ## Rows of places -/

theorem mem_entries : a ∈ p.entries ↔ some a ∈ p := by
  simp [entries]

/-- No place is empty. -/
def Full (p : Places) : Prop := none ∉ p

theorem Full.live (hp : p.Full) : p.live = p.position := by
  refine List.countP_eq_length.2 fun x hx ↦ ?_
  cases x with
  | none => exact absurd hx hp
  | some a => rfl

theorem Full.append (hp : p.Full) (a : Allocation) : Full (p ++ [some a]) := by
  intro hmem
  rcases List.mem_append.1 hmem with hp' | ha
  · exact hp hp'
  · cases List.mem_singleton.1 ha

theorem Full.take (hp : p.Full) (mark : Nat) : Full (p.take mark) :=
  fun hmem ↦ hp (List.mem_of_mem_take hmem)

theorem count_entries (p : Places) (a : Allocation) : p.entries.count a = p.count (some a) := by
  induction p with
  | nil => rfl
  | cons x p ih =>
    cases x with
    | none =>
      have hne : none ≠ some a := nofun
      rw [List.count_cons_of_ne hne]
      exact ih
    | some b =>
      have hb : entries (some b :: p) = b :: entries p := rfl
      rw [hb, List.count_cons, List.count_cons, ih]
      simp

theorem Full.entries_drop (hp : p.Full) (mark : Nat) :
    entries (p.drop mark) = p.entries.drop mark := by
  induction p generalizing mark with
  | nil => rw [List.drop_nil]; exact (List.drop_nil).symm
  | cons x p ih =>
    cases x with
    | none => exact absurd List.mem_cons_self hp
    | some a =>
      cases mark with
      | zero => rfl
      | succ mark => exact ih (fun hmem ↦ hp (List.mem_cons_of_mem _ hmem)) mark

theorem content?_eq_some : p.content? k = some a ↔ p[k]? = some (some a) := Option.join_eq_some_iff

/-- To empty an empty place changes nothing. -/
theorem vacate_of_content?_eq_none (h : p.content? k = none) : p.vacate k = p := by
  refine List.ext_getElem? fun j ↦ ?_
  rw [vacate, List.getElem?_set]
  split
  · next hj =>
    subst hj
    split
    · next hlt =>
      have hk : p[k]? = some p[k] := List.getElem?_eq_getElem hlt
      rw [content?, hk] at h
      rw [hk]
      exact congrArg some h.symm
    · next hlt => rw [List.getElem?_eq_none (Nat.le_of_not_lt hlt)]
  · rfl

theorem content?_vacate {j : Nat} (hj : j ≠ k) : (p.vacate k).content? j = p.content? j := by
  rw [content?, content?, vacate, List.getElem?_set_ne (Ne.symm hj)]

/-- What is taken out of a place is gone from the row. -/
theorem count_vacate (h : p.content? k = some a) (b : Allocation) :
    (p.vacate k).count (some b) + [a].count b = p.count (some b) := by
  obtain ⟨hk, ha⟩ := List.getElem?_eq_some_iff.1 (content?_eq_some.1 h)
  have hp : p.take k ++ some a :: p.drop (k + 1) = p := by
    rw [← ha, List.getElem_cons_drop, List.take_append_drop]
  have hv : p.vacate k = p.take k ++ none :: p.drop (k + 1) := by
    rw [vacate, List.set_eq_take_append_cons_drop, if_pos hk]
  have hsome : [some a].count (some b) = [a].count b := by
    simp [List.count_singleton]
  have hfull : p.count (some b) =
      (p.take k).count (some b) + ([some a].count (some b) + (p.drop (k + 1)).count (some b)) := by
    rw [← List.count_append, ← List.count_append, List.singleton_append, hp]
  have hne : none ≠ some b := nofun
  rw [hfull, hsome, hv, List.count_append, List.count_cons_of_ne hne]
  omega

/-- Emptying all places from a mark on leaves those before the mark. -/
theorem foldl_vacate (mark n : Nat) (hp : mark + n = p.length) :
    (List.range' mark n).foldl vacate p = p.take mark ++ List.replicate n none := by
  induction n generalizing p mark with
  | zero =>
    have hmark : p.length ≤ mark := Nat.le_of_eq hp.symm
    rw [List.take_of_length_le hmark, List.replicate_zero, List.append_nil]
    rfl
  | succ n ih =>
    have hlt : mark < p.length := by omega
    have hlength : mark + 1 + n = (p.vacate mark).length := by
      rw [vacate, List.length_set]
      omega
    have htake : (p.vacate mark).take (mark + 1) = p.take mark ++ [none] := by
      rw [vacate, List.take_add_one, List.take_set_of_le (Nat.le_refl _),
        List.getElem?_set_self hlt]
      rfl
    rw [List.range'_succ, List.foldl_cons, ih _ hlength, htake, List.append_assoc]
    rfl

/-- What is found in the places from a mark on are the entries from there on. -/
theorem filterMap_content? (mark n : Nat) (hp : mark + n = p.length) :
    (List.range' mark n).filterMap p.content? = entries (p.drop mark) := by
  induction n generalizing mark with
  | zero =>
    have hmark : p.length ≤ mark := Nat.le_of_eq hp.symm
    rw [List.drop_eq_nil_of_le hmark]
    rfl
  | succ n ih =>
    have hlt : mark < p.length := by omega
    have hcontent : p.content? mark = p[mark] := by
      rw [content?, List.getElem?_eq_getElem hlt]
      rfl
    rw [List.range'_succ, List.filterMap_cons, ih _ (by omega), hcontent, entries, entries,
      List.drop_eq_getElem_cons hlt, List.filterMap_cons]
    rfl

end Places

end NativeTransfer
