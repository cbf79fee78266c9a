/-!
# Lists of pairs as tables

Most tables here are short lists of pairs: handles and their options, addresses and what they lead
to, names and what goes by them. The first pair with a key decides what the key stands for. What an
operation does to a table is said once, as an equation about looking up, and the equations hold
whether or not a key occurs twice.
-/

namespace NativeTransfer.Pairs

variable {κ α : Type} [DecidableEq κ]

/-- The pairs with other keys. -/
def without (k : κ) (l : List (κ × α)) : List (κ × α) := l.filter (·.1 ≠ k)

/-- A pair put in front, in place of those with the same key. -/
def put (k : κ) (a : α) (l : List (κ × α)) : List (κ × α) := (k, a) :: without k l

/-- Changes what stands under a key. -/
def adjust (k : κ) (f : α → α) (l : List (κ × α)) : List (κ × α) :=
  l.map fun x ↦ if x.1 = k then (x.1, f x.2) else x

/-! ## Keys -/

theorem nodup_without {l : List (κ × α)} (hl : (l.map Prod.fst).Nodup) (k : κ) :
    ((without k l).map Prod.fst).Nodup := hl.sublist (List.filter_sublist.map _)

theorem nodup_put {l : List (κ × α)} (hl : (l.map Prod.fst).Nodup) (k : κ) (a : α) :
    ((put k a l).map Prod.fst).Nodup := by
  rw [put, List.map_cons, List.nodup_cons]
  refine ⟨fun hm ↦ ?_, nodup_without hl k⟩
  obtain ⟨x, hx, hk⟩ := List.mem_map.1 hm
  rw [without, List.mem_filter, decide_eq_true_iff] at hx
  exact hx.2 hk

/-! ## Looking up -/

variable [BEq κ] [LawfulBEq κ]

@[simp] theorem lookup_without (k j : κ) (l : List (κ × α)) :
    (without k l).lookup j = if j = k then none else l.lookup j := by
  induction l with
  | nil => simp [without]
  | cons x rest ih =>
    rcases x with ⟨i, a⟩
    rw [without] at ih ⊢
    by_cases hi : i = k
    · -- The pair goes, and only a search for its own key would have stopped there.
      subst hi
      rw [List.filter_cons_of_neg (by simp), ih]
      by_cases hj : j = i
      · rw [if_pos hj, if_pos hj]
      · rw [if_neg hj, if_neg hj, List.lookup_cons, beq_false_of_ne hj]
    · rw [List.filter_cons_of_pos (by simpa using hi), List.lookup_cons, List.lookup_cons, ih]
      by_cases hj : j = i
      · subst hj
        simp [hi]
      · rw [beq_false_of_ne hj]

@[simp] theorem lookup_put (k j : κ) (a : α) (l : List (κ × α)) :
    (put k a l).lookup j = if j = k then some a else l.lookup j := by
  by_cases h : j = k
  · subst h
    simp [put]
  · rw [put, List.lookup_cons, beq_false_of_ne h, lookup_without, if_neg h, if_neg h]

@[simp] theorem lookup_adjust (k j : κ) (f : α → α) (l : List (κ × α)) :
    (adjust k f l).lookup j = if j = k then (l.lookup j).map f else l.lookup j := by
  induction l with
  | nil => simp [adjust]
  | cons x rest ih =>
    rcases x with ⟨i, a⟩
    rw [adjust] at ih ⊢
    rw [List.map_cons]
    by_cases hj : j = i
    · subst hj
      by_cases hk : j = k
      · subst hk
        simp
      · simp [hk]
    · have hfst : (if i = k then (i, f a) else (i, a)) = (i, if i = k then f a else a) := by
        split <;> rfl
      rw [hfst, List.lookup_cons, List.lookup_cons, beq_false_of_ne hj]
      exact ih

end NativeTransfer.Pairs
