import NativeTransfer.Proofs.Asking

/-!
# The course of a handle

A handle is given out by the engine, used, and handed back, and its number may then be given out
again. `Course` is the language of the histories in which all goes well with one number: whatever
takes the handle comes after it was given out and before it was handed back, by the way by which it
was given out, and it is handed back once.

A handle is handed back by a call of the engine, or in vain: then the engine could not be reached
for it, and this is reported instead. In the language both are an end. Whether a report tells the
truth is not for a history to say, since it does not show what was asked of a library that lacks the
function.
-/

namespace NativeTransfer

/-! ## Events in the course of a handle -/

namespace Event

/-- Whether it is a call that takes the handle. -/
def takes (g : Nat) : Event → Bool
  | .native _ c => c.handle? = some g
  | _ => false

/-- Whether the engine gives the handle out. -/
def gives (g : Nat) : Event → Bool
  | .native _ c => c.given? = some g
  | _ => false

/-- Whether the engine takes the handle back. -/
def frees (g : Nat) : Event → Bool
  | .native _ c => c = .cleanup g
  | _ => false

/-- Whether it is reported that the handle was handed back in vain. -/
def strands (g : Nat) : Event → Bool
  | .log r => r.message = LogRecord.unreleased ∧
      r.fields.lookup "handle" = some (.text (Address.handle g).text)
  | _ => false

/-- Whether the handle is handed back. -/
def handsBack (g : Nat) (v : Event) : Bool := v.frees g || v.strands g

/-- What an event means to a handle: the way by which it is out before, and afterwards. -/
inductive Turns (g : Nat) : Event → Option Route → Option Route → Prop
  | aside {v c} (ht : v.takes g = false) (hg : v.gives g = false) (hs : v.strands g = false) :
      Turns g v c c
  | given {r x} (ht : x.handle? ≠ some g) (hg : x.given? = some g) :
      Turns g (.native r x) none (some r)
  | used {r x} (ht : x.handle? = some g) (hg : x.given? ≠ some g) (hne : x ≠ .cleanup g) :
      Turns g (.native r x) (some r) (some r)
  | released {r} : Turns g (.native r (.cleanup g)) (some r) none
  | stranded {v r} (hs : v.strands g = true) : Turns g v (some r) none

namespace Turns

variable {g : Nat} {v : Event} {c d : Option Route}

theorem handsBack_native_iff {r : Route} {x : NativeCall} :
    (native r x).handsBack g = true ↔ x = .cleanup g := by
  rw [handsBack, Bool.or_eq_true]
  exact (or_iff_left Bool.false_ne_true).trans decide_eq_true_iff

theorem handsBack_eq_false {r : Route} {x : NativeCall} (hx : x ≠ .cleanup g) :
    (native r x).handsBack g = false := Bool.eq_false_iff.2 fun h ↦ hx (handsBack_native_iff.1 h)

theorem handsBack_of_aside (ht : v.takes g = false) (hs : v.strands g = false) :
    v.handsBack g = false := by
  cases v with
  | native r x =>
    refine handsBack_eq_false ?_
    rintro rfl
    exact absurd (of_decide_eq_false ht) (by simp [NativeCall.handle?])
  | unreached | log | note | skipped | returned | filled => exact hs

/-- A handle is given out as often as it is handed back, but for being out before or after. -/
theorem count (hv : v.Turns g c d) :
    (if v.gives g = true then 1 else 0) + (if c.isSome = true then 1 else 0) =
      (if v.handsBack g = true then 1 else 0) + if d.isSome = true then 1 else 0 := by
  cases hv with
  | aside ht hg hs =>
    rw [hg, handsBack_of_aside ht hs]
  | @given r x ht hg =>
    have hback : (native r x).handsBack g = false := by
      refine handsBack_eq_false ?_
      rintro rfl
      exact ht rfl
    have hgives : (native r x).gives g = true := decide_eq_true hg
    rw [hback, hgives]
    rfl
  | @used r x ht hg hne =>
    have hgives : (native r x).gives g = false := decide_eq_false hg
    rw [handsBack_eq_false hne, hgives]
  | @released r =>
    have hback : (native r (.cleanup g)).handsBack g = true := handsBack_native_iff.2 rfl
    rw [hback]
    rfl
  | stranded hs =>
    cases v with
    | log x =>
      have hback : (log x).handsBack g = true := hs
      rw [hback]
      rfl
    | native | unreached | note | skipped | returned | filled => cases hs

/-- After it was handed back the handle is out no more. -/
theorem of_handsBack (hv : v.Turns g c d) (hb : v.handsBack g = true) : d = none := by
  cases hv with
  | aside ht _ hs =>
    rw [handsBack_of_aside ht hs] at hb
    cases hb
  | given ht =>
    obtain rfl := handsBack_native_iff.1 hb
    exact absurd rfl ht
  | used _ _ hne => exact absurd (handsBack_native_iff.1 hb) hne
  | released | stranded => rfl

theorem of_none (hv : v.Turns g none d) :
    v.takes g = false ∧ v.handsBack g = false ∧ (v.gives g = false → d = none) := by
  cases hv with
  | aside ht _ hs => exact ⟨ht, handsBack_of_aside ht hs, fun _ ↦ rfl⟩
  | given ht hg =>
    refine ⟨decide_eq_false ht, handsBack_eq_false ?_, fun hn ↦ absurd hg (of_decide_eq_false hn)⟩
    rintro rfl
    exact ht rfl

end Turns

end Event

/-- A history in which all goes well with a handle, from one way by which it is out to another. -/
inductive Course (g : Nat) : Option Route → List Event → Option Route → Prop
  | nil {c} : Course g c [] c
  | cons {v vs c d e} (hv : v.Turns g c d) (hvs : Course g d vs e) : Course g c (v :: vs) e

namespace Course

variable {g : Nat} {v : Event} {vs ws : List Event} {c d e : Option Route}

theorem single (hv : v.Turns g c d) : Course g c [v] d := .cons hv .nil

theorem append (hvs : Course g c vs d) (hws : Course g d ws e) : Course g c (vs ++ ws) e := by
  induction hvs with
  | nil => exact hws
  | cons hv _ ih => exact .cons hv (ih hws)

theorem of_forall (hvs : ∀ v ∈ vs, v.Turns g c c) : Course g c vs c := by
  induction vs with
  | nil => exact .nil
  | cons v vs ih =>
    exact .cons (hvs v List.mem_cons_self) (ih fun w hw ↦ hvs w (List.mem_cons_of_mem _ hw))

theorem exists_of_append (h : Course g c (vs ++ ws) e) :
    ∃ d, Course g c vs d ∧ Course g d ws e := by
  induction vs generalizing c with
  | nil => exact ⟨c, .nil, h⟩
  | cons v vs ih =>
    cases h with
    | cons hv h =>
      obtain ⟨d, hvs, hws⟩ := ih h
      exact ⟨d, .cons hv hvs, hws⟩

/-! ### What such a history shows -/

theorem count (h : Course g c vs d) :
    vs.countP (·.gives g) + (if c.isSome = true then 1 else 0) =
      vs.countP (·.handsBack g) + if d.isSome = true then 1 else 0 := by
  induction h with
  | nil => rfl
  | cons hv _ ih =>
    have hcount := hv.count
    rw [List.countP_cons, List.countP_cons]
    omega

theorem of_none (h : Course g none vs d) (hn : ∀ v ∈ vs, v.gives g = false) : d = none := by
  induction vs with
  | nil =>
    cases h
    rfl
  | cons v vs ih =>
    cases h with
    | cons hv hvs =>
      obtain rfl := hv.of_none.2.2 (hn v List.mem_cons_self)
      exact ih hvs fun w hw ↦ hn w (List.mem_cons_of_mem _ hw)

/-- After it was handed back, nothing is done with the handle before it is given out again. -/
theorem exists_gives {front mid back : List Event} {w : Event}
    (h : Course g c (front ++ v :: (mid ++ w :: back)) d) (hv : v.handsBack g = true)
    (hw : w.takes g = true ∨ w.handsBack g = true) : ∃ u ∈ mid, u.gives g = true := by
  obtain ⟨c', -, h⟩ := h.exists_of_append
  cases h with
  | cons hturn h =>
    obtain rfl := hturn.of_handsBack hv
    obtain ⟨e, hmid, hback⟩ := h.exists_of_append
    -- Otherwise the handle is still not out when it is taken or handed back again.
    by_contra hnone
    obtain rfl := hmid.of_none fun u hu ↦ Bool.eq_false_iff.2 fun hg ↦ hnone ⟨u, hu, hg⟩
    cases hback with
    | cons hturn' =>
      obtain ⟨ht, hb, -⟩ := hturn'.of_none
      rw [ht, hb] at hw
      simp at hw

end Course

end NativeTransfer
