import NativeTransfer.Proofs.Release
import NativeTransfer.Wrapper.Setting

/-!
# Arguments stored one by one

Most of what sets an option comes down to a list of arguments, given to the engine one after the
other until it refuses one. `Stores` says that a program does just this: if it succeeds all of them
are stored, and if it fails those are that come before some place in the list. Programs that follow
each other store what is on their lists together.

## Beginnings

A list of arguments is stored from the front, so what was stored when an argument is refused is a
beginning of the list and not the whole of it (`Through`). For two lists one after the other that is
a beginning of the first, or the first with a beginning of the second, which is a beginning of the
two together. So the arguments of a wiring are one list however the programs that give them are
nested, and no case analysis on which argument was refused is left to those who use it.
-/

namespace NativeTransfer.Wrapper

open State

variable {id : WrapperId} {h : Nat}

/-- By a way to the engine that the wrapper has, the program gives the engine these arguments in
this order, and stops at the first refusal. -/
def StoresBy (api : Api) (id : WrapperId) (h : Nat) (xs : List (OptionCode × Argument))
    (x : Attempt Unit) : Prop :=
  ∀ s : State, (s.wrapper id).api = api → Leads x s (fun _ t ↦ Drift [] (s.storeAll id h xs) t)
    fun _ t ↦ ∃ done, done <+: xs ∧ done ≠ xs ∧ Drift [] (s.storeAll id h done) t

/-- The same, whatever way the wrapper has. -/
def Stores (id : WrapperId) (h : Nat) (xs : List (OptionCode × Argument)) (x : Attempt Unit) :
    Prop := ∀ api, StoresBy api id h xs x

/-- All of a list is stored if there is no failure, and else what comes before some place in it. -/
inductive Through (xs : List (OptionCode × Argument)) :
    List (OptionCode × Argument) → Except Error Unit → Prop
  | all : Through xs xs (.ok ())
  | part {done : List (OptionCode × Argument)} {e : Error} (hpre : done <+: xs) (hne : done ≠ xs) :
      Through xs done (.error e)

theorem Through.isPrefix {xs done : List (OptionCode × Argument)} {r : Except Error Unit}
    (h : Through xs done r) : done <+: xs := by
  cases h with
  | all => exact List.prefix_refl xs
  | part hpre => exact hpre

/-! ## Programs that follow each other -/

section

variable {api : Api} {xs ys : List (OptionCode × Argument)} {x y : Attempt Unit}

theorem StoresBy.nil : StoresBy api id h [] (pure ()) := fun s _ ↦ Drift.refl s

theorem StoresBy.append (hx : StoresBy api id h xs x) (hy : StoresBy api id h ys y) :
    StoresBy api id h (xs ++ ys) (x >>= fun _ ↦ y) := by
  intro s hs
  rw [leads_bind]
  refine (hx s hs).mono (fun _ t ht ↦ ?_) ?_
  · have hapi : (t.wrapper id).api = api := by
      rw [ht.wrapper, wrapper_storeAll]
      exact hs
    refine (hy t hapi).mono (fun _ u hu ↦ ?_) ?_
    · rw [storeAll_append]
      exact (ht.storeAll id h ys).trans hu
    · rintro e u ⟨done, hpre, hne, hu⟩
      refine ⟨xs ++ done, (List.prefix_append_right_inj xs).2 hpre, ?_, ?_⟩
      · exact fun heq ↦ hne (List.append_cancel_left heq)
      · rw [storeAll_append]
        exact (ht.storeAll id h done).trans hu
  · -- The second program is never run, and its list must not be empty for that to show.
    rintro e t ⟨done, hpre, hne, ht⟩
    refine ⟨done, hpre.trans (List.prefix_append xs ys), ?_, ht⟩
    rintro rfl
    have hys : ys = [] := by
      have hlen := hpre.length_le
      rw [List.length_append] at hlen
      exact List.eq_nil_of_length_eq_zero (by omega)
    exact hne (by rw [hys, List.append_nil])

theorem Stores.nil : Stores id h [] (pure ()) := fun _ ↦ .nil

theorem Stores.append (hx : Stores id h xs x) (hy : Stores id h ys y) :
    Stores id h (xs ++ ys) (x >>= fun _ ↦ y) := fun api ↦ (hx api).append (hy api)

theorem Stores.cons {z : OptionCode × Argument} (hx : Stores id h [z] x) (hy : Stores id h ys y) :
    Stores id h (z :: ys) (x >>= fun _ ↦ y) := hx.append hy

end

/-! ## Single arguments -/

/-- A native call for an option, checked, stores the argument or changes nothing. -/
theorem storesBy_call {api : Api} {o : OptionCode} {x : Argument} {call : Attempt ResultCode}
    (hcall : call = ResultCode.ofSigned <$> api.call (Method.storing o x)
      fun p e ↦ e.answerSetopt p (Method.storing o x) h o x) :
    StoresBy api id h [(o, x)] (call >>= api.check) := by
  intro s hs
  rw [hcall]
  refine api.leads_checked ?_
  refine (api.leads_setopt hs h o x).mono (fun c t ht ↦ ⟨fun hc ↦ ?_, fun hc ↦ ?_⟩) ?_
  · rw [if_pos hc] at ht
    exact ht
  · rw [hc] at ht
    exact fun e u hu ↦ ⟨[], List.nil_prefix, nofun, ht.trans hu⟩
  · exact fun e t ht ↦ ⟨[], List.nil_prefix, nofun, ht⟩

theorem stores_getApi {xs : List (OptionCode × Argument)} {f : Api → Attempt Unit}
    (hf : ∀ api, StoresBy api id h xs (f api)) :
    Stores id h xs (do f (← getApi id)) := by
  intro api s hs
  rw [leads_bind, leads_getApi]
  exact hf _ s rfl

theorem stores_setPointer (o : OptionCode) (a : Address) :
    Stores id h [(o, .pointer a)] (setPointer id h o a) :=
  stores_getApi fun api ↦ storesBy_call (api.setPointer_eq h o a)

theorem stores_setFunction (o : OptionCode) (a : Address) :
    Stores id h [(o, .function a)] (setFunction id h o a) :=
  stores_getApi fun api ↦ storesBy_call (api.setFunction_eq h o a)

/-- An integer that an option does not take is refused before the engine hears of it. -/
theorem stores_setInteger (o : OptionCode) (n : Int64) :
    Stores id h [(o, .integer n)] (setInteger id h o n) := by
  by_cases hw : o.isWide = true
  · have heq : setInteger id h o n = (do
        let api ← getApi id
        api.check (← api.setOffset h o n)) := by simp only [setInteger_eq, if_pos hw]
    rw [heq]
    exact stores_getApi fun _ ↦ storesBy_call (by rw [Method.storing, if_pos hw, Api.setOffset_eq])
  · by_cases hl : o.encoding = .long
    · have heq : setInteger id h o n = (do
          let api ← getApi id
          api.check (← api.setLong h o n)) := by simp only [setInteger_eq, if_neg hw, if_pos hl]
      rw [heq]
      exact stores_getApi fun _ ↦ storesBy_call (by rw [Method.storing, if_neg hw, Api.setLong_eq])
    · have heq : setInteger id h o n = (do
          let _ ← getApi id
          throw (mismatch o .long)) := by simp only [setInteger_eq, if_neg hw, if_neg hl]
      rw [heq]
      exact fun _ s _ ↦ ⟨[], List.nil_prefix, nofun, Drift.refl s⟩

/-! ## Wiring -/

/-- What points the engine at the trampoline of a kind. -/
def wiring (h : Nat) (k : CallbackKind) : List (OptionCode × Argument) :=
  (k.dataOption, .pointer (.handle h)) ::
    ((if k = .progress then [(.noProgress, .integer 0)] else []) ++
      [(k.functionOption, .function (.trampoline k))])

/-- What takes function and context of a kind away from the engine. -/
def unwiring (k : CallbackKind) : List (OptionCode × Argument) :=
  (k.functionOption, .function .null) :: (k.dataOption, .pointer .null) ::
    if k = .progress then [(.noProgress, .integer 1)] else []

theorem stores_wire (k : CallbackKind) : Stores id h (wiring h k) (wire id h k) := by
  refine (stores_setPointer k.dataOption (.handle h)).cons ?_
  by_cases hk : k = .progress
  · simp only [if_pos hk]
    exact (stores_setInteger _ _).append (stores_setFunction _ _)
  · simp only [if_neg hk]
    exact Stores.nil.append (stores_setFunction _ _)

theorem stores_unwire (k : CallbackKind) : Stores id h (unwiring k) (unwire id h k) := by
  refine (stores_setFunction k.functionOption .null).cons ?_
  refine (stores_setPointer k.dataOption .null).cons ?_
  by_cases hk : k = .progress
  · simp only [if_pos hk]
    exact stores_setInteger _ _
  · simp only [if_neg hk]
    exact Stores.nil

end NativeTransfer.Wrapper
