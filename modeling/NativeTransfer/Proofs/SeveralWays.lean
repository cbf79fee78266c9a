import NativeTransfer.Proofs.Initialisation

/-!
# Several ways at once

The flag does not tell by which way the engine was initialised. Taken together, all ways have
initialised once more than they have cleaned up exactly while it is set. Of one way by itself this
need not be so: a request to initialise succeeds at once if another way has done it, and one to
clean up goes by whatever way it names. It is so of every way throughout a run exactly if whatever
is asked for while the flag is set names the way that was initialised last.

## Two readings of one claim

That cleaning up goes with an initialisation can be read of all ways together or of each way by
itself, and `Paired` has which turns are counted as a parameter. For all ways together it follows
from the turns' alternating. For each way by itself it needs what is asked for to be `Faithful`, and
that is exactly what it needs: the first request that names another way while one is initialised is
answered without a call, or calls a way to clean up that was never initialised.
-/

namespace NativeTransfer.Global

open State

/-! ## Throughout a run -/

/-- It holds of everything in a list, after what stands before it. -/
def Throughout {α : Type} (P : List α → α → Prop) (xs : List α) : Prop :=
  ∀ ys x, ys ++ [x] <+: xs → P ys x

section

variable {α : Type} {P : List α → α → Prop}

theorem throughout_nil : Throughout P [] := by
  intro ys x h
  exact absurd (List.prefix_nil.1 h) (List.append_ne_nil_of_right_ne_nil ys (List.cons_ne_nil x []))

theorem throughout_concat {xs : List α} {x : α} :
    Throughout P (xs ++ [x]) ↔ Throughout P xs ∧ P xs x := by
  constructor
  · intro h
    exact ⟨fun ys y hy ↦ h ys y (hy.trans (List.prefix_append xs [x])), h xs x List.prefix_rfl⟩
  · rintro ⟨h, hx⟩ ys y hy
    rcases List.prefix_concat_iff.1 hy with he | hy
    · obtain ⟨rfl, hyx⟩ := List.append_inj' he rfl
      obtain rfl := List.singleton_inj.1 hyx
      exact hx
    · exact h ys y hy

end

/-! ## What stands initialised -/

/-- There was one initialisation more than there were cleanups. -/
def Standing (ts : List Turn) : Prop := ts.count .init = ts.count .cleanup + 1

instance (ts : List Turn) : Decidable (Standing ts) := inferInstanceAs (Decidable (_ = _))

theorem standing_iff {b : Bool} {ts : List Turn} (h : Turn.Alternating b ts) :
    Standing ts ↔ b = true := by
  rw [Standing, h.count_init, Nat.add_left_cancel_iff]
  cases b with
  | false => exact ⟨nofun, nofun⟩
  | true => exact ⟨fun _ ↦ rfl, fun _ ↦ rfl⟩

section

variable {ι : Type} (ways : ι → Api) {s : State}

/-- What a request must meet with, where the turns are those that are told of its way: the engine is
called to clean up only if it stands initialised, and a request to initialise succeeds only if it
does so then. -/
structure Paired (told : ι → List (ι × Turn) → List Turn) (s : State) (xs : List (Request ι))
    (x : Request ι) : Prop where
  cleanup : x.turn = .cleanup →
    (x.reply ways (after ways s xs)).after.engine.calls ≠ (after ways s xs).engine.calls →
      Standing (told x.way (moves ways s xs))
  init : x.turn = .init → (x.reply ways (after ways s xs)).result = .ok () →
    Standing (told x.way (moves ways s (xs ++ [x])))

/-- All turns, by whatever way. -/
def byAny (_ : ι) (ms : List (ι × Turn)) : List Turn := ms.map Prod.snd

/-- The turns that went by one way. -/
def byWay [DecidableEq ι] (w : ι) (ms : List (ι × Turn)) : List Turn :=
  (ms.filter (·.1 = w)).map Prod.snd

/-- A request names the way that was initialised last, unless that was cleaned up since. -/
def Faithful (s : State) (xs : List (Request ι)) (x : Request ι) : Prop :=
  (after ways s xs).settled.initialized = true →
    (moves ways s xs).getLast? = some (x.way, .init)

/-! ### Outcomes -/

theorem Outcome.flag_of_ok {x : Turn} {t : State} (h : Outcome s x (.ok ()) t) :
    t.settled.initialized = x.flag := by
  cases h with
  | done _ hx => exact hx
  | taken _ _ hf => exact hf

theorem Outcome.flag_of_calls {x : Turn} {r : Except Error Unit} {t : State} (h : Outcome s x r t)
    (hcalls : t.engine.calls ≠ s.engine.calls) : s.settled.initialized ≠ x.flag := by
  intro hx
  obtain ⟨-, records, rfl⟩ := h.of_done hx
  exact hcalls rfl

theorem calls_cleanup (api : Api) (hs : s.settled.initialized = true) :
    Leads (cleanup api) s (fun _ t ↦ t.engine.calls = s.engine.calls + 1)
      fun _ t ↦ t.engine.calls = s.engine.calls + 1 := by
  rw [cleanup, leads_bind, leads_get, if_neg (not_not_intro hs), leads_bind,
    Api.globalCleanup_eq]
  refine api.leads_call_of_gate ?_ ?_
  · refine (api.gate_cases .globalCleanup).mono (fun _ _ ht ↦ ht) ?_
    rintro _ _ (rfl | rfl)
    · rfl
    · rfl
  · rintro x rfl
    rfl

theorem Request.calls_of_cleanup {x : Request ι} (hx : x.turn = .cleanup)
    (hs : s.settled.initialized = true) :
    (x.reply ways s).after.engine.calls = s.engine.calls + 1 := by
  refine reply_of_leads ways (P := fun _ t ↦ t.engine.calls = s.engine.calls + 1) ?_
  cases x with
  | init => cases hx
  | cleanup way => exact calls_cleanup (ways way) hs

/-! ### All ways together -/

theorem paired_byAny (hs : s.settled.initialized = false) (xs : List (Request ι)) (x : Request ι) :
    Paired ways byAny s xs x where
  cleanup hx hcalls := by
    refine (standing_iff (alternating_moves ways hs xs).2).2 ?_
    have hne := (Outcome.of_reply ways x).flag_of_calls hcalls
    rw [hx] at hne
    exact Bool.of_not_eq_false hne
  init hx hok := by
    refine (standing_iff (alternating_moves ways hs (xs ++ [x])).2).2 ?_
    have h := Outcome.of_reply ways (s := after ways s xs) x
    rw [hok, hx] at h
    rw [after_concat]
    exact h.flag_of_ok

/-! ### Each way by itself -/

theorem flag_of_getLast? (hs : s.settled.initialized = false) {xs : List (Request ι)} {w : ι}
    (h : (moves ways s xs).getLast? = some (w, .init)) :
    (after ways s xs).settled.initialized = true := by
  refine (alternating_moves ways hs xs).2.getLast?_eq_init_iff.1 ?_
  rw [List.getLast?_map, h]
  rfl

variable [DecidableEq ι]

theorem byWay_concat (w : ι) (ms : List (ι × Turn)) (m : ι × Turn) :
    byWay w (ms ++ [m]) = if m.1 = w then byWay w ms ++ [m.2] else byWay w ms := by
  rw [byWay, List.filter_append, List.map_append]
  by_cases hm : m.1 = w
  · rw [if_pos hm, List.filter_singleton, decide_eq_true hm]
    rfl
  · rw [if_neg hm, List.filter_singleton, decide_eq_false hm]
    exact List.append_nil _

/-- As long as requests are faithful the turns of each way alternate, and it is the way that was
initialised last that stands initialised. -/
theorem alternating_byWay (hs : s.settled.initialized = false) {xs : List (Request ι)}
    (h : Throughout (Faithful ways s) xs) (w : ι) :
    Turn.Alternating (decide ((moves ways s xs).getLast? = some (w, .init)))
      (byWay w (moves ways s xs)) := by
  induction xs using List.reverseRecOn with
  | nil => exact .nil
  | append_singleton xs x ih =>
    obtain ⟨h, hx⟩ := throughout_concat.1 h
    have ih := ih h
    rcases moves_concat ways xs x with ⟨hm, -, hne, -⟩ | ⟨hm, -⟩
    · rw [hm, byWay_concat, List.getLast?_concat]
      by_cases hw : x.way = w
      · subst hw
        have hlast : decide ((moves ways s xs).getLast? = some (x.way, .init)) =
            (after ways s xs).settled.initialized :=
          Bool.eq_iff_iff.2 (decide_eq_true_iff.trans ⟨flag_of_getLast? ways hs, hx⟩)
        have hflag : decide (some (x.way, x.turn) = some (x.way, Turn.init)) = x.turn.flag := by
          cases x.turn with
          | init => exact decide_eq_true rfl
          | cleanup => exact decide_eq_false nofun
        rw [hlast] at ih
        rw [if_pos rfl, hflag]
        exact ih.concat hne
      · have hlast : (moves ways s xs).getLast? ≠ some (w, .init) := by
          intro hlast
          rw [hx (flag_of_getLast? ways hs hlast)] at hlast
          cases hlast
          exact hw rfl
        have hmove : some (x.way, x.turn) ≠ some (w, .init) := fun he ↦
          hw (congrArg Prod.fst (Option.some_inj.1 he))
        rw [if_neg hw, decide_eq_false hmove]
        rwa [decide_eq_false hlast] at ih
    · rw [hm]
      exact ih

theorem standing_byWay_iff (hs : s.settled.initialized = false) {xs : List (Request ι)}
    (h : Throughout (Faithful ways s) xs) (w : ι) :
    Standing (byWay w (moves ways s xs)) ↔ (moves ways s xs).getLast? = some (w, .init) :=
  (standing_iff (alternating_byWay ways hs h w)).trans decide_eq_true_iff

theorem paired_byWay_iff (hs : s.settled.initialized = false) {xs : List (Request ι)}
    (h : Throughout (Faithful ways s) xs) (x : Request ι) :
    Paired ways byWay s xs x ↔ Faithful ways s xs x := by
  constructor
  · intro hp hflag
    refine (standing_byWay_iff ways hs h x.way).1 ?_
    cases hx : x.turn with
    | init =>
      have hdone := (Outcome.of_reply ways x).of_done (hflag.trans (congrArg Turn.flag hx).symm)
      have hm := hp.init hx hdone.1
      rcases moves_concat ways xs x with ⟨-, -, hne, -⟩ | ⟨hsame, -⟩
      · rw [hx, hflag] at hne
        exact absurd rfl hne
      · rwa [hsame] at hm
    | cleanup =>
      refine hp.cleanup hx ?_
      rw [Request.calls_of_cleanup ways hx hflag]
      exact Nat.succ_ne_self _
  · intro hx
    refine ⟨fun hturn hcalls ↦ ?_, fun hturn hok ↦ ?_⟩
    · have hne := (Outcome.of_reply ways x).flag_of_calls hcalls
      rw [hturn] at hne
      exact (standing_byWay_iff ways hs h x.way).2 (hx (Bool.of_not_eq_false hne))
    · refine (standing_byWay_iff ways hs (throughout_concat.2 ⟨h, hx⟩) x.way).2 ?_
      rcases moves_concat ways xs x with ⟨hm, -⟩ | ⟨hm, hbides⟩
      · rw [hm, List.getLast?_concat, hturn]
      · have hok := hok ▸ Outcome.of_reply ways (s := after ways s xs) x
        have hflag := hok.flag_of_ok
        rw [← after_concat, hbides.settled, hturn] at hflag
        rw [hm]
        exact hx hflag

/-- A library that is linked in, next to the engine in the same process. -/
def besideLinked (linked : Bool) : Api := if linked then .linked else .inProcess

end

end NativeTransfer.Global
