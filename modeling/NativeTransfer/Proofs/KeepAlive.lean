import NativeTransfer.Proofs.Fate

/-!
# What the engine points to is kept

A text, a buffer or a list crosses as an address, and the engine may read behind it until the option
is given something else. So the ledger must hold on to it for as long, whatever else is set, refused
or failed in the meantime. The value that stands for an option is the one that was set last, if it
was accepted; the invariant is that behind every standing value there is an entry of the ledger, and
that the engine finds just this value there.

## How the invariant is kept

A value that is accepted is backed at once, in whichever order it was recorded and stored, and
whatever fails is taken back only as far as it was recorded by the same setting. From then on
`Abides` lists what a wrapper may meet with while the value stands: others take their steps, other
options are set, and entries are released by a caller who sees to it that the engine does not need
them. What abides in this sense stands all along a run, and that is one induction for all of it
(`Abides.stands`).

An entry for a buffer that is recorded already is not made again. So what was recorded for one
option may be what another one needs, and nothing is lost when the one is set to something else,
since setting options takes nothing out of a ledger but what a failure has put there.
-/

namespace NativeTransfer

open State Wrapper

/-- The octets that an address leads to, if they are not the engine's own. -/
def Address.octets? : Address → Option Bytes
  | .copy _ x => some (Text.utf8 x ++ [0])
  | .buffer _ b => some b
  | _ => none

namespace State

/-! ## Values behind addresses -/

/-- What is found behind an address is a value: the octets of a text and the only NUL among them,
the buffer itself, or a list with all items in order. -/
inductive Carries (s : State) (a : Address) : Value → Prop
  | text {x : String} (ha : a.octets? = some (Text.utf8 x ++ [0])) (hnul : 0 ∉ Text.utf8 x) :
      Carries s a (.text x)
  | bytes {b : Buffer} (ha : a = .buffer b.serial b.bytes) : Carries s a (.bytes b)
  | list {items : List String} {n : Nat} (ha : a = .list n)
      (hl : s.engine.list? n = some { items := items.map fun x ↦ some (Text.utf8 x) }) :
      Carries s a (.list items)

/-- The engine holds an address for an option, the ledger records what is there, and that is a
value. -/
def Backs (s : State) (id : WrapperId) (o : OptionCode) (v : Value) : Prop :=
  ∃ h, (s.wrapper id).handle = some h ∧ ∃ a ∈ (s.wrapper id).ledger,
    s.engine.setting? h o = some (.pointer a.address) ∧ s.Carries a.address v

variable {s t : State} {id : WrapperId} {h : Nat} {o : OptionCode} {v : Value}

/-- A list that is recorded stays what it is for as long as it is there. -/
theorem Carries.of_lists {a : Allocation} (hs : s.Carries a.address v)
    (hl : ∀ n, a.nativeList? = some n → ∀ l, s.engine.list? n = some l →
      t.engine.list? n = some l) : t.Carries a.address v := by
  cases hs with
  | text ha hnul => exact .text ha hnul
  | bytes ha => exact .bytes ha
  | list ha hn =>
    refine .list ha (hl _ ?_ _ hn)
    -- Only the entry of a list has the address of one.
    rcases a with _ | ⟨_, _ | m⟩ | _
    · cases ha
    · cases ha
    · cases ha
      rfl
    · cases ha

theorem Backs.of_keeps (hk : Keeps s t id) (hb : s.Backs id o v) : t.Backs id o v := by
  obtain ⟨h, hh, a, ha, hset, hcar⟩ := hb
  refine ⟨h, hk.handle.trans hh, a, hk.ledger ▸ ha, ?_, hcar.of_lists (hk.lists a ha)⟩
  rw [hk.setting? hh]
  exact hset

/-- Setting another option takes nothing away from what is backed. -/
theorem Backs.of_touched {o' : OptionCode} {f : Slots → Slots} {as : List Allocation}
    {xs : List (OptionCode × Argument)} (hh : (s.wrapper id).handle = some h)
    (ht : Touched s id h o' f as xs t) (hne : o ≠ o') (ho : o.HoldsMemory) (hb : s.Backs id o v) :
    t.Backs id o v := by
  obtain ⟨g, hg, a, ha, hset, hcar⟩ := hb
  obtain rfl : g = h := Option.some.inj (hg.symm.trans hh)
  have hw := ht.wrapper (isAlive_of_handle hh)
  refine ⟨g, ?_, a, ?_, ?_, hcar.of_lists fun n _ l hl ↦ ht.list? hl⟩
  · rw [hw]
    exact hh
  · rw [hw]
    exact List.mem_append_left as ha
  · rw [ht.setting? hne ho]
    exact hset

/-- What is taken out of the ledger with care takes nothing away from what is backed. -/
theorem Backs.of_cut (hc : s.Coherent) {mark : Nat} {loose : List Nat}
    (hsafe : Passage.IsSafe ⟨.release id mark, s, .ok id, t⟩) (ho : Orphaned s id mark loose)
    (hd : Drift loose (s.cut id mark) t) (hb : s.Backs id o v) : t.Backs id o v := by
  obtain ⟨h, hh, a, ha, hset, hcar⟩ := hb
  have hstays : a ∈ ((s.cut id mark).wrapper id).ledger := by
    rw [ledger_cut_self]
    rw [← Ledger.before_append_since (s.wrapper id).ledger mark] at ha
    exact (List.mem_append.1 ha).resolve_right fun hgone ↦ hsafe id mark h o rfl hh a hgone hset
  refine ⟨h, ?_, a, ?_, ?_, hcar.of_lists fun n hn l hl ↦ ?_⟩
  · exact (Steady.of_cut hd).handle.trans hh
  · rw [hd.wrapper]
    exact hstays
  · rw [hd.setting?]
    exact hset
  · exact hd.lists n (hc.notMem_orphaned ho hstays hn) l hl

/-- What was stored first, and is recorded, is backed. -/
theorem backs_of_storeAll {as : List Allocation} (xs : List (OptionCode × Argument))
    {a : Allocation} (hh : (s.wrapper id).handle = some h) (hlive : s.engine.isLive h = true)
    (hd : Drift [] ((s.recordAll id as).storeAll id h ((o, .pointer a.address) :: xs)) t)
    (hxs : ∀ x ∈ xs, o ≠ x.1) (ha : a ∈ (s.wrapper id).ledger ++ as)
    (hcar : t.Carries a.address v) : t.Backs id o v := by
  have hw : t.wrapper id = { s.wrapper id with ledger := (s.wrapper id).ledger ++ as } := by
    rw [hd.wrapper, wrapper_storeAll, recordAll, wrapper_modifyWrapper s (isAlive_of_handle hh),
      if_pos rfl]
  have hset : t.engine.setting? h o = some (.pointer a.address) := by
    rw [hd.setting?]
    refine (setting?_storeAll_of_ne _ _ _ _ _ fun _ ↦ hxs).trans ?_
    have hlive' : (s.recordAll id as).engine.isLive h = true := hlive
    rw [setting?_store _ _ _ _ _ _ hlive', if_pos ⟨rfl, rfl⟩]
  refine ⟨h, ?_, a, ?_, hset, hcar⟩
  · rw [hw]
    exact hh
  · rw [hw]
    exact ha

/-- An accepted text, buffer or list is backed at once. -/
theorem backs_of_afterPlain (hh : (s.wrapper id).handle = some h)
    (hlive : s.engine.isLive h = true) (hv : v.isKept = true)
    (ha : AfterPlain s id h o v (.ok ()) t) : o.encoding = .object ∧ t.Backs id o v := by
  cases ha with
  | bare hv' =>
    rw [Value.isKept_of_isBare hv'] at hv
    cases hv
  | @text x n _ he hnul _ hd =>
    refine ⟨he, backs_of_storeAll (a := .text n x) [] hh hlive hd (List.forall_mem_nil _) ?_ ?_⟩
    · exact List.mem_append_right _ (List.mem_singleton.2 rfl)
    · exact .text rfl hnul
  | @bytes b _ he hd =>
    have hne : b.bytes ≠ [] := of_decide_eq_true hv
    have haddress : b.address = .buffer b.serial b.bytes := if_neg hne
    obtain ⟨a, hmem, haddr⟩ : ∃ a ∈ (s.wrapper id).ledger ++ lent (s.wrapper id).ledger b,
        a.address = b.address := by
      by_cases hc : (s.wrapper id).ledger.covers b.address = true
      · obtain ⟨a, hmem, haddr⟩ := List.any_eq_true.1 hc
        exact ⟨a, List.mem_append_left _ hmem, of_decide_eq_true haddr⟩
      · have hnull : ¬ b.address.isNull = true := by
          rw [haddress]
          simp [Address.isNull, Address.null]
        refine ⟨.buffer b.serial b.bytes, List.mem_append_right _ ?_, haddress.symm⟩
        rw [lent, if_neg (not_or.2 ⟨hnull, hc⟩)]
        exact List.mem_singleton.2 rfl
    rw [body, ← haddr] at hd
    refine ⟨he, backs_of_storeAll _ hh hlive hd ?_ hmem (.bytes (haddr.trans haddress))⟩
    -- The length goes under an option of its own.
    intro x hx
    split at hx
    · next ho =>
      rw [List.mem_singleton.1 hx, ho]
      intro he
      rcases sizeOption_eq b.bytes.length with hn | hn
      · cases he.trans hn
      · cases he.trans hn
    · exact absurd hx List.not_mem_nil
  | @list items as head n _ he _ hb hd =>
    cases head with
    | none =>
      have hb' : items = [] := hb
      rw [hb'] at hv
      cases hv
    | some m =>
      refine ⟨he, backs_of_storeAll (a := .list n (some m)) [] hh hlive hd
        (List.forall_mem_nil _) ?_ ?_⟩
      · exact List.mem_append_right _ (List.mem_append_right _ (List.mem_singleton.2 rfl))
      · exact .list rfl hb.2.2

theorem backs_of_afterSetopt (hh : (s.wrapper id).handle = some h)
    (hlive : s.engine.isLive h = true) (hv : v.isKept = true)
    (ha : AfterSetopt s id h o v (.ok ()) t) : o.HoldsMemory ∧ t.Backs id o v := by
  cases ha with
  | plain ho ha =>
    obtain ⟨he, hb⟩ := backs_of_afterPlain hh hlive hv ha
    exact ⟨⟨he, fun k ↦ (ho k).2⟩, hb⟩
  | rewired _ hv' =>
    rw [hv'] at hv
    cases hv

end State

/-! ## The value that stands -/

/-- What setting an option makes of the value that stands for an option. -/
def restate (o : OptionCode) (o' : OptionCode) (v : Value) (ok : Bool) (w : Option Value) :
    Option Value :=
  if o' = o then if ok then some v else none else w

/-- The value that was set last for an option, if it was accepted. -/
def standing (id : WrapperId) (o : OptionCode) (ps : List Passage) : Option Value :=
  notes id none (restate o) ps

section

variable {s t : State} {id : WrapperId} {o : OptionCode} {v : Value} {x : Step}
  {r : Except Error WrapperId} {w : Option Value}

theorem standing_of_error {e : Error} (hs : Passage.note id none (restate o) ⟨x, s, .error e, t⟩ w =
    some v) : w = some v := by
  rcases Passage.note_error id none (restate o) x s t e w with ⟨j, o', v', rfl⟩ | hw
  · rw [Passage.note_setopt, restate] at hs
    split at hs
    · split at hs
      · cases hs
      · exact hs
    · exact hs
  · exact hw.symm.trans hs

theorem standing_setopt {xs : List Step}
    (hr : ((Step.setopt id o v).pass (s.after xs)).result.isOk = true) :
    standing id o (passages s (xs ++ [.setopt id o v])) = some v := by
  rw [standing, notes_concat]
  refine (Passage.note_setopt ..).trans ?_
  rw [if_pos rfl, restate, if_pos rfl]
  exact if_pos hr

theorem standing_setopt_of_ne {xs : List Step} {o' : OptionCode} (hne : o' ≠ o) (j : WrapperId)
    (v : Value) :
    standing id o (passages s (xs ++ [.setopt j o' v])) = standing id o (passages s xs) := by
  rw [standing, notes_concat]
  refine (Passage.note_setopt ..).trans ?_
  rw [restate, if_neg hne, ite_self]
  rfl

/-- What is true of an option of a wrapper, and only untrue if that very option is set or all of
them are taken away, as long as no caller releases what is in use. -/
structure Abides (id : WrapperId) (o : OptionCode) (Q : State → Prop) : Prop where
  keeps {s t : State} : Keeps s t id → Q s → Q t
  other {s t : State} {h : Nat} {o' : OptionCode} {v : Value} {r : Except Error Unit} :
    (s.wrapper id).handle = some h → o' ≠ o → AfterSetopt s id h o' v r t → Q s → Q t
  released {s t : State} {mark : Nat} {loose : List Nat} :
    s.Coherent → Passage.IsSafe ⟨.release id mark, s, .ok id, t⟩ → Orphaned s id mark loose →
      Drift loose (s.cut id mark) t → Q s → Q t

/-- What comes true when a value is accepted is true for as long as the value stands. -/
theorem Abides.step {Q : State → Prop} (hq : Abides id o Q)
    (hset : ∀ s t h, (s.wrapper id).handle = some h → s.engine.isLive h = true →
      AfterSetopt s id h o v (.ok ()) t → Q t)
    (hc : s.Coherent) (he : Effect s x r t) (hx : Passage.IsSafe ⟨x, s, r, t⟩)
    (hw : w = some v → Q s)
    (hs : Passage.note id none (restate o) ⟨x, s, r, t⟩ w = some v) : Q t := by
  cases he.fate hc id with
  | kept hn hk => exact hq.keeps hk (hw ((hn ..).symm.trans hs))
  | failed hd => exact hq.keeps (.of_drift_nil hd) (hw (standing_of_error hs))
  | @set h o' v' r _ hh ha =>
    rw [Passage.note_setopt, if_pos rfl, restate] at hs
    by_cases ho : o' = o
    · subst ho
      rw [if_pos rfl] at hs
      cases r with
      | error => cases hs
      | ok =>
        obtain rfl : v' = v := Option.some.inj hs
        exact hset s t h hh (hc.live id h hh) ha
    · rw [if_neg ho] at hs
      exact hq.other hh ho ha (hw hs)
  | released ho hd => exact hq.released hc hx ho hd (hw hs)
  | begun hn | bundled hn | twinned hn | ended hn =>
    -- Nothing stands any more.
    rw [hn] at hs
    cases hs

/-- All along a run, with any number of wrappers. -/
theorem Abides.stands {Q : State → Prop} (hq : Abides id o Q)
    (hset : ∀ s t h, (s.wrapper id).handle = some h → s.engine.isLive h = true →
      AfterSetopt s id h o v (.ok ()) t → Q t)
    (hc : s.Coherent) {xs : List Step} (ho : s.Orderly xs)
    (hsafe : ∀ p ∈ passages s xs, p.IsSafe)
    (hs : standing id o (passages s xs) = some v) : Q (s.after xs) := by
  refine ho.induction hc (P := fun xs ↦ (∀ p ∈ passages s xs, p.IsSafe) →
    standing id o (passages s xs) = some v → Q (s.after xs)) (fun _ ↦ nofun) ?_ hsafe hs
  intro xs x hcoh he ih hsafe hs
  rw [standing, notes_concat] at hs
  rw [passages_concat, List.forall_mem_append, List.forall_mem_singleton] at hsafe
  rw [after_concat] at he ⊢
  exact hq.step hset hcoh he hsafe.2 (ih hsafe.1) hs

theorem abides_backs (id : WrapperId) (o : OptionCode) (v : Value) :
    Abides id o fun s ↦ o.HoldsMemory ∧ s.Backs id o v where
  keeps hk hs := ⟨hs.1, hs.2.of_keeps hk⟩
  other hh hne ha hs := by
    obtain ⟨f, as, xs, ht⟩ := ha.touched
    exact ⟨hs.1, hs.2.of_touched hh ht hne.symm hs.1⟩
  released hc hsafe ho hd hs := ⟨hs.1, hs.2.of_cut hc hsafe ho hd⟩

theorem State.Orderly.backs (hc : s.Coherent) {xs : List Step} (ho : s.Orderly xs)
    (hsafe : ∀ p ∈ passages s xs, p.IsSafe) (hv : v.isKept = true)
    (hs : standing id o (passages s xs) = some v) : o.HoldsMemory ∧ (s.after xs).Backs id o v :=
  (abides_backs id o v).stands (fun _ _ _ hh hlive ha ↦ backs_of_afterSetopt hh hlive hv ha) hc ho
    hsafe hs

end

/-- Whatever is done with one wrapper, and whatever the engine makes of it: while a text, a buffer
or a list that is not empty stands for an option, the engine holds the address of an entry of the
wrapper's ledger, and finds the value there. Only a caller who cuts the ledger has to leave in it
what the engine still points to. -/
theorem standing_value_is_backed (policy : Policy) (host : Host) (settled : Settled) (api : Api)
    (steps : List Step) (hone : ∀ x ∈ steps, x.makes = false)
    (hsafe : ∀ p ∈ passages (.start policy host settled) (.create api :: steps), p.IsSafe)
    (id : WrapperId) (o : OptionCode) (v : Value) (hv : v.isKept = true)
    (hs : standing id o (passages (.start policy host settled) (.create api :: steps)) = some v) :
    ((State.start policy host settled).after (.create api :: steps)).Backs id o v :=
  ((Orderly.single policy host settled (.create api) hone).backs (.start policy host settled) hsafe
    hv hs).2

/-- An engine that refuses one option keeps what it was given for another. -/
theorem list_is_backed_after_refusal :
    ∃ v, v.isKept = true ∧
      ((State.start { verdict := fun _ _ o _ ↦ if o = .url then 3 else 0 } .bare .bare).after
        [.create .inProcess, .setopt 0 .httpHeader (.list ["a", "b"]), .setopt 0 .url (.text "c"),
          .perform 0]).Backs 0 .httpHeader v := by
  have hkept : (standing 0 .httpHeader (passages
      (.start { verdict := fun _ _ o _ ↦ if o = .url then 3 else 0 } .bare .bare)
      [.create .inProcess, .setopt 0 .httpHeader (.list ["a", "b"]), .setopt 0 .url (.text "c"),
        .perform 0])).any Value.isKept = true := by decide +kernel
  obtain ⟨v, hs, hv⟩ := (Option.any_eq_true _ _).1 hkept
  exact ⟨v, hv, standing_value_is_backed _ _ _ _ _ (by decide) (isSafe_of_forall (by decide)) 0
    .httpHeader v hv hs⟩

end NativeTransfer
