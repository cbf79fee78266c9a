import NativeTransfer.Proofs.Lifecycle
import NativeTransfer.Proofs.Requests

/-!
# Runs

A run is a list of steps, on any wrappers in any order, and each step leaves a passage behind: the
step, its result, and the states around it. `Effect` says all that a step can come to, so whatever
holds of every run is proved by looking at its constructors, and at nothing that the library or the
engine does in between.

## Notes

Some of what is proved depends on what a wrapper was asked to do, and not on what came of it in the
state. `notes` keeps an account of that along the passages of a run: a setting adds to the account
of its wrapper, a wrapper that begins, is reset or ends starts from a blank one, and anything else
leaves all accounts as they are. Which value stands for an option is such an account, and so is who
has put a callback into a slot.

## Effects

Each constructor of `Effect` has the transformer of the step and a drift behind it. That every step
has an effect is proved here once, from the specifications of the programs. A caller may also cut a
ledger from the outside, which is a step like any other; what it takes for that to do no harm is
`Passage.IsSafe`, and only what needs it asks for it.
-/

namespace NativeTransfer

/-- Something that a caller does. -/
inductive Step
  | create (api : Api)
  | duplicate (id : WrapperId)
  | setopt (id : WrapperId) (o : OptionCode) (v : Value)
  | perform (id : WrapperId)
  | pause (id : WrapperId) (mask : Int32)
  | getinfo (id : WrapperId) (i : InfoCode)
  | send (id : WrapperId) (b : Bytes)
  | recv (id : WrapperId) (buffer : Bytes)
  | escape (id : WrapperId) (input : String)
  | unescape (id : WrapperId) (input : String)
  | impersonate (id : WrapperId) (target : String) (defaultHeaders : Bool)
  | reset (id : WrapperId)
  | release (id : WrapperId) (mark : Nat)
  | cleanup (id : WrapperId)
  | drop (id : WrapperId)

namespace Step

/-- Does it, and tells the wrapper that it was done with, or that came of it. -/
def run : Step → Attempt WrapperId
  | create api => Wrapper.create api
  | duplicate id => Wrapper.duplicate id
  | setopt id o v => do Wrapper.setopt id o v; return id
  | perform id => do Wrapper.perform id; return id
  | pause id mask => do Wrapper.pause id mask; return id
  | getinfo id i => do discard (Wrapper.getinfo id i); return id
  | send id b => do discard (Wrapper.send id b); return id
  | recv id buffer => do
    match (← Wrapper.recv id buffer).result with
    | .ok _ => return id
    | .error e => throw e
  | escape id input => do discard (Wrapper.escape id input); return id
  | unescape id input => do discard (Wrapper.unescape id input); return id
  | impersonate id target defaultHeaders => do
    Wrapper.impersonate id target defaultHeaders
    return id
  | reset id => do Wrapper.reset id; return id
  | release id mark => do discard (Wrapper.releaseSince id mark); return id
  | cleanup id => do Wrapper.cleanup id; return id
  | drop id => do Wrapper.drop id; return id

/-- Whether it makes a wrapper. -/
def makes : Step → Bool
  | create _ => true
  | duplicate _ => true
  | _ => false

/-- Whether it is of no consequence to what is set and recorded. -/
def isRequest : Step → Bool
  | perform _ => true
  | pause _ _ => true
  | getinfo _ _ => true
  | send _ _ => true
  | recv _ _ => true
  | escape _ _ => true
  | unescape _ _ => true
  | impersonate _ _ _ => true
  | _ => false

/-- The wrapper that it changes. -/
def target? : Step → Option WrapperId
  | setopt id _ _ => some id
  | reset id => some id
  | release id _ => some id
  | cleanup id => some id
  | drop id => some id
  | _ => none

/-- Whether a caller takes entries out of a ledger by it. -/
def releases : Step → Bool
  | release _ _ => true
  | _ => false

theorem of_isRequest {x : Step} (hx : x.isRequest = true) :
    x.target? = none ∧ x.makes = false := by
  cases x with
  | create | duplicate | setopt | reset | release | cleanup | drop => cases hx
  | perform | pause | getinfo | send | recv | escape | unescape | impersonate => exact ⟨rfl, rfl⟩

end Step

/-! ## Passages -/

/-- A step that was done. -/
structure Passage where
  step : Step
  before : State
  result : Except Error WrapperId
  after : State

/-- A step done in a state. -/
def Step.pass (x : Step) (s : State) : Passage :=
  ⟨x, s, (x.run.run.run s).1, (x.run.run.run s).2⟩

/-- Steps done one after the other. -/
def passages (s : State) : List Step → List Passage
  | [] => []
  | x :: xs => x.pass s :: passages (x.pass s).after xs

/-- A machine without files. -/
def Host.bare : Host :=
  { files := ⟨[]⟩, cwd := [], environment := [], modules := [], refusal := "" }

/-- Nothing is left to settle, and there is no certificate bundle. -/
def Settled.bare : Settled := { bundle := some none }

namespace State

/-- The state after some steps. -/
def after (s : State) (xs : List Step) : State := xs.foldl (fun s x ↦ (x.pass s).after) s

/-- Where every run begins: there are no wrappers, and the engine has yet to be called. -/
def start (policy : Policy) (host : Host) (settled : Settled) : State := { policy, host, settled }

theorem after_append (s : State) (xs ys : List Step) :
    s.after (xs ++ ys) = (s.after xs).after ys := List.foldl_append

theorem after_concat (s : State) (xs : List Step) (x : Step) :
    s.after (xs ++ [x]) = (x.pass (s.after xs)).after := after_append s xs [x]

end State

theorem passages_append (s : State) (xs ys : List Step) :
    passages s (xs ++ ys) = passages s xs ++ passages (s.after xs) ys := by
  induction xs generalizing s with
  | nil => rfl
  | cons x xs ih =>
    rw [List.cons_append, passages, passages, ih]
    rfl

theorem passages_concat (s : State) (xs : List Step) (x : Step) :
    passages s (xs ++ [x]) = passages s xs ++ [x.pass (s.after xs)] := passages_append s xs [x]

theorem mem_of_mem_passages {s : State} {xs : List Step} {p : Passage} (hp : p ∈ passages s xs) :
    p.step ∈ xs := by
  induction xs generalizing s with
  | nil => exact absurd hp List.not_mem_nil
  | cons x xs ih =>
    rcases List.mem_cons.1 hp with rfl | hp
    · exact List.mem_cons_self
    · exact List.mem_cons_of_mem _ (ih hp)

/-- A passage is the step after those that came before it. -/
theorem exists_of_mem_passages {s : State} {xs : List Step} {p : Passage}
    (hp : p ∈ passages s xs) : ∃ ys x zs, xs = ys ++ x :: zs ∧ p = x.pass (s.after ys) := by
  induction xs generalizing s with
  | nil => exact absurd hp List.not_mem_nil
  | cons x xs ih =>
    rcases List.mem_cons.1 hp with rfl | hp
    · exact ⟨[], x, xs, rfl, rfl⟩
    · obtain ⟨ys, y, zs, rfl, rfl⟩ := ih hp
      exact ⟨x :: ys, y, zs, rfl, rfl⟩

/-- What a caller answers for who takes entries out of a ledger: no option of the wrapper's handle
is left with the address of one of them. -/
def Passage.IsSafe (p : Passage) : Prop :=
  ∀ id mark h o, p.step = .release id mark → (p.before.wrapper id).handle = some h →
    ∀ a ∈ (p.before.wrapper id).ledger.since mark,
      p.before.engine.setting? h o ≠ some (.pointer a.address)

theorem Passage.isSafe_of_releases {p : Passage} (hp : p.step.releases = false) : p.IsSafe := by
  rintro id mark h o hx
  rw [hx] at hp
  cases hp

/-- A run in which the library alone takes entries out of ledgers. -/
theorem isSafe_of_forall {s : State} {xs : List Step} (hxs : ∀ x ∈ xs, x.releases = false) :
    ∀ p ∈ passages s xs, p.IsSafe := fun _ hp ↦
  Passage.isSafe_of_releases (hxs _ (mem_of_mem_passages hp))

/-! ## One wrapper in a run -/

section

variable {α : Type} (id : WrapperId) (blank : α) (add : OptionCode → Value → Bool → α → α)

/-- What a passage adds to what is noted of a wrapper. Only settings are noted, with whether they
succeeded, and nothing is left of the notes when the wrapper begins, ends or is reset. -/
def Passage.note (p : Passage) (a : α) : α :=
  match p.step, p.result with
  | .setopt j o v, r => if j = id then add o v r.isOk a else a
  | .reset j, .ok _ => if j = id then blank else a
  | .cleanup j, .ok _ => if j = id then blank else a
  | .drop j, .ok _ => if j = id then blank else a
  | .create _, .ok j => if j = id then blank else a
  | .duplicate _, .ok j => if j = id then blank else a
  | _, _ => a

@[simp] theorem Passage.note_setopt (j : WrapperId) (o : OptionCode) (v : Value) (s t : State)
    (r : Except Error WrapperId) (a : α) :
    Passage.note id blank add ⟨.setopt j o v, s, r, t⟩ a =
      if j = id then add o v r.isOk a else a := rfl

theorem Passage.note_error (x : Step) (s t : State) (e : Error) (a : α) :
    (∃ j o v, x = .setopt j o v) ∨ Passage.note id blank add ⟨x, s, .error e, t⟩ a = a := by
  cases x with
  | setopt j o v => exact .inl ⟨j, o, v, rfl⟩
  | create | duplicate | reset | release | cleanup | drop | perform | pause | getinfo | send | recv
  | escape | unescape | impersonate => exact .inr rfl

/-- All that is noted of a wrapper. -/
def notes (ps : List Passage) : α := ps.foldl (fun a p ↦ p.note id blank add a) blank

theorem notes_concat (s : State) (xs : List Step) (x : Step) :
    notes id blank add (passages s (xs ++ [x])) =
      (x.pass (s.after xs)).note id blank add (notes id blank add (passages s xs)) := by
  rw [passages_concat]
  exact List.foldl_append

/-- What settings preserve holds of all that is noted. -/
theorem notes_induction {s : State} {xs : List Step} {P : α → Prop} (hblank : P blank)
    (hadd : ∀ j o v, Step.setopt j o v ∈ xs → ∀ ok a, P a → P (add o v ok a)) :
    P (notes id blank add (passages s xs)) := by
  -- The notes are folded from the left, so any notes may have been made before.
  suffices h : ∀ (ps : List Passage) (a : α), (∀ p ∈ ps, p.step ∈ xs) → P a →
      P (ps.foldl (fun a p ↦ p.note id blank add a) a) from
    h _ _ (fun _ ↦ mem_of_mem_passages) hblank
  intro ps
  induction ps with
  | nil => exact fun _ _ ha ↦ ha
  | cons p ps ih =>
    intro a hps ha
    refine ih _ (fun q hq ↦ hps q (List.mem_cons_of_mem _ hq)) ?_
    change P (p.note id blank add a)
    have hp := hps p List.mem_cons_self
    have hforgotten (j : WrapperId) : P (if j = id then blank else a) := by
      split
      · exact hblank
      · exact ha
    rw [Passage.note.eq_def]
    split
    · next j o v hstep =>
      split
      · exact hadd j o v (hstep ▸ hp) _ a ha
      · exact ha
    · exact hforgotten _
    · exact hforgotten _
    · exact hforgotten _
    · exact hforgotten _
    · exact hforgotten _
    · exact ha

/-- A step that is of no concern to a wrapper is not noted, unless the wrapper begins with it. -/
theorem Passage.note_of_target? {p : Passage} (hx : p.step.target? ≠ some id) (a : α) :
    p.note id blank add a = a ∨
      p.step.makes = true ∧ p.result = .ok id ∧ p.note id blank add a = blank := by
  have hite {j : WrapperId} {b c : α} (hj : j ≠ id) : (if j = id then b else c) = c := if_neg hj
  rcases p with ⟨x, s, r, t⟩
  cases x with
  | setopt j o v => exact .inl (hite fun he ↦ hx (congrArg some he))
  | reset j | cleanup j | drop j =>
    cases r with
    | ok => exact .inl (hite fun he ↦ hx (congrArg some he))
    | error => exact .inl rfl
  | create | duplicate =>
    cases r with
    | error => exact .inl rfl
    | ok j =>
      by_cases hj : j = id
      · exact .inr ⟨rfl, congrArg _ hj, if_pos hj⟩
      · exact .inl (hite hj)
  | release | perform | pause | getinfo | send | recv | escape | unescape | impersonate =>
    exact .inl rfl

end

/-! ## Effects -/

open State Wrapper

theorem Step.pass_of_leads {s : State} {x : Step} {P : Except Error WrapperId → State → Prop}
    (h : Leads x.run s (fun a t ↦ P (.ok a) t) fun e t ↦ P (.error e) t) :
    P (x.pass s).result (x.pass s).after := by
  rw [Step.pass]
  rw [Leads] at h
  generalize x.run.run.run s = r at h ⊢
  rcases r with ⟨_ | _, t⟩
  · exact h
  · exact h

/-- What callbacks cannot disturb no request can, apart from lists that are made for answers. -/
theorem Step.request {R : State → State → Prop} (hR : Stirred R) {x : Step}
    (hx : x.isRequest = true)
    (hlist : ∀ id i, x = .getinfo id i → ∀ h, Within R (Wrapper.getList id h i)) :
    Within R x.run := by
  have htell {α : Type} {p : Attempt α} (hp : Within R p) (id : WrapperId) :
      Within R (do discard p; return id) :=
    hR.bind (fun s ↦ leads_discard.2 (hp s)) fun _ ↦ hR.pure _
  cases x with
  | perform id => exact hR.bind (stir_perform hR) fun _ ↦ hR.pure _
  | pause id mask => exact hR.bind (calm_pause hR.toCalm mask) fun _ ↦ hR.pure _
  | getinfo id i => exact htell (calm_getinfo hR.toCalm i (hlist id i rfl)) id
  | send id b => exact htell (calm_send hR.toCalm b) id
  | recv id buffer =>
    refine hR.bind (fun s ↦ leads_lift.2 (calm_recv hR.toCalm buffer)) fun received ↦ ?_
    split
    · exact hR.pure _
    · exact hR.throw _
  | escape id input => exact htell (calm_escape hR.toCalm input) id
  | unescape id input => exact htell (calm_unescape hR.toCalm input) id
  | impersonate id target defaultHeaders =>
    exact hR.bind (calm_impersonate hR.toCalm target defaultHeaders) fun _ ↦ hR.pure _
  | create | duplicate | setopt | reset | release | cleanup | drop => cases hx

/-- A wrapper that gave up all it had, and a handle if it had one. -/
inductive State.Ended (s : State) (id : WrapperId) : State → Prop
  | unserved (hh : (s.wrapper id).handle = none) : Ended s id (s.empty id)
  | served {h : Nat} (closed : Bool) (hh : (s.wrapper id).handle = some h) :
      Ended s id ((s.unlink id h closed).empty id)

/-- What a step comes to. -/
inductive Effect (s : State) : Step → Except Error WrapperId → State → Prop
  | request {x r t} (hx : x.isRequest = true) (hd : Stir s t) : Effect s x r t
  | failed {x e t} (hd : Drift [] s t) : Effect s x (.error e) t
  | set {id h o v r t} (hh : (s.wrapper id).handle = some h) (ha : AfterSetopt s id h o v r t) :
      Effect s (.setopt id o v) (r.map fun _ ↦ id) t
  | made {api h t} (hnew : s.engine.settings? h = none) (hd : Drift [] (s.make h api) t) :
      Effect s (.create api) (.ok s.opened) t
  /-- A wrapper that was made and then given a certificate bundle. -/
  | bundled {api h path r t} (hnew : s.engine.settings? h = none)
      (ha : AfterSetopt (s.make h api) s.opened h .caInfo (.text path) r t) :
      Effect s (.create api) (.ok s.opened) t
  | twinned {id g h t} (hh : (s.wrapper id).handle = some g) (hnew : s.engine.settings? h = none)
      (hd : Drift [] ((s.twin id g h).storeAll s.opened h
        ((s.wrapper id).slots.installed.flatMap unwiring)) t) :
      Effect s (.duplicate id) (.ok s.opened) t
  /-- A duplicate that was made and then ended. -/
  | undone {id g h loose done closed e t} (hh : (s.wrapper id).handle = some g)
      (hnew : s.engine.settings? h = none)
      (hpre : done <+: (s.wrapper id).slots.installed.flatMap unwiring)
      (hown : OwnLists ((s.twin id g h).storeAll s.opened h done) s.opened loose)
      (hd : Drift loose (((((s.twin id g h).storeAll s.opened h done).unlink s.opened h
        closed).empty s.opened).remove s.opened) t) : Effect s (.duplicate id) (.error e) t
  | wiped {id h loose t} (hh : (s.wrapper id).handle = some h) (hown : OwnLists s id loose)
      (hd : Drift loose ((s.clear (s.wrapper id).api.route h).empty id) t) :
      Effect s (.reset id) (.ok id) t
  | released {id mark loose t} (ho : Orphaned s id mark loose)
      (hd : Drift loose (s.cut id mark) t) : Effect s (.release id mark) (.ok id) t
  | cleaned {id u loose t} (hu : s.Ended id u) (hown : OwnLists s id loose) (hd : Drift loose u t) :
      Effect s (.cleanup id) (.ok id) t
  | dropped {id u loose t} (hu : s.Ended id u) (hown : OwnLists s id loose)
      (hd : Drift loose (u.remove id) t) : Effect s (.drop id) (.ok id) t

namespace Effect

variable {s : State} {x : Step}

theorem of_leads
    (h : Leads x.run s (fun a t ↦ Effect s x (.ok a) t) fun e t ↦ Effect s x (.error e) t) :
    Effect s x (x.pass s).result (x.pass s).after := Step.pass_of_leads h

/-- Every step has an effect. -/
theorem of_pass (hn : s.Numbered) (hf : x.makes = true → s.Fresh) :
    Effect s x (x.pass s).result (x.pass s).after := by
  have hrequest (hx : x.isRequest = true) : Effect s x (x.pass s).result (x.pass s).after := by
    refine of_leads ((Step.request stirred_stir hx (fun id i _ h t ↦ ?_) s).mono
      (fun _ _ ht ↦ .request hx ht) fun _ _ ht ↦ .request hx ht)
    exact (drifts_getList h i t).mono (fun _ _ ht ↦ .of_drift ht) fun _ _ ht ↦ .of_drift ht
  cases x with
  | create api =>
    refine of_leads ((leads_create hn api).mono ?_ fun _ _ ht ↦ .failed ht)
    rintro _ t ⟨rfl, h, hnew, ht | ⟨path, r, ht⟩⟩
    · exact .made (hnew (hf rfl)) ht
    · exact .bundled (hnew (hf rfl)) ht
  | duplicate id =>
    refine of_leads ?_
    cases hh : (s.wrapper id).handle with
    | none =>
      rw [Step.run, Wrapper.duplicate, leads_bind, leads_liveHandle_none hh]
      exact .failed (Drift.refl s)
    | some g =>
      refine (leads_duplicate hn hh).mono ?_ ?_
      · rintro _ t ⟨rfl, h, hnew, ht⟩
        exact .twinned hh (hnew (hf rfl)) ht
      · rintro e t (ht | ⟨h, loose, done, closed, hnew, hpre, hown, ht⟩)
        · exact .failed ht
        · exact .undone hh (hnew (hf rfl)) hpre hown ht
  | setopt id o v =>
    refine of_leads ?_
    rw [Step.run, leads_bind]
    cases hh : (s.wrapper id).handle with
    | none =>
      refine (leads_setopt_none hh o v).mono (fun _ _ ht ↦ ht.elim) ?_
      rintro e t rfl
      exact .failed (Drift.refl t)
    | some h =>
      exact (leads_setopt hn.nodup hh o v).mono (fun _ _ ht ↦ .set hh ht) fun _ _ ht ↦ .set hh ht
  | perform | pause | getinfo | send | recv | escape | unescape | impersonate => exact hrequest rfl
  | reset id =>
    refine of_leads ?_
    rw [Step.run, leads_bind]
    cases hh : (s.wrapper id).handle with
    | none =>
      rw [Wrapper.reset, leads_bind, leads_liveHandle_none hh]
      exact .failed (Drift.refl s)
    | some h =>
      refine (leads_reset hh).mono ?_ fun _ _ ht ↦ .failed ht
      rintro _ t ⟨loose, hown, ht⟩
      exact .wiped hh hown ht
  | release id mark =>
    refine of_leads ?_
    rw [Step.run, leads_bind, leads_discard, leads_lift]
    refine (ends_release mark).mono ?_
    rintro _ t ⟨loose, ho, ht⟩
    exact .released ho ht
  | cleanup id =>
    refine of_leads ?_
    rw [Step.run, leads_bind, leads_lift]
    cases hh : (s.wrapper id).handle with
    | none =>
      refine (ends_cleanup_none hh).mono ?_
      rintro _ t ⟨loose, hown, ht⟩
      exact .cleaned (.unserved hh) hown ht
    | some h =>
      refine (ends_cleanup hh).mono ?_
      rintro _ t ⟨loose, closed, hown, ht⟩
      exact .cleaned (.served closed hh) hown ht
  | drop id =>
    refine of_leads ?_
    rw [Step.run, leads_bind, leads_lift]
    cases hh : (s.wrapper id).handle with
    | none =>
      refine (ends_drop_none hh).mono ?_
      rintro _ t ⟨loose, hown, ht⟩
      exact .dropped (.unserved hh) hown ht
    | some h =>
      refine (ends_drop hh).mono ?_
      rintro _ t ⟨loose, closed, hown, ht⟩
      exact .dropped (.served closed hh) hown ht

theorem eq_opened {r : Except Error WrapperId} {id : WrapperId} {t : State} (he : Effect s x r t)
    (hr : r = .ok id) (hx : x.makes = true) : id = s.opened := by
  cases he with
  | request hreq =>
    rw [(Step.of_isRequest hreq).2] at hx
    cases hx
  | failed | undone => cases hr
  | made | bundled | twinned => exact (Except.ok.inj hr).symm
  | set | wiped | released | cleaned | dropped => cases hx

theorem note_eq {α : Type} {id : WrapperId} {blank a : α}
    {add : OptionCode → Value → Bool → α → α} {r : Except Error WrapperId} {t : State}
    (he : Effect s x r t) (hx : x.target? ≠ some id) (hid : x.makes = true → id ≠ s.opened) :
    Passage.note id blank add ⟨x, s, r, t⟩ a = a := by
  have hnote := Passage.note_of_target? (p := ⟨x, s, r, t⟩) id blank add hx a
  refine hnote.resolve_right ?_
  rintro ⟨hmakes, hr, -⟩
  exact hid hmakes (he.eq_opened hr hmakes)

end Effect

end NativeTransfer
