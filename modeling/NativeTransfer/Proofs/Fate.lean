import NativeTransfer.Proofs.Coherent

/-!
# What becomes of a wrapper

Seen from one wrapper there are only a few things that a step can come to, whatever it is and
whomever it was meant for. The wrapper is left alone, one of its options is set, it loses entries of
its ledger, it begins, or it ends. `Fate` says which it is and what becomes of the notes on the
wrapper, and what holds of a wrapper all along a run is proved fate by fate. A reset counts as a
beginning: the handle is an old one, but there is nothing on it.

## Notes and books

What is known of a wrapper beyond its state is known from the past: the passages of the run give
notes on it, and the events of the trace give books on its handle. A fate says of both how they go
on. So an invariant that ties a wrapper's state to what was asked for, or to what the engine was
told, is shown once for each fate. The fates of the others come from `Effect.keeps`, which says that
a step leaves every wrapper alone but its own.
-/

namespace NativeTransfer

open State Wrapper

/-- Nothing is added to what is noted of a wrapper, and nothing is taken away. -/
def Passage.Passes (p : Passage) (id : WrapperId) : Prop :=
  ∀ (α : Type) (blank : α) (add : OptionCode → Value → Bool → α → α) (a : α),
    p.note id blank add a = a

/-- Nothing is left of what was noted of a wrapper. -/
def Passage.Forgets (p : Passage) (id : WrapperId) : Prop :=
  ∀ (α : Type) (blank : α) (add : OptionCode → Value → Bool → α → α) (a : α),
    p.note id blank add a = blank

namespace State

/-- A wrapper that has a handle, and nothing else. -/
structure Blank (s : State) (id : WrapperId) (h : Nat) : Prop where
  handle : (s.wrapper id).handle = some h
  slots : (s.wrapper id).slots = {}
  ledger : (s.wrapper id).ledger = []
  table : s.engine.settings? h = some []
  book : ∀ (α : Type) (b : Book α), s.book b h = b.blank

variable {s t : State} {id : WrapperId} {h : Nat}

theorem Blank.live (hb : s.Blank id h) : s.engine.isLive h = true := by
  rw [Engine.isLive, hb.table]
  rfl

theorem Blank.drift (hb : s.Blank id h) {loose : List Nat} (hd : Drift loose s t) :
    t.Blank id h where
  handle := by rw [hd.wrapper, hb.handle]
  slots := by rw [hd.wrapper, hb.slots]
  ledger := by rw [hd.wrapper, hb.ledger]
  table := (hd.settings? h).trans hb.table
  book α b := (congrFun (book_congr b hd.settling) h).trans (hb.book α b)

theorem Coherent.blank_make (hc : s.Coherent) (h : Nat) (api : Api) :
    (s.make h api).Blank s.opened h := by
  have hw := wrapper_make hc.numbered h api
  have hh : ((s.make h api).wrapper s.opened).handle = some h := by rw [hw]
  refine ⟨hh, ?_, ?_, ?_, fun α b ↦ ?_⟩
  · rw [hw]
  · rw [hw]
  · exact (settings?_begin s h h api.route).trans (if_pos rfl)
  · exact (book_begin b api.route h h).trans (if_pos rfl)

theorem Coherent.blank_empty (hc : s.Coherent) (hh : (s.wrapper id).handle = some h) (r : Route) :
    ((s.clear r h).empty id).Blank id h := by
  obtain ⟨hledger, hslots⟩ := wrapper_empty (s.clear r h) id
  refine ⟨(handle_empty ..).trans hh, hslots, hledger, ?_, fun α b ↦ ?_⟩
  · obtain ⟨l, hl⟩ := Option.isSome_iff_exists.1 (hc.live id h hh)
    exact (settings?_clear s h h r).trans (by rw [if_pos rfl, hl, Option.map_some])
  · exact (book_clear b r h h).trans (if_pos rfl)

end State

/-- What a step comes to for one wrapper. -/
inductive Fate (s : State) (id : WrapperId) : Step → Except Error WrapperId → State → Prop
  | kept {x r t} (hn : Passage.Passes ⟨x, s, r, t⟩ id) (hk : Keeps s t id) : Fate s id x r t
  | failed {x e t} (hd : Drift [] s t) : Fate s id x (.error e) t
  | set {h o v r t} (hh : (s.wrapper id).handle = some h) (ha : AfterSetopt s id h o v r t) :
      Fate s id (.setopt id o v) (r.map fun _ ↦ id) t
  | begun {x r h t} (hn : Passage.Forgets ⟨x, s, r, t⟩ id) (hb : t.Blank id h) : Fate s id x r t
  /-- The wrapper begins, and is given a certificate bundle at once. -/
  | bundled {x r u h path q t} (hn : Passage.Forgets ⟨x, s, r, t⟩ id) (hb : u.Blank id h)
      (ha : AfterSetopt u id h .caInfo (.text path) q t) : Fate s id x r t
  /-- The wrapper begins as a duplicate. -/
  | twinned {j g h t} (hn : Passage.Forgets ⟨.duplicate j, s, .ok s.opened, t⟩ id)
      (hid : id = s.opened) (hg : (s.wrapper j).handle = some g)
      (hnew : s.engine.settings? h = none)
      (hd : Drift [] ((s.twin j g h).storeAll id h
        ((s.wrapper j).slots.installed.flatMap unwiring)) t) :
      Fate s id (.duplicate j) (.ok s.opened) t
  /-- Entries are taken out of the ledger of the wrapper. -/
  | released {mark loose t} (ho : Orphaned s id mark loose) (hd : Drift loose (s.cut id mark) t) :
      Fate s id (.release id mark) (.ok id) t
  | ended {x r t} (hn : Passage.Forgets ⟨x, s, r, t⟩ id) (hh : (t.wrapper id).handle = none)
      (hs : (t.wrapper id).slots = {}) : Fate s id x r t

section

variable {s t : State} {x : Step} {r : Except Error WrapperId}

/-- Where there was no wrapper and is none, everything is as it was. -/
theorem State.Coherent.keeps_opened (hc : s.Coherent) (hw : t.wrapper s.opened = {}) :
    Keeps s t s.opened := by
  have hs : s.wrapper s.opened = {} := wrapper_of_notMem hc.numbered.notMem
  refine ⟨⟨?_, ?_, ?_, ?_⟩, ?_, ?_⟩
  · rw [hs, hw]
  · rw [hs, hw]
  · intro h hh
    rw [hs] at hh
    cases hh
  · intro h hh
    rw [hs] at hh
    cases hh
  · rw [hs, hw]
  · intro a ha
    rw [hs] at ha
    exact absurd ha List.not_mem_nil

/-- Every step has a fate for every wrapper. -/
theorem Effect.fate (hc : s.Coherent) (he : Effect s x r t) (id : WrapperId) : Fate s id x r t := by
  by_cases hid : x.target? = some id ∨ x.makes = true ∧ id = s.opened
  · -- The step is about this very wrapper.
    cases he with
    | request hx =>
      obtain ⟨htarget, hmakes⟩ := Step.of_isRequest hx
      rw [htarget, hmakes] at hid
      simp at hid
    | failed hd => exact .failed hd
    | set hh ha =>
      obtain rfl := Option.some.inj (hid.resolve_right nofun)
      exact .set hh ha
    | made _ hd =>
      obtain rfl : id = s.opened := (hid.resolve_left nofun).2
      exact .begun (fun _ _ _ _ ↦ if_pos rfl) ((hc.blank_make _ _).drift hd)
    | bundled _ ha =>
      obtain rfl : id = s.opened := (hid.resolve_left nofun).2
      exact .bundled (fun _ _ _ _ ↦ if_pos rfl) (hc.blank_make _ _) ha
    | twinned hg hnew hd =>
      obtain rfl : id = s.opened := (hid.resolve_left nofun).2
      exact .twinned (fun _ _ _ _ ↦ if_pos rfl) rfl hg hnew hd
    | undone _ _ _ _ hd =>
      obtain rfl : id = s.opened := (hid.resolve_left nofun).2
      refine .kept (fun _ _ _ _ ↦ rfl) (hc.keeps_opened ?_)
      rw [hd.wrapper, wrapper_remove_self]
    | wiped hh _ hd =>
      obtain rfl := Option.some.inj (hid.resolve_right nofun)
      exact .begun (fun _ _ _ _ ↦ if_pos rfl) ((hc.blank_empty hh _).drift hd)
    | released ho hd =>
      obtain rfl := Option.some.inj (hid.resolve_right nofun)
      exact .released ho hd
    | cleaned hu _ hd =>
      obtain rfl := Option.some.inj (hid.resolve_right nofun)
      refine .ended (fun _ _ _ _ ↦ if_pos rfl) ?_ ?_
      · rw [hd.wrapper]
        exact hu.spec.1
      · rw [hd.wrapper]
        exact hu.slots
    | dropped _ _ hd =>
      obtain rfl := Option.some.inj (hid.resolve_right nofun)
      refine .ended (fun _ _ _ _ ↦ if_pos rfl) ?_ ?_
      · rw [hd.wrapper, wrapper_remove_self]
      · rw [hd.wrapper, wrapper_remove_self]
  · obtain ⟨hx, hmakes⟩ := not_or.1 hid
    have hopened : x.makes = true → id ≠ s.opened := fun hm he ↦ hmakes ⟨hm, he⟩
    exact .kept (fun _ _ _ _ ↦ he.note_eq hx hopened) (he.keeps hc hopened hx)

end

end NativeTransfer
