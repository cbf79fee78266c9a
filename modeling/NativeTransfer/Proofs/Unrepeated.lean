import NativeTransfer.Proofs.Coherent
import NativeTransfer.Proofs.Turnover

/-!
# Nothing is recorded twice

No ledger looks whether it has an address already, and yet none ever gets an address that it has.
Each kind of allocation has a reason of its own. A text is copied under a number that was never
given. A list that was just built is one that no ledger knows, since whatever a ledger records is a
list that the engine has not freed. A buffer may well be given again, but then it is looked for
first. And a duplicate begins with nothing, so that what its source shares with it is as distinct
there as it is with the source.

`State.Unrepeated` is what all of this rests on. It leaves room for one list that is built and not
recorded yet, and it is kept by every operation on its way, failures included.
-/

namespace NativeTransfer

open State Wrapper

/-- Whether a list is there and was not freed. -/
def Engine.Has (e : Engine) (n : Nat) : Prop := ∃ l, e.list? n = some l ∧ l.freed = false

/-- What is true of an allocation as long as a ledger records it. -/
def State.Sustains (s : State) : Allocation → Prop
  | .text n _ => n < s.serials
  | .list _ head => ∃ n, head = some n ∧ s.engine.Has n
  | .buffer _ b => b ≠ []

/-- No ledger has an address twice or ever got one that it had, and what it records is sustained.
A list that is loose is there, but in no ledger. -/
structure State.Unrepeated (loose : Option Nat) (s : State) : Prop where
  numbered : s.Numbered
  repeats : s.repeats = []
  nodup : ∀ j, ((s.wrapper j).ledger.map (·.address)).Nodup
  sustained : ∀ j, ∀ a ∈ (s.wrapper j).ledger, s.Sustains a
  single : ∀ i j, ∀ a ∈ (s.wrapper i).ledger, ∀ b ∈ (s.wrapper j).ledger, ∀ n,
    a.nativeList? = some n → b.nativeList? = some n → a = b
  loose : ∀ n, loose = some n →
    s.engine.Has n ∧ ∀ j, ∀ a ∈ (s.wrapper j).ledger, a.nativeList? ≠ some n

/-- Nothing was noted. -/
def State.Unnoted (s t : State) : Prop := t.repeats = s.repeats

/-! ## What is never noted -/

theorem placid_unnoted : Placid Unnoted where
  refl _ := rfl
  trans _ _ _ h h' := h'.trans h
  engine _ _ _ _ := rfl
  event _ _ _ := rfl
  settled _ _ _ := rfl
  answered _ _ _ _ _ := rfl
  withSlots _ _ _ := rfl

theorem unnoted_call {α : Type} (api : Api) (m : Method) (answer : Policy → Engine → Answered α) :
    Within Unnoted (api.call m answer) := fun _ ↦
  placid_unnoted.leads_call api m fun _ _ ↦ rfl

section

variable {s : State} {id : WrapperId}

theorem unnoted_freeNativeList (api : Api) (head : Option Nat) :
    Ends (freeNativeList api head) s fun _ t ↦ Unnoted s t := by
  cases head with
  | none => exact placid_unnoted.refl s
  | some n =>
    rw [freeNativeList, ends_bind, ends_run, api.freeList_eq]
    refine (unnoted_call api .listFree _ s).mono (fun _ _ ht ↦ ht) fun _ t ht ↦ ?_
    exact (placid_unnoted.report _ _ _).mono fun _ u hu ↦ placid_unnoted.trans _ _ _ ht hu

theorem unnoted_freeNativeLists (api : Api) (as : List Allocation) :
    Ends (freeNativeLists api as) s fun _ t ↦ Unnoted s t := by
  induction as generalizing s with
  | nil => exact placid_unnoted.refl s
  | cons a as ih =>
    rw [freeNativeLists, ends_bind]
    refine (unnoted_freeNativeList api _).mono fun _ t ht ↦ ih.mono fun _ u hu ↦ ?_
    exact placid_unnoted.trans _ _ _ ht hu

theorem unnoted_getList (h : Nat) (i : InfoCode) : Within Unnoted (getList id h i) := by
  refine placid_unnoted.bind (calm_getApi placid_unnoted.toCalm) fun api ↦ ?_
  rw [api.getList_eq]
  refine placid_unnoted.bind ((unnoted_call api .getList _).map _) fun r ↦ ?_
  refine placid_unnoted.bind (placid_unnoted.check api _) fun _ ↦ ?_
  cases r.2 with
  | none => exact placid_unnoted.pure _
  | some n =>
    intro s
    rw [leads_bind, leads_get, leads_bind, leads_observed, api.freeList_eq]
    refine (unnoted_call api .listFree _ s).mono (fun _ _ ht ↦ ht) fun e t ht ↦ ?_
    dsimp only
    rw [leads_bind, leads_lift]
    exact (placid_unnoted.report _ _ _).mono fun _ u hu ↦ placid_unnoted.trans _ _ _ ht hu

end

/-! ## Ledgers that lose entries -/

theorem Engine.Has.drift {s t : State} {ns : List Nat} {n : Nat} (h : s.engine.Has n)
    (hd : Drift ns s t) (hn : n ∉ ns) : t.engine.Has n := by
  obtain ⟨l, hl, hfreed⟩ := h
  exact ⟨l, hd.lists n hn l hl, hfreed⟩

namespace State.Unrepeated

variable {s t : State} {loose : Option Nat} {id : WrapperId}

/-- Ledgers may lose entries, and lists may go that are neither recorded any more nor loose. -/
theorem of_sublist (hs : Unrepeated loose s) {loose' : Option Nat} (hn : t.Numbered)
    (hledger : ∀ j, ((t.wrapper j).ledger).Sublist (s.wrapper j).ledger)
    (hserials : s.serials ≤ t.serials) (hrepeats : t.repeats = s.repeats)
    (hlists : ∀ j, ∀ a ∈ (t.wrapper j).ledger, ∀ n, a.nativeList? = some n →
      s.engine.Has n → t.engine.Has n)
    (hloose : ∀ n, loose' = some n → loose = some n ∧ (s.engine.Has n → t.engine.Has n)) :
    Unrepeated loose' t where
  numbered := hn
  repeats := hrepeats.trans hs.repeats
  nodup j := (hs.nodup j).sublist ((hledger j).map _)
  sustained j a ha := by
    have hheld := hs.sustained j a ((hledger j).subset ha)
    cases a with
    | text n x => exact Nat.lt_of_lt_of_le hheld hserials
    | list n head =>
      obtain ⟨m, rfl, hm⟩ := hheld
      exact ⟨m, rfl, hlists j _ ha m rfl hm⟩
    | buffer n b => exact hheld
  single i j a ha b hb :=
    hs.single i j a ((hledger i).subset ha) b ((hledger j).subset hb)
  loose n hn' := by
    obtain ⟨hl, hkeep⟩ := hloose n hn'
    obtain ⟨hhas, hnot⟩ := hs.loose n hl
    exact ⟨hkeep hhas, fun j a ha ↦ hnot j a ((hledger j).subset ha)⟩

theorem has (hs : Unrepeated loose s) {j : WrapperId} {a : Allocation}
    (ha : a ∈ (s.wrapper j).ledger) {n : Nat} (hn : a.nativeList? = some n) : s.engine.Has n := by
  have hheld := hs.sustained j a ha
  cases a with
  | text => cases hn
  | list m head =>
    obtain ⟨k, rfl, hk⟩ := hheld
    obtain rfl := Option.some.inj hn
    exact hk
  | buffer => cases hn

theorem drift (hs : Unrepeated loose s) {ns : List Nat} (hd : Drift ns s t) (hnote : Unnoted s t)
    {loose' : Option Nat}
    (hns : ∀ j, ∀ a ∈ (s.wrapper j).ledger, ∀ n ∈ ns, a.nativeList? ≠ some n)
    (hloose : ∀ n, loose' = some n → loose = some n ∧ n ∉ ns) : Unrepeated loose' t := by
  refine hs.of_sublist (hs.numbered.of_ids hd.ids hd.opened) (fun j ↦ ?_) hd.serials hnote
    (fun j a ha n hn hhas ↦ hhas.drift hd fun hmem ↦ ?_)
    fun n hn ↦ ⟨(hloose n hn).1, fun hhas ↦ hhas.drift hd (hloose n hn).2⟩
  · rw [hd.wrapper]
  · rw [hd.wrapper] at ha
    exact hns j a ha n hmem hn

theorem drift_nil (hs : Unrepeated loose s) (hd : Drift [] s t) (hnote : Unnoted s t) :
    Unrepeated loose t :=
  hs.drift hd hnote (fun _ _ _ _ hn ↦ absurd hn List.not_mem_nil) fun _ hn ↦
    ⟨hn, List.not_mem_nil⟩

theorem modifyWrapper (hs : Unrepeated loose s) {f : Wrapper → Wrapper}
    (hf : ∀ w, (f w).ledger = w.ledger) : Unrepeated loose (s.modifyWrapper id f) := by
  refine hs.of_sublist (hs.numbered.of_ids (ids_modifyWrapper s id f) rfl) (fun j ↦ ?_)
    (Nat.le_refl _) rfl (fun _ _ _ _ _ h ↦ h) fun _ hn ↦ ⟨hn, fun h ↦ h⟩
  rw [proj_modifyWrapper s id j Wrapper.ledger hf]

end State.Unrepeated

/-- From one state to another nothing is recorded twice. -/
def State.Unrepeating (loose : Option Nat) (s t : State) : Prop :=
  Unrepeated loose s → Unrepeated loose t

/-- What is to be shown of an attempt is to be shown only where nothing is recorded twice. -/
theorem within_unrepeating {α : Type} {x : Attempt α} {loose : Option Nat}
    (hx : ∀ s, Unrepeated loose s →
      Leads x s (fun _ t ↦ Unrepeated loose t) fun _ t ↦ Unrepeated loose t) :
    Within (Unrepeating loose) x := by
  intro s
  by_cases hs : Unrepeated loose s
  · exact (hx s hs).mono (fun _ _ ht _ ↦ ht) fun _ _ ht _ ↦ ht
  · rw [Leads]
    split
    · exact fun hs' ↦ absurd hs' hs
    · exact fun hs' ↦ absurd hs' hs

theorem placid_unrepeating (loose : Option Nat) : Placid (Unrepeating loose) where
  refl _ hs := hs
  trans _ _ _ h h' hs := h' (h hs)
  engine s e hh hl hs := hs.drift_nil (calm_drift.engine s e hh hl) rfl
  event s v hv hs := hs.drift_nil (calm_drift.event s v hv) rfl
  settled s host settled hs := hs.drift_nil (calm_drift.settled s host settled) rfl
  answered s e v hl _ hs := by
    have hhas (n : Nat) (h : s.engine.Has n) : e.Has n := by
      rwa [Engine.Has, Engine.list?_congr hl]
    exact hs.of_sublist ⟨hs.numbered.nodup, hs.numbered.below⟩ (fun _ ↦ .refl _) (Nat.le_refl _) rfl
      (fun _ _ _ n _ ↦ hhas n) fun n hn ↦ ⟨hn, hhas n⟩
  withSlots _ _ _ hs := hs.modifyWrapper fun _ ↦ rfl

/-! ## Ledgers that gain an entry -/

/-- An allocation may be recorded: it is sustained, the ledger has nothing at its address, and if it
is a list it is the same allocation wherever it is recorded. -/
structure State.Admits (s : State) (id : WrapperId) (a : Allocation) : Prop where
  sustained : s.Sustains a
  apart : ∀ b ∈ (s.wrapper id).ledger, b.address ≠ a.address
  single : ∀ j, ∀ b ∈ (s.wrapper j).ledger, ∀ n,
    a.nativeList? = some n → b.nativeList? = some n → b = a

section

variable {s t : State} {loose : Option Nat} {id : WrapperId} {a : Allocation}

theorem State.Admits.noting (ha : s.Admits id a) : s.noting id a = s := by
  refine noting_of_not_covers fun hcovers ↦ ?_
  rw [Ledger.covers, List.any_eq_true] at hcovers
  obtain ⟨b, hb, haddress⟩ := hcovers
  exact ha.apart b hb (of_decide_eq_true haddress)

theorem mem_recordAll_singleton {b : Allocation} {j : WrapperId}
    (hb : b ∈ ((s.recordAll id [a]).wrapper j).ledger) :
    b ∈ (s.wrapper j).ledger ∨ j = id ∧ b = a := by
  rw [recordAll, wrapper_modifyWrapper_eq] at hb
  split at hb
  · next hj =>
    rcases List.mem_append.1 hb with hb | hb
    · exact .inl hb
    · exact .inr ⟨hj.1, List.mem_singleton.1 hb⟩
  · exact .inl hb

theorem mem_recordAll_of_mem {as : List Allocation} {b : Allocation} {j : WrapperId}
    (hb : b ∈ (s.wrapper j).ledger) : b ∈ ((s.recordAll id as).wrapper j).ledger := by
  rw [recordAll, wrapper_modifyWrapper_eq]
  split
  · exact List.mem_append_left _ hb
  · exact hb

theorem State.Unrepeated.recordAll (hs : Unrepeated loose s) (ha : s.Admits id a)
    {loose' : Option Nat}
    (hloose : ∀ n, loose' = some n → loose = some n ∧ a.nativeList? ≠ some n) :
    Unrepeated loose' (s.recordAll id [a]) where
  numbered := hs.numbered.of_ids (ids_modifyWrapper s id _) rfl
  repeats := hs.repeats
  nodup j := by
    rw [State.recordAll, wrapper_modifyWrapper_eq]
    split
    · next hj =>
      rw [List.map_append, List.nodup_append]
      refine ⟨hs.nodup j, List.pairwise_singleton _ _, fun x hx y hy ↦ ?_⟩
      obtain ⟨b, hb, rfl⟩ := List.mem_map.1 hx
      rw [List.mem_singleton.1 hy]
      exact ha.apart b (hj.1 ▸ hb)
    · exact hs.nodup j
  sustained j b hb := by
    rcases mem_recordAll_singleton hb with hb | ⟨-, rfl⟩
    · exact hs.sustained j b hb
    · exact ha.sustained
  single i j b hb c hc n hbn hcn := by
    rcases mem_recordAll_singleton hb with hb' | ⟨-, rfl⟩
    · rcases mem_recordAll_singleton hc with hc' | ⟨-, rfl⟩
      · exact hs.single i j b hb' c hc' n hbn hcn
      · exact ha.single i b hb' n hcn hbn
    · rcases mem_recordAll_singleton hc with hc' | ⟨-, rfl⟩
      · exact (ha.single j c hc' n hbn hcn).symm
      · rfl
  loose n hn := by
    obtain ⟨hl, hne⟩ := hloose n hn
    obtain ⟨hhas, hnot⟩ := hs.loose n hl
    refine ⟨hhas, fun j b hb ↦ ?_⟩
    rcases mem_recordAll_singleton hb with hb | ⟨-, rfl⟩
    · exact hnot j b hb
    · exact hne

theorem unrepeated_record (hs : Unrepeated loose s) (ha : s.Admits id a) {loose' : Option Nat}
    (hloose : ∀ n, loose' = some n → loose = some n ∧ a.nativeList? ≠ some n) :
    Ends (record id a) s fun _ t ↦ Unrepeated loose' t := by
  refine (ends_record a).mono ?_
  rintro _ t rfl
  rw [ha.noting]
  exact hs.recordAll ha hloose

/-- A number that was never given is not the number of any copy. -/
theorem admits_text (hs : Unrepeated loose s) (x : String) :
    State.Admits { s with serials := s.serials + 1 } id (.text s.serials x) where
  sustained := Nat.lt_succ_self _
  apart b hb haddress := by
    have hheld := hs.sustained id b hb
    cases b with
    | text n y =>
      obtain ⟨rfl, -⟩ := Address.copy.inj haddress
      exact Nat.lt_irrefl _ hheld
    | list n head =>
      obtain ⟨m, rfl, -⟩ := hheld
      cases haddress
    | buffer n b => cases haddress
  single _ _ _ _ hn := by cases hn

/-- A list that is loose is in no ledger. -/
theorem admits_list {n : Nat} (hs : Unrepeated (some n) s) (serial : Nat) :
    s.Admits id (.list serial (some n)) where
  sustained := ⟨n, rfl, (hs.loose n rfl).1⟩
  apart b hb haddress := by
    have hheld := hs.sustained id b hb
    cases b with
    | text => cases haddress
    | list m head =>
      obtain ⟨k, rfl, -⟩ := hheld
      obtain rfl := Address.list.inj haddress
      exact (hs.loose k rfl).2 id _ hb rfl
    | buffer => cases haddress
  single j b hb m hm hbm := by
    obtain rfl := Option.some.inj hm
    exact absurd hbm ((hs.loose n rfl).2 j b hb)

/-- A buffer is given to a ledger only after it was looked for. -/
theorem admits_buffer {n : Nat} {b : Bytes} (hb : b ≠ [])
    (hcovers : ¬ (s.wrapper id).ledger.covers (.buffer n b) = true) :
    s.Admits id (.buffer n b) where
  sustained := hb
  apart c hc haddress := hcovers (List.any_eq_true.2 ⟨c, hc, decide_eq_true haddress⟩)
  single _ _ _ _ hm := by cases hm

theorem unrepeating_serial (s : State) :
    Unrepeating loose s { s with serials := s.serials + 1 } := fun hs ↦
  hs.drift_nil { Drift.refl s with serials := Nat.le_succ _ } rfl

theorem unrepeating_recordText (x : String) : Within (Unrepeating loose) (recordText id x) := by
  have hcalm := (placid_unrepeating loose).toCalm
  refine hcalm.bind (calm_checkText hcalm x) fun _ ↦ within_unrepeating fun s hs ↦ ?_
  rw [leads_bind, leads_newSerial, leads_bind, leads_lift]
  exact unrepeated_record (unrepeating_serial s hs) (admits_text hs x) fun n hn ↦ ⟨hn, nofun⟩

/-- Entries of some ledger may be recorded in another that has nothing at their addresses. -/
theorem unrepeated_recordEach (as : List Allocation) (hs : Unrepeated loose s)
    (hnodup : (as.map (·.address)).Nodup)
    (has : ∀ a ∈ as, ∃ j, a ∈ (s.wrapper j).ledger)
    (hapart : ∀ a ∈ as, ∀ b ∈ (s.wrapper id).ledger, b.address ≠ a.address) :
    Ends (recordEach id as) s fun _ t ↦ Unrepeated loose t := by
  induction as generalizing s with
  | nil => exact hs
  | cons a as ih =>
    rw [List.map_cons, List.nodup_cons] at hnodup
    obtain ⟨j, hj⟩ := has a List.mem_cons_self
    have ha : s.Admits id a := by
      refine ⟨hs.sustained j a hj, hapart a List.mem_cons_self, fun i b hb n han hbn ↦ ?_⟩
      exact hs.single i j b hb a hj n hbn han
    rw [recordEach, ends_bind]
    refine (ends_record a).mono ?_
    rintro _ t rfl
    rw [ha.noting]
    refine ih (hs.recordAll ha fun n hn ↦ ⟨hn, fun han ↦ ?_⟩) hnodup.2 ?_ ?_
    · exact (hs.loose n hn).2 j a hj han
    · intro b hb
      obtain ⟨j, hj⟩ := has b (List.mem_cons_of_mem _ hb)
      exact ⟨j, mem_recordAll_of_mem hj⟩
    · intro b hb c hc
      rcases mem_recordAll_singleton hc with hc | ⟨-, rfl⟩
      · exact hapart b (List.mem_cons_of_mem _ hb) c hc
      · exact fun he ↦ hnodup.1 (he ▸ List.mem_map_of_mem hb)

/-! ## Releases -/

theorem unrepeated_cut (hs : Unrepeated loose s) (mark : Nat) :
    Unrepeated loose (s.cut id mark) := by
  refine hs.of_sublist (hs.numbered.of_ids (ids_modifyWrapper s id _) rfl) (fun j ↦ ?_)
    (Nat.le_refl _) rfl (fun _ _ _ _ _ h ↦ h) fun _ hn ↦ ⟨hn, fun h ↦ h⟩
  rw [cut, wrapper_modifyWrapper_eq]
  split
  · exact List.take_sublist mark _
  · exact .refl _

/-- A release frees what nobody records any more, and a loose list is not among it. -/
theorem unrepeated_releaseSince (hs : Unrepeated loose s) (mark : Nat) :
    Ends (releaseSince id mark) s fun _ t ↦ Unrepeated loose t := by
  have hnote := unnoted_freeNativeLists (s := s.cut id mark) ((s.cut id mark).wrapper id).api
    (Ledger.orphans (s.cut id mark).holds ((s.wrapper id).ledger.since mark))
  have hcut : Unrepeated loose (s.cut id mark) := unrepeated_cut hs mark
  have hgone {n : Nat} (hn : n ∈ (Ledger.orphans (s.cut id mark).holds
      ((s.wrapper id).ledger.since mark)).filterMap (·.nativeList?)) :
      ∃ b ∈ (s.wrapper id).ledger, b.nativeList? = some n ∧ (s.cut id mark).holds b = false := by
    obtain ⟨b, hb, hbn⟩ := List.mem_filterMap.1 hn
    obtain ⟨hmem, hheld⟩ := Ledger.mem_orphans.1 hb
    exact ⟨b, List.mem_of_mem_drop hmem, hbn, hheld⟩
  refine hcut.drift (ends_releaseSince mark).2 hnote (fun j a ha n hn han ↦ ?_)
    fun n hn ↦ ⟨hn, fun hmem ↦ ?_⟩
  · -- The list of an entry that stays is the list of no other entry, so it is held.
    obtain ⟨b, hb, hbn, hheld⟩ := hgone hn
    obtain rfl := hs.single j id a (mem_ledger_of_cut ha) b hb n han hbn
    rw [holds_of_mem _ ha] at hheld
    cases hheld
  · obtain ⟨b, hb, hbn, -⟩ := hgone hmem
    exact (hs.loose n hn).2 id b hb hbn

theorem unrepeated_freeNativeList (hs : Unrepeated loose s) (api : Api) :
    Ends (freeNativeList api loose) s fun _ t ↦ Unrepeated none t := by
  have hnote := unnoted_freeNativeList (s := s) api loose
  refine hs.drift (ends_freeNativeList api loose) hnote (fun j a ha n hn han ↦ ?_) nofun
  exact (hs.loose n (Option.mem_toList.1 hn)).2 j a ha han

/-- What is released on the way back is no more than what may be released anyway. -/
theorem unrepeating_orRelease {α : Type} {x : Attempt α} (hx : Within (Unrepeating loose) x)
    (mark : Nat) : Within (Unrepeating loose) (orRelease id mark x) :=
  (placid_unrepeating loose).orUndo hx fun _ ↦ ends_discard.2 fun hs ↦
    unrepeated_releaseSince hs mark

/-! ## Setting options -/

variable {h : Nat}

theorem unrepeating_getLedger : Within (Unrepeating loose) (liftM (getLedger id)) :=
  fun s ↦ (placid_unrepeating loose).refl s

theorem unrepeating_setText (o : OptionCode) (x : String) :
    Within (Unrepeating none) (setText id h o x) := by
  have hR := placid_unrepeating none
  refine hR.bind unrepeating_getLedger fun l ↦ hR.bind (unrepeating_recordText x) fun a ↦ ?_
  exact unrepeating_orRelease (hR.setPointer o a) _

theorem unrepeating_setBytes (o : OptionCode) (b : Buffer) :
    Within (Unrepeating none) (setBytes id h o b) := by
  intro s
  refine leads_lend ?_
  have hlent : Unrepeating none s (s.recordAll id (lent (s.wrapper id).ledger b)) := by
    intro hs
    rw [lent]
    split
    · rw [recordAll_nil]
      exact hs
    · next hnew =>
      rw [not_or] at hnew
      have hbytes : b.bytes ≠ [] := by
        intro hnil
        rw [Buffer.address, if_pos hnil] at hnew
        exact hnew.1 Address.isNull_null
      rw [Buffer.address, if_neg hbytes] at hnew
      exact hs.recordAll (admits_buffer hbytes hnew.2) fun _ hn ↦
        absurd hn.symm (Option.some_ne_none _)
  exact (placid_unrepeating none).leads
    (unrepeating_orRelease ((placid_unrepeating none).setBuffer o b) _) hlent

/-- An item goes into the loose list, which is begun with the first one. -/
theorem unrepeated_appendItem (hs : Unrepeated loose s) (x : String) :
    Leads (appendItem id loose x) s (fun n t ↦ Unrepeated (some n) t)
      fun _ t ↦ Unrepeated loose t := by
  rw [appendItem, leads_bind, leads_getApi, leads_bind, leads_discard]
  refine (unrepeating_recordText x s).mono (fun _ t ht ↦ ?_) fun _ _ ht ↦ ht hs
  have hcall : Leads ((s.wrapper id).api.append loose x) t _ _ :=
    Api.append_eq _ loose x ▸ unnoted_call _ .listAppend (fun p e ↦ e.answerAppend p loose x) t
  rw [leads_bind]
  cases loose with
  | none =>
    refine ((Api.leads_append_none _ x).and hcall).mono ?_ fun _ _ hu ↦ (ht hs).drift_nil hu.1 hu.2
    rintro given u ⟨hu, hnote⟩
    cases given with
    | none => exact (ht hs).drift_nil hu hnote
    | some n =>
      obtain ⟨hnew, hd, hl⟩ := hu
      refine { (ht hs).drift_nil hd hnote with loose := ?_ }
      rintro _ ⟨⟩
      refine ⟨⟨_, hl, rfl⟩, fun j a ha han ↦ ?_⟩
      -- What is recorded is a list that was there before.
      rw [hd.wrapper] at ha
      obtain ⟨l, hold, -⟩ := (ht hs).has ha han
      rw [hnew] at hold
      cases hold
  | some k =>
    refine ((Api.leads_append_some _ k x).and hcall).mono ?_
      fun _ _ hu ↦ (ht hs).drift_nil hu.1 hu.2
    rintro given u ⟨hu, hnote⟩
    cases given with
    | none => exact (ht hs).drift_nil hu hnote
    | some m =>
      obtain ⟨rfl, hd, hl⟩ := hu
      have hhas (hm : t.engine.Has m) : u.engine.Has m := by
        obtain ⟨l, hold, hfreed⟩ := hm
        rw [hold] at hl
        exact ⟨_, hl, hfreed⟩
      refine (ht hs).of_sublist ((ht hs).numbered.of_ids hd.ids hd.opened) (fun j ↦ ?_) hd.serials
        hnote (fun j a ha n han hm ↦ hm.drift hd fun hn ↦ ?_) ?_
      · rw [hd.wrapper]
      · rw [hd.wrapper] at ha
        exact ((ht hs).loose m rfl).2 j a ha (han.trans (congrArg some (List.mem_singleton.1 hn)))
      · rintro _ ⟨⟩
        exact ⟨rfl, hhas⟩

theorem unrepeated_buildList (hs : Unrepeated loose s) (o : OptionCode) (mark : Nat)
    (items : List String) :
    Leads (buildList id o mark loose items) s (fun last t ↦ Unrepeated last t)
      fun _ t ↦ Unrepeated none t := by
  induction items generalizing s loose with
  | nil => exact hs
  | cons x items ih =>
    rw [buildList, leads_bind, leads_observed]
    refine (unrepeated_appendItem hs x).mono (fun n t ht ↦ ih ht) fun e t ht ↦ ?_
    dsimp only
    rw [leads_bind, leads_discard, leads_lift]
    refine (unrepeated_releaseSince ht mark).mono fun _ u hu ↦ ?_
    rw [leads_bind, leads_getApi, leads_bind, leads_lift]
    refine (unrepeated_freeNativeList hu _).mono fun _ v hv ↦ ?_
    rw [leads_bind, leads_lift]
    exact ((placid_unrepeating none).report _ _ _).mono fun _ w hw ↦ hw hv

theorem unrepeating_setList (o : OptionCode) (items : List String) :
    Within (Unrepeating none) (setList id h o items) := by
  refine within_unrepeating fun s hs ↦ ?_
  have hR := placid_unrepeating
  rw [setList, leads_bind, leads_getLedger, leads_bind]
  refine (unrepeated_buildList hs o _ items).mono (fun head t ht ↦ ?_) fun _ _ ht ↦ ht
  rw [leads_bind, leads_orUndo]
  refine ((hR head).setPointer o _ t).mono (fun _ u hu ↦ ?_) fun e u hu ↦ ?_
  · split
    · next hsome =>
      obtain ⟨n, rfl⟩ := Option.isSome_iff_exists.1 hsome
      rw [leads_bind, leads_newSerial, leads_lift]
      have hloose := unrepeating_serial u (hu ht)
      exact unrepeated_record hloose (admits_list hloose _) fun _ hn ↦
        absurd hn.symm (Option.some_ne_none _)
    · next hnone =>
      rw [Option.not_isSome_iff_eq_none.1 hnone] at hu ht
      exact hu ht
  · rw [ends_bind, ends_discard]
    refine (unrepeated_releaseSince (hu ht) _).mono fun _ v hv ↦ ?_
    rw [ends_bind, ends_getApi]
    exact unrepeated_freeNativeList hv _

theorem unrepeating_setPlain (o : OptionCode) (v : Value) :
    Within (Unrepeating none) (setPlain id h o v) := by
  have hR := placid_unrepeating none
  rw [setPlain.eq_def]
  split
  · exact hR.setPointer _ _
  · exact hR.setPointer _ _
  · exact hR.setFunction _ _
  · exact hR.setInteger _ _
  · exact hR.setInteger _ _
  · exact unrepeating_setText o _
  · exact unrepeating_setBytes o _
  · exact unrepeating_setList o _
  · exact hR.setPointer _ _
  · exact hR.setPointer _ _
  · exact hR.setFunction _ _
  · exact hR.throw _

theorem unrepeating_setopt (o : OptionCode) (v : Value) :
    Within (Unrepeating none) (setopt id o v) := by
  have hR := placid_unrepeating none
  refine hR.bind (calm_liveHandle hR.toCalm) fun h ↦ ?_
  refine hR.bind (fun s ↦ leads_lift.2 (hR.report _ _ _)) fun _ ↦ ?_
  split
  · exact hR.setCallback _ v
  · exact hR.setCallbackData _ v
  · exact unrepeating_setPlain o v

/-! ## Ends -/

theorem unrepeated_adopt (hs : Unrepeated none s) (h : Nat) (api : Api) :
    Unrepeated none (s.adopt h api) := by
  refine hs.of_sublist (hs.numbered.adopt h api) (fun j ↦ ?_) (Nat.le_refl _) rfl
    (fun _ _ _ _ _ hhas ↦ hhas) nofun
  rw [wrapper_adopt hs.numbered.notMem]
  split
  · exact List.nil_sublist _
  · exact .refl _

theorem unrepeated_remove (hs : Unrepeated none s) : Unrepeated none (s.remove id) := by
  refine hs.of_sublist (hs.numbered.remove id) (fun j ↦ ?_) (Nat.le_refl _) rfl
    (fun _ _ _ _ _ hhas ↦ hhas) nofun
  by_cases hj : j = id
  · rw [hj, wrapper_remove_self]
    exact List.nil_sublist _
  · rw [wrapper_remove_of_ne s hj]

theorem unrepeated_cleanup (hs : Unrepeated none s) :
    Ends (cleanup id) s fun _ t ↦ Unrepeated none t := by
  have hR := placid_unrepeating none
  have hempty {u : State} (hu : Unrepeated none u) :
      Ends (do discard (releaseAll id); modifySlots id fun _ ↦ {}) u fun _ t ↦
        Unrepeated none t := by
    rw [ends_bind, ends_discard]
    exact (unrepeated_releaseSince hu 0).mono fun _ t ht ↦ hR.withSlots t id (fun _ ↦ {}) ht
  rw [cleanup, ends_bind, ends_get]
  dsimp only
  cases hh : (s.wrapper id).handle with
  | none => exact hempty hs
  | some h =>
    dsimp only
    rw [ends_bind, ends_modify, ends_bind, ends_modify, ends_bind, ends_run]
    have hleft : Unrepeated none (s.modifyWrapper id ({ · with handle := none })) :=
      hs.modifyWrapper fun _ ↦ rfl
    have habandoned : Unrepeated none
        ((s.modifyWrapper id ({ · with handle := none })).abandon h) :=
      ⟨⟨hleft.numbered.nodup, hleft.numbered.below⟩, hleft.repeats, hleft.nodup, hleft.sustained,
        hleft.single, hleft.loose⟩
    refine (hR.close _ h _).mono ?_ ?_
    · intro _ t ht
      dsimp only
      rw [ends_bind]
      exact (hR.report _ _ _).mono fun _ _ hu ↦ hempty (hu (ht habandoned))
    · intro e t ht
      dsimp only
      rw [ends_bind]
      refine (hR.report _ _ _).mono fun _ u hu ↦ ?_
      rw [ends_bind]
      exact (hR.report _ _ _).mono fun _ _ hv ↦ hempty (hv (hu (ht habandoned)))

theorem unrepeated_drop (hs : Unrepeated none s) :
    Ends (drop id) s fun _ t ↦ Unrepeated none t := by
  rw [drop, ends_bind]
  exact (unrepeated_cleanup hs).mono fun _ _ ht ↦ unrepeated_remove ht

theorem unrepeating_reset : Within (Unrepeating none) (reset id) := by
  have hR := placid_unrepeating none
  refine hR.bind (calm_liveHandle hR.toCalm) fun h ↦ hR.bind (calm_getApi hR.toCalm) fun api ↦ ?_
  refine hR.bind (hR.clear api h) fun _ ↦ ?_
  refine hR.bind (hR.modifySlots _) fun _ ↦ ?_
  refine hR.bind (within_unrepeating fun _ hs ↦ leads_lift.2 (unrepeated_releaseSince hs 0))
    fun _ s ↦ ?_
  exact leads_lift.2 (hR.report _ _ _)

/-! ## Beginnings -/

theorem unrepeating_adopt (given : Option Nat) (api : Api) (origin : EntryPoint) :
    Within (Unrepeating none) (adopt given api origin) := by
  refine within_unrepeating fun s hs ↦ ?_
  rw [Wrapper.adopt.eq_def]
  cases given with
  | none => exact hs
  | some h =>
    dsimp only
    rw [leads_bind, leads_get, leads_bind, leads_modify, leads_bind, leads_lift]
    have hadopted := unrepeated_adopt hs h api
    exact ((placid_unrepeating none).report _ _ _).mono fun _ t ht ↦ ht hadopted

theorem unrepeating_applyBundle : Ends (applyBundle id) s fun _ t ↦ Unrepeating none s t := by
  have hR := placid_unrepeating none
  rw [applyBundle, ends_bind]
  refine hR.activeBundle.mono fun bundle t ht ↦ ?_
  cases bundle with
  | none => exact ht
  | some path =>
    dsimp only
    rw [ends_bind, ends_run]
    refine (unrepeating_setopt .caInfo (.text path) t).mono
      (fun _ _ hu ↦ hR.trans _ _ _ ht hu) fun _ u hu ↦ ?_
    exact (hR.report _ _ _).mono fun _ _ hv ↦ hR.trans _ _ _ (hR.trans _ _ _ ht hu) hv

theorem unrepeating_create (api : Api) : Within (Unrepeating none) (create api) := by
  have hR := placid_unrepeating none
  refine hR.bind (hR.init api) fun given ↦ hR.bind (unrepeating_adopt given api .init) fun copy ↦ ?_
  exact hR.bind (fun _ ↦ leads_lift.2 unrepeating_applyBundle) fun _ ↦ hR.pure _

/-- A duplicate has nothing at first, and then what its source shares. -/
theorem unrepeating_duplicate : Within (Unrepeating none) (duplicate id) := by
  refine within_unrepeating fun s hs ↦ ?_
  have hR := placid_unrepeating none
  cases hh : (s.wrapper id).handle with
  | none =>
    rw [duplicate, leads_bind, leads_liveHandle_none hh]
    exact hs
  | some g =>
    rw [duplicate, leads_bind, leads_liveHandle hh, leads_bind, leads_getApi, leads_bind]
    refine (hR.duphandle _ g s).mono (fun given t ht ↦ ?_) fun _ _ ht ↦ ht hs
    rw [leads_bind]
    refine ((leads_adopt given _ .duphandle).and (unrepeating_adopt given _ .duphandle t)).mono ?_
      fun _ _ hu ↦ hu.2 (ht hs)
    rintro _ u ⟨⟨h, rfl, rfl, hd⟩, hu⟩
    have hempty : (u.wrapper t.opened).ledger = [] := by
      rw [hd.wrapper, wrapper_adopt (ht hs).numbered.notMem, if_pos rfl]
    rw [leads_bind, leads_getLedger, leads_bind, leads_lift]
    refine (unrepeated_recordEach (u.wrapper id).ledger.shared (hu (ht hs))
      (((hu (ht hs)).nodup id).sublist (List.filter_sublist.map _))
      (fun a ha ↦ ⟨id, List.mem_of_mem_filter ha⟩) fun a _ b hb ↦ ?_).mono fun _ v hv ↦ ?_
    · rw [hempty] at hb
      exact absurd hb List.not_mem_nil
    · have hdetach (ks : List CallbackKind) : Within (Unrepeating none) (do
          detachAll t.opened (← liveHandle t.opened) ks) :=
        hR.bind (calm_liveHandle hR.toCalm) fun h ↦ hR.detachAll h ks
      rw [leads_bind, leads_getSlots, leads_bind, leads_orUndo]
      exact (hdetach _ v).mono (fun _ _ hw ↦ hw hv) fun _ _ hw ↦ unrepeated_drop (hw hv)

/-! ## Runs -/

theorem unrepeating_getList (i : InfoCode) : Within (Unrepeating none) (getList id h i) := by
  refine within_unrepeating fun s hs ↦ ?_
  exact ((drifts_getList h i s).and (unnoted_getList h i s)).mono
    (fun _ _ ht ↦ hs.drift_nil ht.1 ht.2) fun _ _ ht ↦ hs.drift_nil ht.1 ht.2

theorem unrepeating_step (x : Step) : Within (Unrepeating none) x.run := by
  have hR := placid_unrepeating none
  have hrequest (hx : x.isRequest = true) : Within (Unrepeating none) x.run :=
    Step.request hR.stirred hx fun _ i _ _ ↦ unrepeating_getList i
  cases x with
  | create api => exact unrepeating_create api
  | duplicate id => exact unrepeating_duplicate
  | setopt id o v => exact hR.bind (unrepeating_setopt o v) fun _ ↦ hR.pure _
  | perform | pause | getinfo | send | recv | escape | unescape | impersonate => exact hrequest rfl
  | reset id => exact hR.bind unrepeating_reset fun _ ↦ hR.pure _
  | release id mark =>
    refine hR.bind (within_unrepeating fun _ hs ↦ ?_) fun _ ↦ hR.pure _
    exact leads_discard.2 (leads_lift.2 (unrepeated_releaseSince hs mark))
  | cleanup id =>
    refine hR.bind (within_unrepeating fun _ hs ↦ ?_) fun _ ↦ hR.pure _
    exact leads_lift.2 (unrepeated_cleanup hs)
  | drop id =>
    refine hR.bind (within_unrepeating fun _ hs ↦ ?_) fun _ ↦ hR.pure _
    exact leads_lift.2 (unrepeated_drop hs)

theorem Unrepeated.after (hs : Unrepeated none s) (xs : List Step) :
    Unrepeated none (s.after xs) := by
  induction xs generalizing s with
  | nil => exact hs
  | cons x xs ih =>
    have hpass : Unrepeating none s (x.pass s).after :=
      Step.pass_of_leads (P := fun _ ↦ Unrepeating none s) (unrepeating_step x s)
    exact ih (hpass hs)

end

theorem State.Unrepeated.start (policy : Policy) (host : Host) (settled : Settled) :
    Unrepeated none (.start policy host settled) where
  numbered := ⟨List.nodup_nil, fun _ hj ↦ absurd hj List.not_mem_nil⟩
  repeats := rfl
  nodup _ := List.nodup_nil
  sustained _ _ ha := absurd ha List.not_mem_nil
  single _ _ _ ha := absurd ha List.not_mem_nil
  loose _ hn := by cases hn

/-- Whatever is done with any number of wrappers, whether it succeeds or fails, and whatever the
engine makes of it: nothing is ever recorded where its address is recorded already. The addresses in
a ledger are distinct, none is null, and what they lead to is there: no buffer is empty, and no list
was freed. -/
theorem nothing_is_recorded_twice (policy : Policy) (host : Host) (settled : Settled)
    (steps : List Step) :
    let s := (State.start policy host settled).after steps
    s.repeats = [] ∧ ∀ id, ((s.wrapper id).ledger.map (·.address)).Nodup ∧
      ∀ a ∈ (s.wrapper id).ledger, a.address.isNull = false ∧
        (∀ n b, a = .buffer n b → b ≠ []) ∧ ∀ n, a.nativeList? = some n → s.engine.Has n := by
  intro s
  have hs : Unrepeated none s := Unrepeated.after (.start policy host settled) steps
  refine ⟨hs.repeats, fun id ↦ ⟨hs.nodup id, fun a ha ↦ ⟨?_, ?_, fun n hn ↦ hs.has ha hn⟩⟩⟩
  · have hheld := hs.sustained id a ha
    cases a with
    | text => rfl
    | list n head =>
      obtain ⟨m, rfl, -⟩ := hheld
      exact Address.isNull_list m
    | buffer => rfl
  · rintro n b rfl
    exact hs.sustained id _ ha

end NativeTransfer
