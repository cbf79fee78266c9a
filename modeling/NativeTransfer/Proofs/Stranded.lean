import NativeTransfer.Proofs.Fate

/-!
# What is left behind by a failure

Setting an option that fails takes back what it recorded, so the engine must not hold an address of
it. The engine holds what it was given last, and what it was given is read off the trace: `handed`
is the book of it, and `Recorded` says that all of it that is still stored is covered by the ledger.

There are two ways out of this. One failure comes too late to be taken back: the engine has accepted
the address of a body and then refuses its length, and the address of a buffer that was recorded for
this call alone is stranded. And a copy of a handle takes over the address of a body, which is not
shared if it is a text. Whatever a duplicate is given afterwards, it never records that text.

`Sound` is the invariant that carries both: what is stored is recorded, or is such a text. Only a
stranded body breaks it, and where it holds, all is recorded exactly if there is no such text.
-/

namespace NativeTransfer

open State Wrapper

/-! ## What a handle was given -/

/-- Whether an address is one of a text, a buffer or a list that the library looks after. -/
def Address.isOwned : Address → Bool
  | .copy _ _ => true
  | .buffer _ _ => true
  | .list _ => true
  | _ => false

def Address.isCopy : Address → Bool
  | .copy _ _ => true
  | _ => false

/-- An address that a handle was given for an option, or took over with it from another handle. -/
structure Gift where
  option : OptionCode
  address : Address
  inherited : Bool
deriving DecidableEq

/-- Whether it is a text for a body that was set for another handle. -/
def Gift.isLegacy (x : Gift) : Bool :=
  x.inherited && x.option = .postFields && x.address.isCopy

/-- The addresses that a handle was given. A copy of a handle has copies of its own of all texts,
apart from one: a body is not copied. -/
def handed : Book (List Gift) where
  blank := []
  inherit l :=
    let kept := l.filter fun x ↦ x.option = .postFields || !x.address.isCopy
    kept.map ({ · with inherited := true })
  enter o x l :=
    match x with
    | .pointer a => ⟨o, a, false⟩ :: l
    | _ => l

theorem mem_handed_foldl {xs : List (OptionCode × Argument)} {l : List Gift} {x : Gift} :
    x ∈ xs.foldl (fun l y ↦ handed.enter y.1 y.2 l) l ↔
      x.inherited = false ∧ (x.option, .pointer x.address) ∈ xs ∨ x ∈ l := by
  induction xs generalizing l with
  | nil => simp
  | cons y ys ih =>
    rw [List.foldl_cons, ih, List.mem_cons]
    rcases y with ⟨o, n | a | a⟩
    · simp [handed]
    · have henter : x ∈ handed.enter o (.pointer a) l ↔ x = ⟨o, a, false⟩ ∨ x ∈ l := List.mem_cons
      rw [henter, Gift.mk.injEq, Prod.ext_iff]
      simp only [Argument.pointer.injEq]
      grind
    · simp [handed]

theorem covers_append {l as : Ledger} {a : Address} :
    Ledger.covers (l ++ as) a = (l.covers a || as.covers a) := List.any_append

/-! ## Recorded addresses -/

namespace State

variable (s : State) (id : WrapperId)

/-- Every address that a wrapper's handle was given, and that the engine still holds, is one of an
entry of the ledger. -/
def Recorded : Prop :=
  ∀ h, (s.wrapper id).handle = some h → ∀ x ∈ s.book handed h, x.address.isOwned = true →
    s.engine.setting? h x.option = some (.pointer x.address) →
      (s.wrapper id).ledger.covers x.address = true

/-- The engine still holds for a wrapper a body that its handle took over, a text which the ledger
does not record. -/
def Inherits : Prop :=
  ∃ h, h ∈ (s.wrapper id).handle ∧ ∃ x ∈ s.book handed h, x.isLegacy = true ∧
    s.engine.setting? h x.option = some (.pointer x.address) ∧
      (s.wrapper id).ledger.covers x.address = false

instance : Decidable (s.Inherits id) :=
  inferInstanceAs (Decidable (∃ h, h ∈ (s.wrapper id).handle ∧ ∃ x ∈ s.book handed h, _))

/-- Whatever the engine holds is recorded, unless it is a text that was taken over. -/
def Sound : Prop :=
  ∀ h, (s.wrapper id).handle = some h → ∀ x ∈ s.book handed h, x.address.isOwned = true →
    s.engine.setting? h x.option = some (.pointer x.address) →
      (s.wrapper id).ledger.covers x.address = true ∨ x.isLegacy = true

variable {s id}

theorem Sound.recorded_iff (hs : s.Sound id) : s.Recorded id ↔ ¬ s.Inherits id := by
  constructor
  · rintro hr ⟨h, hh, x, hx, hlegacy, hset, hcovers⟩
    have hown : x.address.isOwned = true := by
      rw [Gift.isLegacy, Bool.and_eq_true] at hlegacy
      generalize x.address = a at hlegacy ⊢
      cases a with
      | copy => rfl
      | number | handle | buffer | list | reply | trampoline => cases hlegacy.2
    rw [hr h hh x hx hown hset] at hcovers
    cases hcovers
  · intro hnot h hh x hx hown hset
    rcases hs h hh x hx hown hset with hcovers | hlegacy
    · exact hcovers
    · by_contra hcovers
      exact hnot ⟨h, hh, x, hx, hlegacy, hset, Bool.eq_false_iff.2 hcovers⟩

namespace Sound

variable {s t : State} {id : WrapperId} {h : Nat}

theorem of_handle (hh : (s.wrapper id).handle = none) : s.Sound id := by
  intro h hh'
  rw [hh] at hh'
  cases hh'

theorem of_book (hh : (s.wrapper id).handle = some h) (hb : s.book handed h = []) :
    s.Sound id := by
  intro g hg x hx
  obtain rfl : h = g := Option.some.inj (hh.symm.trans hg)
  rw [hb] at hx
  exact absurd hx List.not_mem_nil

theorem of_keeps (hr : s.Sound id) (hk : Keeps s t id) : t.Sound id := by
  intro h hh x hx hown hset
  rw [hk.handle] at hh
  rw [hk.book h hh] at hx
  rw [hk.setting? hh] at hset
  rw [hk.ledger]
  exact hr h hh x hx hown hset

theorem drift (hr : s.Sound id) (hd : Drift [] s t) : t.Sound id :=
  hr.of_keeps (.of_drift_nil hd)

theorem modifyWrapper (hr : s.Sound id) {f : Wrapper → Wrapper}
    (hf : ∀ w, (f w).handle = w.handle)
    (hl : ∀ w a, w.ledger.covers a = true → (f w).ledger.covers a = true) :
    (s.modifyWrapper id f).Sound id := by
  intro h hh x hx hown hset
  rw [proj_modifyWrapper s id id Wrapper.handle hf] at hh
  rw [wrapper_modifyWrapper s (isAlive_of_handle hh), if_pos rfl]
  exact (hr h hh x hx hown hset).imp_left (hl _ _)

theorem recordAll (hr : s.Sound id) (as : List Allocation) : (s.recordAll id as).Sound id :=
  hr.modifyWrapper (fun _ ↦ rfl) fun _ _ hc ↦ by rw [covers_append, hc, Bool.true_or]

theorem withSlots (hr : s.Sound id) (f : Slots → Slots) : (s.withSlots id f).Sound id :=
  hr.modifyWrapper (fun _ ↦ rfl) fun _ _ hc ↦ hc

/-- More may be stored if what is owned among it is recorded. -/
theorem storeAll (hr : s.Sound id) (hh : (s.wrapper id).handle = some h)
    (hlive : s.engine.isLive h = true) (xs : List (OptionCode × Argument))
    (hxs : ∀ o a, (o, .pointer a) ∈ xs → a.isOwned = true →
      (s.wrapper id).ledger.covers a = true) : (s.storeAll id h xs).Sound id := by
  intro g hg x hx hown hset
  rw [wrapper_storeAll] at hg ⊢
  obtain rfl : h = g := Option.some.inj (hh.symm.trans hg)
  rw [book_storeAll, if_pos rfl, mem_handed_foldl] at hx
  rcases hx with ⟨-, hx⟩ | hx
  · exact .inl (hxs _ _ hx hown)
  · rcases setting?_storeAll_cases _ _ _ _ hlive hset with hm | hold
    · exact .inl (hxs _ _ hm hown)
    · exact hr h hh x hx hown hold

/-- An entry that is still in use is not taken out with care. -/
theorem of_cut {mark : Nat} {loose : List Nat}
    (hsafe : Passage.IsSafe ⟨.release id mark, s, .ok id, t⟩) (hd : Drift loose (s.cut id mark) t)
    (hr : s.Sound id) : t.Sound id := by
  intro h hh x hx hown hset
  have hk : Steady s t id := .of_cut hd
  rw [hk.handle] at hh
  rw [hk.book h hh] at hx
  rw [hk.setting? hh] at hset
  refine (hr h hh x hx hown hset).imp_left fun hcovers ↦ ?_
  obtain ⟨a, ha, haddress⟩ := List.any_eq_true.1 hcovers
  rw [hd.wrapper, ledger_cut_self]
  refine List.any_eq_true.2 ⟨a, ?_, haddress⟩
  rw [← Ledger.before_append_since (s.wrapper id).ledger mark] at ha
  refine (List.mem_append.1 ha).resolve_right fun hgone ↦ hsafe id mark h x.option rfl hh a hgone ?_
  rw [of_decide_eq_true haddress]
  exact hset

end Sound

end State

/-! ## Setting an option -/

section

variable {s t : State} {id : WrapperId} {h : Nat} {o : OptionCode} {v : Value}
  {r : Except Error Unit}

theorem isOwned_of_unwiring {k : CallbackKind} {a : Address} (ha : (o, .pointer a) ∈ unwiring k) :
    a.isOwned = false := by
  rcases mem_unwiring ha with he | he | ⟨he, -⟩
  · cases he
  · rw [Argument.pointer.inj (Prod.ext_iff.1 he).2]
    rfl
  · cases he

theorem isOwned_of_rewiring {k : CallbackKind} {installed : Bool} {f : Slots → Slots}
    {done : List (OptionCode × Argument)} (hw : Rewiring h k installed f done r) {a : Address}
    (ha : (o, .pointer a) ∈ done) : a.isOwned = false := by
  rcases hw.mem_cases ha with hm | hm
  · rcases mem_wiring hm with he | ⟨he, -⟩ | he
    · rw [Argument.pointer.inj (Prod.ext_iff.1 he).2]
      rfl
    · cases he
    · cases he
  · exact isOwned_of_unwiring hm

/-- A buffer is recorded before its address is given away. -/
theorem covers_lent (l : Ledger) {b : Buffer} (hb : b.address.isOwned = true) :
    Ledger.covers (l ++ lent l b) b.address = true := by
  rw [covers_append, lent]
  by_cases hc : b.address.isNull = true ∨ l.covers b.address = true
  · rcases hc with hnull | hc
    · rw [of_decide_eq_true hnull] at hb
      cases hb
    · rw [hc, Bool.true_or]
  · have haddress : b.address = .buffer b.serial b.bytes := by
      rw [Buffer.address] at hb ⊢
      split at hb
      · cases hb
      · next hne => rw [if_neg hne]
    rw [if_neg hc, haddress]
    simp [Ledger.covers, Allocation.address]

/-- Whatever becomes of it, setting an option leaves a sound wrapper sound, since it records what it
gives away; unless it strands the address of a body. -/
theorem sound_of_afterSetopt (hh : (s.wrapper id).handle = some h)
    (hlive : s.engine.isLive h = true) (ha : AfterSetopt s id h o v r t) (hr : s.Sound id)
    (hs : ∀ b, o = .postFields → v = .bytes b → r.isOk = false → b.address.isOwned = true →
      Drift [] (s.store id h o (.pointer b.address)) t →
        (s.wrapper id).ledger.covers b.address = true) : t.Sound id := by
  have hrecorded {as : List Allocation} (xs : List (OptionCode × Argument))
      (hd : Drift [] ((s.recordAll id as).storeAll id h xs) t)
      (hxs : ∀ o a, (o, Argument.pointer a) ∈ xs → a.isOwned = true →
        Ledger.covers ((s.wrapper id).ledger ++ as) a = true) : t.Sound id := by
    have hw : (s.recordAll id as).wrapper id =
        { s.wrapper id with ledger := (s.wrapper id).ledger ++ as } := by
      rw [recordAll, wrapper_modifyWrapper s (isAlive_of_handle hh), if_pos rfl]
    have hlive' : (s.recordAll id as).engine.isLive h = true := hlive
    refine ((hr.recordAll as).storeAll (by rw [hw]; exact hh) hlive' xs ?_).drift hd
    rw [hw]
    exact hxs
  -- A text or a list is recorded under the address that it crosses as.
  have hstored {as : List Allocation} {a : Allocation}
      (hd : Drift [] ((s.recordAll id as).store id h o (.pointer a.address)) t) (hm : a ∈ as) :
      t.Sound id := by
    refine hrecorded [(o, .pointer a.address)] hd fun o' a' hm' _ ↦ ?_
    obtain ⟨-, ha'⟩ := Prod.ext_iff.1 (List.mem_singleton.1 hm')
    rw [Argument.pointer.inj ha', covers_append, Bool.or_eq_true]
    exact .inr (List.any_eq_true.2 ⟨a, hm, decide_eq_true rfl⟩)
  have hone {x : Argument} (hd : Drift [] (s.store id h o x) t)
      (hx : ∀ a, x = .pointer a → a.isOwned = true → (s.wrapper id).ledger.covers a = true) :
      t.Sound id := by
    refine (hr.storeAll hh hlive [(o, x)] fun o' a hm ↦ ?_).drift hd
    exact hx a (Prod.ext_iff.1 (List.mem_singleton.1 hm)).2.symm
  cases ha with
  | refused hd => exact hr.drift hd
  | @rewired k f done _ _ _ _ hw hd =>
    have hlive' : (s.withSlots id f).engine.isLive h = true := hlive
    have hhandle : ((s.withSlots id f).wrapper id).handle = some h := by
      rw [State.withSlots, wrapper_modifyWrapper s (isAlive_of_handle hh), if_pos rfl]
      exact hh
    refine ((hr.withSlots f).storeAll hhandle hlive' done fun o a hm hown ↦ ?_).drift hd
    rw [isOwned_of_rewiring hw hm] at hown
    cases hown
  | plain _ ha =>
    cases ha with
    | refused hd => exact hr.drift hd
    | bare _ hx hd =>
      refine hone hd ?_
      rintro a rfl hown
      cases a with
      | number => cases hown
      | handle | copy | buffer | list | reply | trampoline => cases hx
    | text _ _ _ hd => exact hstored hd (List.mem_singleton.2 rfl)
    | @bytes b _ _ hd =>
      refine hrecorded (body o b) hd fun o' a hm hown ↦ ?_
      rcases mem_body hm with hm | hm
      · rw [Argument.pointer.inj (Prod.ext_iff.1 hm).2] at hown ⊢
        exact covers_lent _ hown
      · cases hm
    | @strayed b _ _ ho hd =>
      refine hone hd fun a ha hown ↦ ?_
      rw [← Argument.pointer.inj ha] at hown ⊢
      exact hs b ho rfl rfl hown hd
    | @list items as head n _ _ _ _ hd =>
      cases head with
      | none =>
        refine hrecorded [(o, .pointer .null)] hd fun o' a hm hown ↦ ?_
        rw [Argument.pointer.inj (Prod.ext_iff.1 (List.mem_singleton.1 hm)).2] at hown
        cases hown
      | some m =>
        refine hstored (a := .list n (some m)) hd (List.mem_append_right _ ?_)
        exact List.mem_singleton.2 rfl

end

/-! ## Stranding -/

/-- During a passage the engine accepted an argument for an option of a handle. -/
def Passage.Accepts (p : Passage) (h : Nat) (o : OptionCode) (x : Argument) : Prop :=
  ∃ r m, Event.native r (.setopt m h o x 0) ∈ p.after.settling.drop p.before.settling.length

/-- Setting a body fails although the engine accepted its address, and the buffer was not recorded
before. -/
structure Passage.Strands (p : Passage) (id : WrapperId) (b : Buffer) : Prop where
  step : p.step = .setopt id .postFields (.bytes b)
  failed : p.result.isOk = false
  nonempty : b.bytes ≠ []
  unrecorded : (p.before.wrapper id).ledger.covers b.address = false
  accepted : ∃ h, (p.before.wrapper id).handle = some h ∧
    p.Accepts h .postFields (.pointer b.address)

section

variable {s t : State} {id : WrapperId} {h : Nat} {x : Step} {r : Except Error WrapperId}

theorem accepts_of_store {o : OptionCode} {a : Argument} (hd : Drift [] (s.store id h o a) t) :
    Passage.Accepts ⟨x, s, r, t⟩ h o a := by
  have hsettling : t.settling = s.settling ++
      [.native (s.wrapper id).api.route (.setopt (Method.storing o a) h o a 0)] := by
    rw [hd.settling]
    exact List.filter_append _ _
  refine ⟨(s.wrapper id).api.route, Method.storing o a, ?_⟩
  rw [hsettling, List.drop_left]
  exact List.mem_singleton.2 rfl

theorem not_accepts_of_drift {o : OptionCode} {a : Argument} (hd : Drift [] s t) :
    ¬ Passage.Accepts ⟨x, s, r, t⟩ h o a := by
  rintro ⟨route, m, hm⟩
  rw [hd.settling, List.drop_length] at hm
  exact absurd hm List.not_mem_nil

theorem isOwned_address {b : Buffer} : b.address.isOwned = true ↔ b.bytes ≠ [] := by
  rw [Buffer.address]
  split
  · next hb => exact iff_of_false Bool.false_ne_true (not_not.2 hb)
  · next hb => exact iff_of_true rfl hb

/-- A stranded address is held by the engine and not recorded. -/
theorem not_recorded_of_strands {b : Buffer} (hc : s.Coherent) (he : Effect s x r t)
    (hs : Passage.Strands ⟨x, s, r, t⟩ id b) : ¬ t.Recorded id := by
  obtain ⟨hstep, hfailed, hne, hunrecorded, h, hh, haccepts⟩ := hs
  obtain rfl : x = .setopt id .postFields (.bytes b) := hstep
  cases he with
  | request hreq => cases hreq
  | failed hd => exact absurd haccepts (not_accepts_of_drift hd)
  | @set _ g _ _ r _ hg ha =>
    obtain rfl : g = h := Option.some.inj (hg.symm.trans hh)
    have hrefused (hd : Drift [] s t) : ¬ t.Recorded id :=
      absurd haccepts (not_accepts_of_drift hd)
    have hok {u : Unit} (hr : r = .ok u) : ¬ t.Recorded id := by
      rw [hr] at hfailed
      cases hfailed
    cases ha with
    | refused hd => exact hrefused hd
    | @rewired k _ _ _ _ hk =>
      rcases hk with hk | hk
      · cases k <;> cases hk
      · cases k <;> cases hk
    | plain _ ha =>
      cases ha with
      | refused hd => exact hrefused hd
      | bare | bytes => exact hok rfl
      | strayed _ hd =>
        -- The address is the last thing that was stored, and the ledger is the old one.
        intro hrecorded
        have hlive := hc.live id g hh
        have hcovers := hrecorded g ?_ ⟨.postFields, b.address, false⟩ ?_ (isOwned_address.2 hne) ?_
        · rw [hd.wrapper, wrapper_store] at hcovers
          rw [hunrecorded] at hcovers
          cases hcovers
        · rw [hd.wrapper, wrapper_store]
          exact hh
        · rw [congrFun (book_congr handed hd.settling) g, book_store, if_pos rfl]
          exact List.mem_cons_self
        · rw [hd.setting?, setting?_store _ _ _ _ _ _ hlive, if_pos ⟨rfl, rfl⟩]

/-- A duplicate records what it shares with its source. Texts are its own, apart from a body. -/
theorem sound_twin (hc : s.Coherent) {g : Nat} (hg : (s.wrapper id).handle = some g)
    (hs : s.Sound id) : (s.twin id g h).Sound s.opened := by
  intro h' hh y hy hown hset
  rw [wrapper_twin hc.numbered] at hh ⊢
  obtain rfl : h = h' := Option.some.inj hh
  have hbook : (s.twin id g h).book handed h = handed.inherit (s.book handed g) :=
    (book_copy handed _ g h h).trans (if_pos rfl)
  rw [hbook] at hy
  obtain ⟨x, hmem, rfl⟩ := List.mem_map.1 hy
  obtain ⟨hx, hcopy⟩ := List.mem_filter.1 hmem
  have hsource : s.engine.setting? g x.option = some (.pointer x.address) := by
    rw [← setting?_twin hc hg]
    exact hset
  rw [Bool.or_eq_true] at hcopy
  rcases hs g hg x hx hown hsource with hcovers | hlegacy
  · obtain ⟨a, ha, haddress⟩ := List.any_eq_true.1 hcovers
    by_cases hshare : a.isShareable = true
    · exact .inl (List.any_eq_true.2 ⟨a, List.mem_filter.2 ⟨ha, hshare⟩, haddress⟩)
    · -- Only a text is not shared, and a text is only taken over for a body.
      have htext : x.address.isCopy = true := by
        rw [← of_decide_eq_true haddress]
        cases a with
        | text => rfl
        | list | buffer => exact absurd rfl hshare
      rw [htext] at hcopy
      right
      rw [Gift.isLegacy, hcopy.resolve_right Bool.false_ne_true, htext]
      rfl
  · right
    rw [Gift.isLegacy, Bool.and_eq_true, Bool.and_eq_true] at hlegacy
    rw [Gift.isLegacy, hlegacy.1.2, hlegacy.2]
    rfl

/-- A step that strands nothing leaves every wrapper sound. -/
theorem sound_step (hc : s.Coherent) (he : Effect s x r t)
    (hx : Passage.IsSafe ⟨x, s, r, t⟩ ∧ ∀ id b, ¬ Passage.Strands ⟨x, s, r, t⟩ id b)
    (hs : ∀ id, s.Sound id) (id : WrapperId) : t.Sound id := by
  cases he.fate hc id with
  | kept _ hk => exact (hs id).of_keeps hk
  | failed hd => exact (hs id).drift hd
  | @set h o v r _ hh ha =>
    refine sound_of_afterSetopt hh (hc.live id h hh) ha (hs id) fun b ho hv hfailed hown hd ↦ ?_
    subst ho hv
    by_contra hcovers
    refine hx.2 id b ⟨rfl, ?_, isOwned_address.1 hown, ?_, h, hh, accepts_of_store hd⟩
    · cases r with
      | error => rfl
      | ok => cases hfailed
    · exact Bool.eq_false_iff.2 hcovers
  | begun _ hb => exact .of_book hb.handle (hb.book _ handed)
  | bundled _ hb ha =>
    exact sound_of_afterSetopt hb.handle hb.live ha (.of_book hb.handle (hb.book _ handed)) nofun
  | @twinned j g h _ _ hid hg hnew hd =>
    subst hid
    have hh : ((s.twin j g h).wrapper s.opened).handle = some h := by
      rw [wrapper_twin hc.numbered]
    have hlive := (hc.twin hnew (mem_ids_of_handle hg)).live s.opened h hh
    refine ((sound_twin hc hg (hs j)).storeAll hh hlive _ fun o a hm hown ↦ ?_).drift hd
    obtain ⟨k, -, hm⟩ := List.mem_flatMap.1 hm
    rw [isOwned_of_unwiring hm] at hown
    cases hown
  | released _ hd => exact (hs id).of_cut hx.1 hd
  | ended _ hh _ => exact .of_handle hh

/-- As long as nothing is stranded, every wrapper is sound. -/
theorem State.Orderly.sound (hc : s.Coherent) {xs : List Step} (ho : s.Orderly xs)
    (hsafe : ∀ p ∈ passages s xs, p.IsSafe) (hstart : ∀ id, s.Sound id)
    (hs : ∀ p ∈ passages s xs, ∀ id b, ¬ p.Strands id b) (id : WrapperId) :
    (s.after xs).Sound id :=
  ho.preserved hc (P := fun s ↦ ∀ id, s.Sound id) (Q := fun p ↦ p.IsSafe ∧ ∀ id b, ¬ p.Strands id b)
    hstart (fun hcoh he hx ih ↦ sound_step hcoh he hx ih) (fun p hp ↦ ⟨hsafe p hp, hs p hp⟩) id

end

/-- A duplicate is left with the body of a wrapper that is gone, whatever fails then. -/
example :
    let s := (State.start
      (Policy.guarded { verdict := fun _ _ o _ ↦ if o = .url then 3 else 0 }) .bare .bare).after
        [.create .inProcess, .setopt 0 .postFields (.text "a"), .duplicate 0, .drop 0]
    ((Step.setopt 1 .url (.text "b")).pass s).result.isOk = false ∧
      ((Step.setopt 1 .url (.text "b")).pass s).after.Inherits 1 := by
  decide +kernel

end NativeTransfer
