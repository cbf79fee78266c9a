import NativeTransfer.Proofs.KeepAlive

/-!
# The body of a post

A body crosses as an address under one option and a length under another. A buffer brings its length
with it and a text does not, so what the engine reads behind the address of a text depends on the
length of the last buffer that was accepted. The text is read as it was given exactly if there was
no such buffer, or if it was as long as the text.

## What is read

The engine has one place for the length, whichever of the two options it was given by, and the
length stays there until another one is given. `bodyRead` says what is read for a length and a
memory: as many octets as the length says, and up to the first NUL without one. A text has its only
NUL at the end, so it is read whole exactly if there is no length or its own, and a length beyond
its end leads out of the memory.

That the length of a handle is the one that its wrapper was given last is an induction over the run,
by fates, and leaves out runs in which the caller sets lengths itself.
-/

namespace NativeTransfer

open State Wrapper

/-! ## What the engine reads -/

/-- Whether an option takes the length of a body. The engine has one place for both of them. -/
def OptionCode.isBodySize (o : OptionCode) : Bool := o = .postFieldSize || o = .postFieldSizeLarge

/-- The length that a handle was last given for its body. -/
def sizes : Book (Option Int64) where
  blank := none
  inherit n := n
  enter o x n :=
    match x with
    | .integer m => if o.isBodySize then some m else n
    | _ => n

/-- What is read of a body: as many octets as the length says, or up to the first NUL if there is no
length or a negative one. Nothing is, if that leads out of the memory. -/
def bodyRead (size : Option Int64) (memory : Bytes) : Option Bytes :=
  match size.filter (0 ≤ ·.toInt) with
  | some n => if n.toInt.toNat ≤ memory.length then some (memory.take n.toInt.toNat) else none
  | none => if 0 ∈ memory then some memory.untilNul else none

/-- What the engine reads of the body of a wrapper's handle. -/
def State.body? (s : State) (id : WrapperId) : Option Bytes := do
  let h ← (s.wrapper id).handle
  match s.engine.setting? h .postFields with
  | some (.pointer a) => bodyRead (s.book sizes h) (← a.octets?)
  | _ => none

/-- The octets of a body. -/
def Value.octets : Value → Bytes
  | .text x => Text.utf8 x
  | .bytes b => b.bytes
  | _ => []

/-- Whether an integer that crosses can be a length. Memory has no buffer with a longer one. -/
def IsLength (n : Nat) : Prop := (Int64.ofNat n).toInt = n

instance (n : Nat) : Decidable (IsLength n) :=
  inferInstanceAs (Decidable ((Int64.ofNat n).toInt = n))

theorem bodyRead_ofNat {n : Nat} (hn : IsLength n) (memory : Bytes) :
    bodyRead (some (Int64.ofNat n)) memory =
      if n ≤ memory.length then some (memory.take n) else none := by
  have htoInt : (Int64.ofNat n).toInt = n := hn
  rw [bodyRead, Option.filter_some_pos (by rw [htoInt]; simp)]
  simp only [htoInt, Int.toNat_natCast]

theorem bodyRead_length {b : Bytes} (hb : IsLength b.length) :
    bodyRead (some (Int64.ofNat b.length)) b = some b := by
  rw [bodyRead_ofNat hb, if_pos (Nat.le_refl _), List.take_length]

/-- A text is read as a whole if there is no length, or its own. -/
theorem bodyRead_text_iff {b : Bytes} (hnul : 0 ∉ b) {n : Option Nat} (hn : ∀ k ∈ n, IsLength k) :
    bodyRead (n.map Int64.ofNat) (b ++ [0]) = some b ↔ ∀ k ∈ n, k = b.length := by
  cases n with
  | none =>
    have huntil : (b ++ [0]).untilNul = b := by
      rw [Bytes.untilNul, List.takeWhile_append_of_pos, List.takeWhile_cons_of_neg, List.append_nil]
      · decide
      · intro x hx
        exact decide_eq_true fun hx0 ↦ hnul (hx0 ▸ hx)
    have hread : bodyRead none (b ++ [0]) = some b := by
      refine (if_pos ?_).trans (congrArg some huntil)
      exact List.mem_append_right _ (List.mem_singleton.2 rfl)
    refine iff_of_true hread fun k hk ↦ ?_
    cases hk
  | some k =>
    rw [Option.map_some, bodyRead_ofNat (hn k rfl), List.length_append, List.length_singleton]
    constructor
    · intro h j hj
      obtain rfl : k = j := Option.some.inj hj
      split at h
      · -- As many octets were read as the length says.
        have hlen := congrArg List.length (Option.some.inj h)
        rw [List.length_take, List.length_append, List.length_singleton] at hlen
        omega
      · cases h
    · intro h
      rw [h k rfl, if_pos (Nat.le_succ _), List.take_append_of_le_length (Nat.le_refl _),
        List.take_length]

/-! ## The length that was given last -/

/-- A buffer that is accepted for the body gives its length. -/
def lengthGiven (o : OptionCode) (v : Value) (ok : Bool) (n : Option Nat) : Option Nat :=
  match v with
  | .bytes b => if o = .postFields ∧ ok = true then some b.bytes.length else n
  | _ => n

/-- The length of the buffer that was accepted last for the body of a wrapper's handle. -/
def lastLength (id : WrapperId) (ps : List Passage) : Option Nat := notes id none lengthGiven ps

theorem lengthGiven_false (o : OptionCode) (v : Value) (n : Option Nat) :
    lengthGiven o v false n = n := by
  cases v with
  | bytes => exact if_neg fun hc ↦ absurd hc.2 nofun
  | null | long | bool | text | list | function | sink | source | data | pointer => rfl

theorem lengthGiven_of_ne {o : OptionCode} (ho : o ≠ .postFields) (v : Value) (ok : Bool)
    (n : Option Nat) : lengthGiven o v ok n = n := by
  cases v with
  | bytes => exact if_neg fun hc ↦ ho hc.1
  | null | long | bool | text | list | function | sink | source | data | pointer => rfl

section

variable {s t : State} {id : WrapperId} {h : Nat} {o : OptionCode} {v : Value}

/-- What is no length is not entered. -/
theorem sizes_foldl {xs : List (OptionCode × Argument)}
    (hxs : ∀ x ∈ xs, x.1.isBodySize = false ∨ ∀ n, x.2 ≠ .integer n) (n : Option Int64) :
    xs.foldl (fun n x ↦ sizes.enter x.1 x.2 n) n = n := by
  induction xs with
  | nil => rfl
  | cons x xs ih =>
    have henter : sizes.enter x.1 x.2 n = n := by
      rcases x with ⟨o, _ | a | a⟩
      · refine if_neg ?_
        rcases hxs _ List.mem_cons_self with ho | hne
        · rw [ho]
          exact Bool.false_ne_true
        · exact absurd rfl (hne _)
      · rfl
      · rfl
    rw [List.foldl_cons, henter]
    exact ih fun x hx ↦ hxs x (List.mem_cons_of_mem _ hx)

theorem isBodySize_of_rewiring {k : CallbackKind} {installed : Bool} {f : Slots → Slots}
    {done : List (OptionCode × Argument)} {r : Except Error Unit}
    (hw : Rewiring h k installed f done r) : ∀ x ∈ done, x.1.isBodySize = false := by
  intro x hx
  rcases hw.option_of_mem hx with he | ⟨he, -⟩ | he
  · rw [he]
    cases k <;> decide
  · rw [he]
    decide
  · rw [he]
    cases k <;> decide

/-- Where the caller gives no length, a buffer for the body is all that changes it. -/
theorem sizes_of_afterSetopt {r : Except Error Unit} {n : Option Nat}
    (ho : o.isBodySize = false) (ha : AfterSetopt s id h o v r t)
    (hn : s.book sizes h = n.map Int64.ofNat) :
    t.book sizes h = (lengthGiven o v r.isOk n).map Int64.ofNat := by
  -- What is recorded or put into slots on the way is of no interest to a book.
  have hbook {u : State} (xs : List (OptionCode × Argument)) (hu : u.settling = s.settling)
      (hd : Drift [] (u.storeAll id h xs) t) :
      t.book sizes h = xs.foldl (fun n x ↦ sizes.enter x.1 x.2 n) (n.map Int64.ofNat) := by
    rw [congrFun (book_congr sizes hd.settling) h, book_storeAll, if_pos rfl,
      congrFun (book_congr sizes hu) h, hn]
  have hstore {u : State} {x : Argument} (hd : Drift [] (u.store id h o x) t)
      (hu : u.settling = s.settling) : t.book sizes h = n.map Int64.ofNat := by
    refine (hbook [(o, x)] hu hd).trans (sizes_foldl (fun y hy ↦ .inl ?_) _)
    rw [List.mem_singleton.1 hy, ho]
  have hrefused (hd : Drift [] s t) :
      t.book sizes h = (lengthGiven o v false n).map Int64.ofNat := by
    rw [lengthGiven_false]
    exact hbook [] rfl hd
  cases ha with
  | refused hd => exact hrefused hd
  | @rewired k f done _ _ hk _ hw hd =>
    have hne : o ≠ .postFields := by
      rcases hk with rfl | rfl
      · cases k <;> decide
      · cases k <;> decide
    rw [lengthGiven_of_ne hne]
    refine (hbook (u := s.withSlots id f) done rfl hd).trans (sizes_foldl (fun x hx ↦ ?_) _)
    exact .inl (isBodySize_of_rewiring hw x hx)
  | plain _ ha =>
    cases ha with
    | refused hd => exact hrefused hd
    | bare hv _ hd =>
      have hlen : lengthGiven o v true n = n := by
        cases v with
        | null | long | bool | pointer => rfl
        | text | bytes | list | function | sink | source | data => cases hv
      exact (hstore hd rfl).trans (congrArg _ hlen.symm)
    | text _ _ _ hd => exact hstore hd rfl
    | @bytes b _ _ hd =>
      refine (hbook (u := s.recordAll id (lent (s.wrapper id).ledger b)) _ rfl hd).trans ?_
      rw [body, List.foldl_cons]
      by_cases hpost : o = .postFields
      · -- The length goes with the address.
        have hsize : (sizeOption b.bytes.length).isBodySize = true := by
          rcases sizeOption_eq b.bytes.length with hn | hn
          · rw [hn]
            rfl
          · rw [hn]
            rfl
        rw [if_pos hpost, List.foldl_cons, List.foldl_nil, lengthGiven, if_pos ⟨hpost, rfl⟩]
        exact if_pos hsize
      · rw [if_neg hpost, lengthGiven_of_ne hpost]
        rfl
    | strayed _ hd => exact (hstore hd rfl).trans (congrArg _ (lengthGiven_false ..).symm)
    | list _ _ _ hd => exact hstore hd rfl

/-- After each step the length of a handle is the last one that its wrapper was given with a
buffer. -/
theorem sizes_step {x : Step} {r : Except Error WrapperId} {n : Option Nat} (hc : s.Coherent)
    (he : Effect s x r t) (hx : ∀ j o v, x = .setopt j o v → o.isBodySize = false)
    (hdup : ∀ j, x ≠ .duplicate j)
    (hn : ∀ h, (s.wrapper id).handle = some h → s.book sizes h = n.map Int64.ofNat) (h : Nat)
    (hh : (t.wrapper id).handle = some h) :
    t.book sizes h = (Passage.note id none lengthGiven ⟨x, s, r, t⟩ n).map Int64.ofNat := by
  have hkeeps (hk : Steady s t id) : t.book sizes h = n.map Int64.ofNat := by
    rw [hk.handle] at hh
    rw [hk.book h hh _ sizes]
    exact hn h hh
  cases he.fate hc id with
  | kept hpasses hk =>
    rw [hpasses]
    exact hkeeps hk.toSteady
  | @failed _ e _ hd =>
    rw [hkeeps (Keeps.of_drift_nil hd).toSteady]
    rcases Passage.note_error id none lengthGiven x s t e n with ⟨j, o, v, rfl⟩ | hnote
    · rw [Passage.note_setopt, Except.isOk, Except.toBool, lengthGiven_false, ite_self]
    · rw [hnote]
  | @set g o v r _ hg ha =>
    obtain rfl : g = h := Option.some.inj ((ha.handle hg).symm.trans hh)
    rw [Passage.note_setopt, if_pos rfl]
    have hok : (r.map fun _ ↦ id).isOk = r.isOk := by cases r <;> rfl
    rw [hok]
    exact sizes_of_afterSetopt (hx id o v rfl) ha (hn g hg)
  | begun hforgets hb =>
    obtain rfl := Option.some.inj (hb.handle.symm.trans hh)
    rw [hforgets, hb.book]
    rfl
  | @bundled _ _ u g _ _ _ hforgets hb ha =>
    obtain rfl : g = h := Option.some.inj ((ha.handle hb.handle).symm.trans hh)
    rw [hforgets]
    exact sizes_of_afterSetopt (n := none) rfl ha (hb.book _ sizes)
  | twinned => exact absurd rfl (hdup _)
  | released _ hd => exact hkeeps (.of_cut hd)
  | ended _ hnone =>
    rw [hnone] at hh
    cases hh

/-- The length that was given last, all along a run without duplicates. -/
theorem State.Orderly.size_eq (hc : s.Coherent) {xs : List Step} (ho : s.Orderly xs)
    (hs : ∀ h, (s.wrapper id).handle = some h → s.book sizes h = none)
    (hx : ∀ j o v, Step.setopt j o v ∈ xs → o.isBodySize = false)
    (hdup : ∀ j, Step.duplicate j ∉ xs) (hh : ((s.after xs).wrapper id).handle = some h) :
    (s.after xs).book sizes h = (lastLength id (passages s xs)).map Int64.ofNat := by
  refine ho.induction hc (P := fun xs ↦ (∀ j o v, Step.setopt j o v ∈ xs → o.isBodySize = false) →
    (∀ j, Step.duplicate j ∉ xs) → ∀ h, ((s.after xs).wrapper id).handle = some h →
      (s.after xs).book sizes h = (lastLength id (passages s xs)).map Int64.ofNat)
    (fun _ _ ↦ hs) ?_ hx hdup h hh
  intro xs x hcoh he ih hx hdup h hh
  have hlast {y : Step} (hy : x = y) : y ∈ xs ++ [x] :=
    List.mem_append_right _ (List.mem_singleton.2 hy.symm)
  rw [lastLength, notes_concat]
  rw [after_concat] at he hh ⊢
  refine sizes_step hcoh he (fun j o v hy ↦ hx j o v (hlast hy)) (fun j hy ↦ hdup j (hlast hy))
    (ih (fun j o v hm ↦ hx j o v (List.mem_append_left _ hm)) fun j hm ↦ ?_) h hh
  exact hdup j (List.mem_append_left _ hm)

end

/-! ## What is read of what was set -/

/-- Whether a value is a body. -/
def Value.isBody : Value → Bool
  | .text _ => true
  | .bytes b => b.bytes ≠ []
  | _ => false

/-- Whether a step sets the length of a body. -/
def Step.setsLength : Step → Bool
  | .setopt _ o _ => o.isBodySize
  | _ => false

/-- Whether a buffer in a step is not longer than memory can be. -/
def Step.fits : Step → Bool
  | .setopt _ _ (.bytes b) => IsLength b.bytes.length
  | _ => true

/-- Buffers that fit have lengths that fit. -/
theorem isLength_lastLength {s : State} {xs : List Step} (id : WrapperId)
    (hfits : ∀ x ∈ xs, x.fits = true) : ∀ n ∈ lastLength id (passages s xs), IsLength n := by
  refine notes_induction id none lengthGiven (P := fun n : Option Nat ↦ ∀ k ∈ n, IsLength k)
    nofun fun j o v hm ok n hn ↦ ?_
  cases v with
  | bytes b =>
    rw [lengthGiven]
    split
    · intro k hk
      rw [← Option.some.inj hk]
      exact of_decide_eq_true (hfits _ hm)
    · exact hn
  | null | long | bool | text | list | function | sink | source | data | pointer => exact hn

section

variable {s t : State} {id : WrapperId} {h : Nat} {v : Value}

theorem body?_of_text {x : String} (hb : s.Backs id .postFields (.text x)) :
    ∃ h, (s.wrapper id).handle = some h ∧ 0 ∉ Text.utf8 x ∧
      s.body? id = bodyRead (s.book sizes h) (Text.utf8 x ++ [0]) := by
  obtain ⟨h, hh, a, -, hset, hcar⟩ := hb
  cases hcar with
  | text ha hnul =>
    refine ⟨h, hh, hnul, ?_⟩
    simp only [State.body?, hh, hset, ha, Option.bind_eq_bind, Option.bind_some]

theorem body?_of_bytes {b : Buffer} (hb : s.Backs id .postFields (.bytes b)) :
    ∃ h, (s.wrapper id).handle = some h ∧ s.body? id = bodyRead (s.book sizes h) b.bytes := by
  obtain ⟨h, hh, a, -, hset, hcar⟩ := hb
  cases hcar with
  | bytes ha =>
    refine ⟨h, hh, ?_⟩
    simp only [State.body?, hh, hset, ha, Address.octets?, Option.bind_eq_bind, Option.bind_some]

/-- The length that is there when a text comes, and stays there, decides on what is read of it. -/
theorem body?_eq_iff {n : Option Nat} (hh : (s.wrapper id).handle = some h)
    (hlive : s.engine.isLive h = true) (hn : s.book sizes h = n.map Int64.ofNat)
    (hlength : ∀ k ∈ n, IsLength k) (hv : v.isBody = true)
    (hfits : (Step.setopt id .postFields v).fits = true)
    (ha : AfterSetopt s id h .postFields v (.ok ()) t) :
    t.body? id = some v.octets ↔ ∀ x, v = .text x → ∀ k ∈ n, k = (Text.utf8 x).length := by
  have hsizes := sizes_of_afterSetopt rfl ha hn
  have hhandle := ha.handle hh
  cases v with
  | text x =>
    obtain ⟨g, hg, hnul, hbody⟩ := body?_of_text (backs_of_afterSetopt hh hlive rfl ha).2
    obtain rfl : g = h := Option.some.inj (hg.symm.trans hhandle)
    have hread : t.body? id = bodyRead (n.map Int64.ofNat) (Text.utf8 x ++ [0]) := by
      rw [hbody, hsizes]
      rfl
    rw [hread, Value.octets, bodyRead_text_iff hnul hlength]
    constructor
    · rintro hk _ ⟨⟩
      exact hk
    · intro hall
      exact hall x rfl
  | bytes b =>
    obtain ⟨g, hg, hbody⟩ := body?_of_bytes (backs_of_afterSetopt (v := .bytes b) hh hlive hv ha).2
    obtain rfl : g = h := Option.some.inj (hg.symm.trans hhandle)
    have hread : t.body? id = some b.bytes := by
      rw [hbody, hsizes, lengthGiven, if_pos ⟨rfl, rfl⟩]
      exact bodyRead_length (of_decide_eq_true hfits)
    exact iff_of_true hread nofun
  | null | long | bool | list | function | sink | source | data | pointer => cases hv

end

/-- A body that is accepted is read as it was given, if the caller sets no lengths, exactly if it is
a buffer, or a text for which no length or its own was left behind by a buffer. -/
theorem body_is_read_iff (policy : Policy) (host : Host) (settled : Settled) (api : Api)
    (steps : List Step) (hone : ∀ x ∈ steps, x.makes = false)
    (hlength : ∀ x ∈ steps, x.setsLength = false) (id : WrapperId) (v : Value)
    (hv : v.isBody = true) (hfits : ∀ x ∈ .setopt id .postFields v :: steps, x.fits = true)
    (hok : ((Step.setopt id .postFields v).pass
      ((State.start policy host settled).after (.create api :: steps))).result.isOk = true) :
    ((Step.setopt id .postFields v).pass
        ((State.start policy host settled).after (.create api :: steps))).after.body? id =
      some v.octets ↔
    ∀ x, v = .text x → ∀ n ∈ lastLength id (passages (.start policy host settled)
      (.create api :: steps)), n = (Text.utf8 x).length := by
  have hc := Coherent.start policy host settled
  have ho := Orderly.single policy host settled (.create api) hone
  have hcoh := ho.coherent hc
  have he := Effect.of_pass (x := .setopt id .postFields v) hcoh.numbered nofun
  have hlast : ∀ n ∈ lastLength id (passages (.start policy host settled) (.create api :: steps)),
      IsLength n := by
    refine isLength_lastLength id fun x hx ↦ ?_
    rcases List.mem_cons.1 hx with rfl | hx
    · rfl
    · exact hfits x (List.mem_cons_of_mem _ hx)
  generalize (Step.setopt id .postFields v).pass
    ((State.start policy host settled).after (.create api :: steps)) = p at he hok ⊢
  rcases p with ⟨x, s, r, t⟩
  cases he with
  | request hr => cases hr
  | failed => cases hok
  | @set _ h _ _ r _ hh ha =>
    cases r with
    | error => cases hok
    | ok =>
      refine body?_eq_iff hh (hcoh.live id h hh) ?_ hlast hv (hfits _ List.mem_cons_self) ha
      refine ho.size_eq hc (fun _ _ ↦ rfl) (fun j o w hm ↦ ?_) (fun j hm ↦ ?_) hh
      · rcases List.mem_cons.1 hm with hm | hm
        · cases hm
        · exact hlength _ hm
      · rcases List.mem_cons.1 hm with hm | hm
        · cases hm
        · cases hone _ hm

/-- A text as long as the buffer before it is read as it is. -/
theorem text_of_same_length_is_read :
    ((Step.setopt 0 .postFields (.text "abc")).pass ((State.start {} .bare .bare).after
      [.create .inProcess, .setopt 0 .postFields (.bytes ⟨0, [1, 2, 3]⟩)])).after.body? 0 =
      some (Text.utf8 "abc") := by
  have hlast : lastLength 0 (passages (.start {} .bare .bare)
      [.create .inProcess, .setopt 0 .postFields (.bytes ⟨0, [1, 2, 3]⟩)]) = some 3 := by
    decide +kernel
  refine (body_is_read_iff {} .bare .bare .inProcess [.setopt 0 .postFields (.bytes ⟨0, [1, 2, 3]⟩)]
    (by decide) (by decide) 0 (.text "abc") rfl (by decide) (by decide +kernel)).2 ?_
  rintro _ ⟨⟩ n hn
  rw [hlast] at hn
  rw [← Option.some.inj hn]
  decide +kernel

/-- A shorter text is not: more octets are read than there are. -/
theorem shorter_text_is_overrun :
    ((Step.setopt 0 .postFields (.text "a")).pass ((State.start {} .bare .bare).after
      [.create .inProcess, .setopt 0 .postFields (.bytes ⟨0, [1, 2, 3]⟩)])).result.isOk = true ∧
    ((Step.setopt 0 .postFields (.text "a")).pass ((State.start {} .bare .bare).after
      [.create .inProcess, .setopt 0 .postFields (.bytes ⟨0, [1, 2, 3]⟩)])).after.body? 0 =
      none := by
  decide +kernel

end NativeTransfer
