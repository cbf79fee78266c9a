import Mathlib.Data.List.Forall2
import Mathlib.Data.List.TakeWhile
import NativeTransfer.Proofs.Storing

/-!
# What setting an option does

Every end that setting an option can come to, and what is left of it. A value that is kept is
recorded and then stored, and what was recorded is taken back where storing fails. There is one case
in which more is left than that: the body of a post crosses as an address and a length, and the
address stays behind with the engine if the length is refused.

## The ends

`AfterPlain` has a constructor for each kind of value and one for each way to fail. A refusal of any
kind drifts: what was recorded was taken back, and what was stored is what was stored before. The
one exception has a constructor of its own, a body whose address was accepted and whose length was
not.

A text is recorded under a number of its own, a buffer only if its address is not there yet, and a
list is built item by item and recorded as a whole when the engine has it. Each of the three has a
section, in which the program is followed up to its end.
-/

namespace NativeTransfer

/-- Whether a value has the engine hold an address of memory that the library looks after. -/
def Value.isKept : Value → Bool
  | .text _ => true
  | .bytes b => b.bytes ≠ []
  | .list items => items ≠ []
  | _ => false

/-- Whether a value crosses as it is. -/
def Value.isBare : Value → Bool
  | .null => true
  | .long _ => true
  | .bool _ => true
  | .pointer _ => true
  | _ => false

theorem Value.isKept_of_isBare {v : Value} (hv : v.isBare = true) : v.isKept = false := by
  cases v with
  | null | long | bool | pointer => rfl
  | text | bytes | list | function | sink | source | data => cases hv

/-- An argument without any memory behind it. -/
def Argument.isBare : Argument → Bool
  | .integer _ => true
  | .pointer (.number _) => true
  | .function (.number _) => true
  | _ => false

/-- The address that a buffer crosses as. -/
def Buffer.address (b : Buffer) : Address :=
  if b.bytes = [] then .null else .buffer b.serial b.bytes

namespace Wrapper

open State

variable {s t : State} {id : WrapperId} {h : Nat}

/-! ## Ends without callbacks -/

/-- What is recorded for a buffer: nothing, if there is nothing in it or it is recorded already. -/
def lent (l : Ledger) (b : Buffer) : List Allocation :=
  if b.address.isNull ∨ l.covers b.address then [] else [.buffer b.serial b.bytes]

/-- What is stored for a buffer. The length goes with the body of a post only. -/
def body (o : OptionCode) (b : Buffer) : List (OptionCode × Argument) :=
  (o, .pointer b.address) ::
    if o = .postFields then
      [(sizeOption b.bytes.length, .integer (Int64.ofNat b.bytes.length))]
    else []

/-- A list that the engine built anew, out of some items. Without items there is none. -/
def Built (s t : State) (items : List String) : Option Nat → Prop
  | none => items = []
  | some n => items ≠ [] ∧ s.engine.list? n = none ∧
    t.engine.list? n = some { items := items.map fun x ↦ some (Text.utf8 x) }

/-- The copies of some items. -/
def Copies (as : List Allocation) (items : List String) : Prop :=
  List.Forall₂ (fun a x ↦ ∃ n, a = Allocation.text n x) as items

/-- The end of setting an option that has no part in the wiring of callbacks. -/
inductive AfterPlain (s : State) (id : WrapperId) (h : Nat) (o : OptionCode) :
    Value → Except Error Unit → State → Prop
  | refused {v e t} (hd : Drift [] s t) : AfterPlain s id h o v (.error e) t
  | bare {v x t} (hv : v.isBare = true) (hx : x.isBare = true)
      (hd : Drift [] (s.store id h o x) t) : AfterPlain s id h o v (.ok ()) t
  | text {x n t} (he : o.encoding = .object) (hnul : 0 ∉ Text.utf8 x) (hn : s.serials ≤ n)
      (hd : Drift [] ((s.recordAll id [.text n x]).store id h o (.pointer (.copy n x))) t) :
      AfterPlain s id h o (.text x) (.ok ()) t
  | bytes {b t} (he : o.encoding = .object)
      (hd : Drift [] ((s.recordAll id (lent (s.wrapper id).ledger b)).storeAll id h (body o b)) t) :
      AfterPlain s id h o (.bytes b) (.ok ()) t
  /-- The body was accepted and its length was not. -/
  | strayed {b e t} (ho : o = .postFields) (hd : Drift [] (s.store id h o (.pointer b.address)) t) :
      AfterPlain s id h o (.bytes b) (.error e) t
  | list {items as head n t} (he : o.encoding = .object) (hc : Copies as items)
      (hb : Built s t items head)
      (hd : Drift [] ((s.recordAll id (as ++ head.toList.map fun m ↦ .list n (some m))).store id h o
        (.pointer (Address.ofList? head))) t) :
      AfterPlain s id h o (.list items) (.ok ()) t

/-! ## Texts -/

theorem untilNul_eq_self_iff {b : Bytes} : b.untilNul = b ↔ 0 ∉ b := by
  rw [Bytes.untilNul, List.takeWhile_eq_self_iff]
  constructor
  · intro hall hmem
    simpa using hall 0 hmem
  · intro hnot x hx
    exact decide_eq_true fun hx0 ↦ hnot (hx0 ▸ hx)

/-- A text that is not refused has no NUL in it. -/
theorem leads_checkText (x : String) :
    Leads (checkText x) s (fun _ t ↦ 0 ∉ Text.utf8 x ∧ t = s) fun _ t ↦ t = s := by
  rw [checkText]
  cases hx : interiorNul? x with
  | some n => rfl
  | none =>
    refine ⟨untilNul_eq_self_iff.1 ?_, rfl⟩
    rw [interiorNul?] at hx
    have hlen : ¬ (Text.utf8 x).untilNul.length < (Text.utf8 x).length := by
      intro hlt
      rw [if_pos hlt] at hx
      exact absurd hx nofun
    exact (List.takeWhile_prefix _).eq_of_length_le (Nat.le_of_not_lt hlen)

/-- A copy is recorded under a number of its own. -/
theorem leads_recordText (x : String) :
    Leads (recordText id x) s
      (fun a t ↦ ∃ n, 0 ∉ Text.utf8 x ∧ s.serials ≤ n ∧ a = .copy n x ∧
        Drift [] (s.recordAll id [.text n x]) t)
      fun _ t ↦ t = s := by
  rw [recordText, leads_bind]
  refine (leads_checkText x).mono (fun _ t ht ↦ ?_) fun _ _ ht ↦ ht
  obtain ⟨hnul, rfl⟩ := ht
  have hnew : Drift [] t { t with serials := t.serials + 1 } :=
    { Drift.refl t with serials := Nat.le_succ _ }
  rw [leads_bind, leads_newSerial, leads_bind, leads_lift]
  refine (ends_record (.text t.serials x)).mono ?_
  rintro _ u rfl
  refine ⟨t.serials, hnul, Nat.le_refl _, rfl, ?_⟩
  exact (hnew.trans (drift_noting _ id _)).modifyWrapper id _

theorem Stores.single {o : OptionCode} {x : Argument} {p : Attempt Unit}
    (hp : Stores id h [(o, x)] p) (s : State) :
    Leads p s (fun _ t ↦ Drift [] (s.store id h o x) t) fun _ t ↦ Drift [] s t := by
  refine (hp _ s rfl).mono (fun _ t ht ↦ ht) ?_
  rintro e t ⟨done, hpre, hne, ht⟩
  rcases List.prefix_cons_iff.1 hpre with rfl | ⟨l, rfl, hl⟩
  · exact ht
  · rw [List.prefix_nil.1 hl] at hne
    exact absurd rfl hne

theorem leads_setText (hn : s.ids.Nodup) (ha : s.isAlive id = true) {o : OptionCode}
    (he : o.encoding = .object) (x : String) :
    Leads (setText id h o x) s (fun _ t ↦ AfterPlain s id h o (.text x) (.ok ()) t)
      fun e t ↦ AfterPlain s id h o (.text x) (.error e) t := by
  rw [setText, leads_bind, leads_getLedger, leads_bind]
  refine (leads_recordText x).mono ?_ ?_
  · rintro a t ⟨n, hnul, hle, rfl, hd⟩
    rw [orRelease, leads_orUndo]
    refine ((stores_setPointer o _).single t).mono (fun _ u hu ↦ ?_) fun e u hu ↦ ?_
    · exact .text he hnul hle ((hd.store id h o _).trans hu)
    · rw [ends_discard]
      refine (ends_rollback hn ha ?_ (hd.trans hu)).mono fun _ _ hv ↦ .refused hv
      simp [Allocation.nativeList?]
  · rintro e t rfl
    exact .refused (Drift.refl t)

/-! ## Buffers -/

theorem sizeOption_eq (n : Nat) :
    sizeOption n = .postFieldSize ∨ sizeOption n = .postFieldSizeLarge := by
  rw [sizeOption]
  split
  · exact .inl rfl
  · exact .inr rfl

theorem mem_body {o : OptionCode} {b : Buffer} {x : OptionCode × Argument} (hx : x ∈ body o b) :
    x = (o, .pointer b.address) ∨
      x = (sizeOption b.bytes.length, .integer (Int64.ofNat b.bytes.length)) := by
  rw [body, List.mem_cons] at hx
  rcases hx with hx | hx
  · exact .inl hx
  · split at hx
    · exact .inr (List.mem_singleton.1 hx)
    · exact absurd hx List.not_mem_nil

theorem stores_body (o : OptionCode) (b : Buffer) :
    Stores id h (body o b) (do
      setPointer id h o b.address
      if o = .postFields then
        setInteger id h (sizeOption b.bytes.length) (Int64.ofNat b.bytes.length)) := by
  refine (stores_setPointer o b.address).cons ?_
  by_cases ho : o = .postFields
  · simp only [if_pos ho]
    exact stores_setInteger _ _
  · simp only [if_neg ho]
    exact Stores.nil

theorem nativeList?_of_mem_lent {l : Ledger} {b : Buffer} :
    ∀ a ∈ lent l b, a.nativeList? = none := by
  intro a hm
  rw [lent] at hm
  split at hm
  · exact absurd hm List.not_mem_nil
  · rw [List.mem_singleton.1 hm]
    rfl

/-- A buffer is recorded first, if there is anything to record. -/
theorem leads_lend {o : OptionCode} {b : Buffer} {ok : Unit → State → Prop}
    {err : Error → State → Prop}
    (hend : Leads (orRelease id (s.wrapper id).ledger.position do
        setPointer id h o b.address
        if o = .postFields then
          setInteger id h (sizeOption b.bytes.length) (Int64.ofNat b.bytes.length))
      (s.recordAll id (lent (s.wrapper id).ledger b)) ok err) :
    Leads (setBytes id h o b) s ok err := by
  rw [setBytes, leads_bind, leads_getLedger]
  change Leads (ite (¬ b.address.isNull = true ∧ ¬ (s.wrapper id).ledger.covers b.address = true)
    _ _) s _ _
  by_cases hc : b.address.isNull = true ∨ (s.wrapper id).ledger.covers b.address = true
  · rw [lent, if_pos hc, recordAll_nil] at hend
    rw [if_neg (not_and_or.2 (hc.imp not_not.2 not_not.2))]
    exact hend
  · rw [lent, if_neg hc] at hend
    rw [if_pos (not_or.1 hc), leads_bind, leads_lift]
    refine (ends_record (.buffer b.serial b.bytes)).mono ?_
    rintro _ t rfl
    rw [noting_of_not_covers fun hcovers ↦ hc (.inr ?_)]
    · exact hend
    · have hbytes : b.bytes ≠ [] := fun hnil ↦ hc (.inl (by rw [Buffer.address, if_pos hnil]; rfl))
      rw [Buffer.address, if_neg hbytes]
      exact hcovers

theorem leads_setBytes (hn : s.ids.Nodup) (ha : s.isAlive id = true) {o : OptionCode}
    (he : o.encoding = .object) (b : Buffer) :
    Leads (setBytes id h o b) s (fun _ t ↦ AfterPlain s id h o (.bytes b) (.ok ()) t)
      fun e t ↦ AfterPlain s id h o (.bytes b) (.error e) t := by
  refine leads_lend ?_
  rw [orRelease, leads_orUndo]
  refine (stores_body o b _ _ rfl).mono (fun _ _ ht ↦ .bytes he ht) ?_
  rintro _ t ⟨done, hpre, hne, ht⟩
  rw [storeAll_recordAll] at ht
  have hback := ends_rollback (s := s.storeAll id h done) (by simpa using hn) (by simpa using ha)
    nativeList?_of_mem_lent ht
  rw [wrapper_storeAll] at hback
  rw [ends_discard]
  refine hback.mono fun _ u hu ↦ ?_
  -- Whatever was accepted stays accepted: nothing at all, or the address of a body.
  rcases List.prefix_cons_iff.1 hpre with rfl | ⟨l, rfl, hl⟩
  · exact .refused hu
  · by_cases ho : o = .postFields
    · rw [if_pos ho] at hl
      rcases List.prefix_cons_iff.1 hl with rfl | ⟨m, rfl, hm⟩
      · exact .strayed ho hu
      · rw [List.prefix_nil.1 hm, body, if_pos ho] at hne
        exact absurd rfl hne
    · rw [if_neg ho] at hl
      rw [List.prefix_nil.1 hl, body, if_neg ho] at hne
      exact absurd rfl hne

/-! ## Lists -/

theorem nativeList?_of_copies {as : List Allocation} {items : List String} (hc : Copies as items) :
    ∀ a ∈ as, a.nativeList? = none := by
  induction hc with
  | nil => exact nofun
  | cons ha _ ih =>
    obtain ⟨n, rfl⟩ := ha
    intro a hm
    rcases List.mem_cons.1 hm with rfl | hm
    · rfl
    · exact ih a hm

theorem Built.new {items : List String} {head : Option Nat} (hb : Built s t items head) :
    ∀ n ∈ head.toList, s.engine.list? n = none := by
  cases head with
  | none => exact nofun
  | some k =>
    intro n hmem
    rw [List.mem_singleton.1 hmem]
    exact hb.2.1

theorem Built.drift {items : List String} {head : Option Nat} {u : State}
    (hb : Built s t items head) (hd : Drift [] t u) : Built s u items head := by
  cases head with
  | none => exact hb
  | some k => exact ⟨hb.1, hb.2.1, hd.lists k List.not_mem_nil _ hb.2.2⟩

section

variable {as : List Allocation} {items : List String} {head : Option Nat}

/-- One item more: a copy of it is recorded, and the list is built one item further. -/
theorem leads_appendItem (hc : Copies as items) (hb : Built s t items head)
    (hd : Drift [] (s.recordAll id as) t) (x : String) :
    Leads (appendItem id head x) t
      (fun n u ↦ ∃ bs, Copies bs (items ++ [x]) ∧ Built s u (items ++ [x]) (some n) ∧
        Drift [] (s.recordAll id bs) u)
      fun _ u ↦ ∃ bs, (∀ a ∈ bs, a.nativeList? = none) ∧ Drift [] (s.recordAll id bs) u := by
  rw [appendItem, leads_bind, leads_getApi, leads_bind, leads_discard]
  refine (leads_recordText x).mono ?_ ?_
  · rintro _ u ⟨n, -, -, rfl, hu⟩
    have hc' : Copies (as ++ [.text n x]) (items ++ [x]) :=
      List.rel_append hc (.cons ⟨n, rfl⟩ .nil)
    have hd' : Drift [] (s.recordAll id (as ++ [.text n x])) u := by
      rw [← recordAll_append]
      exact (hd.modifyWrapper id _).trans hu
    rw [leads_bind]
    cases head with
    | none =>
      refine (Api.leads_append_none _ x).mono (fun given v hv ↦ ?_) fun e v hv ↦ ?_
      · cases given with
        | none => exact ⟨_, nativeList?_of_copies hc', hd'.trans hv⟩
        | some m =>
          obtain ⟨hnew, hv, hl⟩ := hv
          subst hb
          exact ⟨_, hc', ⟨nofun, hd'.list?_eq_none hnew, hl⟩, hd'.trans hv⟩
      · exact ⟨_, nativeList?_of_copies hc', hd'.trans hv⟩
    | some k =>
      obtain ⟨hne, hnew, hl⟩ := And.intro hb.1 hb.2
      refine (Api.leads_append_some _ k x).mono (fun given v hv ↦ ?_) fun e v hv ↦ ?_
      · cases given with
        | none => exact ⟨_, nativeList?_of_copies hc', hd'.trans hv⟩
        | some m =>
          obtain ⟨rfl, hv, hlist⟩ := hv
          have hu' : u.engine.list? m = some { items := items.map fun x ↦ some (Text.utf8 x) } :=
            hu.lists m List.not_mem_nil _ hl
          refine ⟨_, hc', ⟨?_, hnew, ?_⟩, (hd'.trans hv).tighten hb.new⟩
          · exact List.append_ne_nil_of_left_ne_nil hne _
          · rw [hlist, hu', Option.map_some, List.map_append]
            rfl
      · exact ⟨_, nativeList?_of_copies hc', hd'.trans hv⟩
  · rintro e u rfl
    exact ⟨as, nativeList?_of_copies hc, hd⟩

/-- A list that is not finished is freed again, and its items are taken out of the ledger. -/
theorem leads_buildList (hn : s.ids.Nodup) (ha : s.isAlive id = true) (o : OptionCode)
    (rest : List String) (hc : Copies as items) (hb : Built s t items head)
    (hd : Drift [] (s.recordAll id as) t) :
    Leads (buildList id o (s.wrapper id).ledger.position head rest) t
      (fun last u ↦ ∃ bs, Copies bs (items ++ rest) ∧ Built s u (items ++ rest) last ∧
        Drift [] (s.recordAll id bs) u)
      fun _ u ↦ Drift [] s u := by
  -- Every failure goes back to `s`, however many items are recorded by then.
  induction rest generalizing t as items head with
  | nil =>
    rw [buildList, List.append_nil]
    exact ⟨as, hc, hb, hd⟩
  | cons x rest ih =>
    rw [buildList, leads_bind, leads_observed]
    refine (leads_appendItem hc hb hd x).mono ?_ ?_
    · rintro n u ⟨bs, hc', hb', hd'⟩
      rw [List.append_cons]
      exact ih hc' hb' hd'
    · rintro e u ⟨bs, hbs, hu⟩
      rw [leads_bind, leads_discard, leads_lift]
      refine (ends_rollback hn ha hbs hu).mono fun _ v hv ↦ ?_
      rw [leads_bind, leads_getApi, leads_bind, leads_lift]
      refine (ends_freeNativeList _ head).mono fun _ w hw ↦ ?_
      rw [leads_bind, leads_lift]
      refine (ends_report _ _ _).mono fun _ z hz ↦ ?_
      rw [leads_throw]
      exact ((hv.trans hw).tighten hb.new).trans hz

theorem leads_setList (hn : s.ids.Nodup) (ha : s.isAlive id = true) {o : OptionCode}
    (he : o.encoding = .object) (items : List String) :
    Leads (setList id h o items) s (fun _ t ↦ AfterPlain s id h o (.list items) (.ok ()) t)
      fun e t ↦ AfterPlain s id h o (.list items) (.error e) t := by
  have hstart : Drift [] (s.recordAll id []) s := by
    rw [recordAll_nil]
    exact Drift.refl s
  rw [setList, leads_bind, leads_getLedger, leads_bind]
  have hnil : Copies [] [] := .nil
  have hnone : Built s s [] none := rfl
  refine (leads_buildList hn ha o items hnil hnone hstart).mono ?_ fun _ _ ht ↦ .refused ht
  rintro head t ⟨as, hc, hb, hd⟩
  rw [leads_bind, leads_orUndo]
  refine ((stores_setPointer o _).single t).mono (fun _ u hu ↦ ?_) fun e u hu ↦ ?_
  · have hd' := (hd.store id h o (.pointer (Address.ofList? head))).trans hu
    have hb' : Built s u items head := Built.drift (t := t.store id h o _) hb hu
    cases head with
    | none =>
      rw [← List.append_nil as] at hd'
      exact .list (n := 0) he hc hb' hd'
    | some k =>
      have hnew : Drift [] u { u with serials := u.serials + 1 } :=
        { Drift.refl u with serials := Nat.le_succ _ }
      rw [if_pos Option.isSome_some, leads_bind, leads_newSerial, leads_lift]
      refine (ends_record (.list u.serials (some k))).mono ?_
      rintro _ v rfl
      have hnoted := hnew.trans (drift_noting _ id (.list u.serials (some k)))
      have hb'' := hb'.drift hnoted
      change Built s (recordAll (noting _ id _) id [.list u.serials (some k)]) items
        (some k) at hb''
      refine .list (n := u.serials) he hc hb'' ?_
      rw [← recordAll_append, store_recordAll]
      exact (hd'.trans hnoted).modifyWrapper id _
  · rw [ends_bind, ends_discard]
    refine (ends_rollback hn ha (nativeList?_of_copies hc) (hd.trans hu)).mono fun _ v hv ↦ ?_
    rw [ends_bind, ends_getApi]
    refine (ends_freeNativeList _ head).mono fun _ w hw ↦ ?_
    exact .refused ((hv.trans hw).tighten hb.new)

end

end Wrapper

end NativeTransfer
