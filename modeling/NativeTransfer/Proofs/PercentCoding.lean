import NativeTransfer.Proofs.RoundTrip

/-!
# What is escaped can be unescaped

An engine that codes octets by percent signs makes of any text a text of a few characters. That one
comes back up to its first NUL, of which there is none, and what is decoded from it comes back with
a length, so that it may hold any octets. Escaping and then unescaping therefore gives the octets of
a text again, whatever characters are in it. Each of the two asks the engine once and gives back the
one string that the engine hands out, and neither asks anything for the empty text, which the engine
would measure itself.

## What is assumed of the engine

`Policy.PercentCodes` has two clauses: escaping gives some coded form of the octets, with either
case of digits and with as much coded as the engine likes, and unescaping undoes any coded form.
`Codes` is the relation between octets and their coded forms, and the decoder is opened in no lemma
but those that undo one coded octet or pass one over.

Between the two halves the form crosses as a string that ends at its first NUL. That nothing is cut
off there is due to a coded form having no NUL, whatever the octets were.
-/

namespace NativeTransfer

open State Wrapper

/-! ## Coding by percent signs -/

namespace Bytes

/-- Letters, digits and four marks. -/
def isUnreserved (x : UInt8) : Bool :=
  (48 ≤ x ∧ x ≤ 57) ∨ (65 ≤ x ∧ x ≤ 90) ∨ (97 ≤ x ∧ x ≤ 122) ∨ x = 45 ∨ x = 46 ∨ x = 95 ∨ x = 126

/-- The value of an octet that is a hexadecimal digit, in either case. -/
def digitValue? (x : UInt8) : Option UInt8 :=
  if 48 ≤ x ∧ x ≤ 57 then some (x - 48)
  else if 65 ≤ x ∧ x ≤ 70 then some (x - 55)
  else if 97 ≤ x ∧ x ≤ 102 then some (x - 87)
  else none

/-- A form in which octets are coded: each is a percent sign with two digits, or is unreserved and
stands for itself. -/
inductive Codes : Bytes → Bytes → Prop
  | nil : Codes [] []
  | plain {x b c} (hx : isUnreserved x = true) (h : Codes b c) : Codes (x :: b) (x :: c)
  | coded {x high low b c} (hhigh : digitValue? high = some (x / 16))
      (hlow : digitValue? low = some (x % 16)) (h : Codes b c) :
      Codes (x :: b) (37 :: high :: low :: c)

/-- The octet of a percent sign with two digits. -/
def sequence? (x high low : UInt8) : Option UInt8 :=
  if x = 37 then do
    let u ← digitValue? high
    let v ← digitValue? low
    return u * 16 + v
  else none

/-- What is left when every percent sign with two digits is taken for the octet that it stands
for. -/
def decoded : Bytes → Bytes
  | [] => []
  | [x] => [x]
  | [x, y] => [x, y]
  | x :: high :: low :: rest =>
    match sequence? x high low with
    | some v => v :: decoded rest
    | none => x :: decoded (high :: low :: rest)

variable {b c : Bytes} {x : UInt8}

theorem bounds_of_isUnreserved (hx : isUnreserved x = true) : 37 < x.toNat ∧ x.toNat < 128 := by
  rw [isUnreserved, decide_eq_true_iff] at hx
  simp only [UInt8.le_iff_toNat_le, ← UInt8.toNat_inj, UInt8.reduceToNat] at hx
  omega

theorem bounds_of_digitValue? {v : UInt8} (hx : digitValue? x = some v) :
    37 < x.toNat ∧ x.toNat < 128 := by
  rw [digitValue?] at hx
  simp only [UInt8.le_iff_toNat_le, UInt8.reduceToNat] at hx
  split at hx
  · omega
  · split at hx
    · omega
    · split at hx
      · omega
      · cases hx

theorem decoded_cons_of_ne (hx : x ≠ 37) (b : Bytes) : decoded (x :: b) = x :: decoded b := by
  match b with
  | [] => rfl
  | [_] => rfl
  | high :: low :: rest => rw [decoded, sequence?, if_neg hx]

theorem decoded_sequence {high low u v : UInt8} (hhigh : digitValue? high = some u)
    (hlow : digitValue? low = some v) (b : Bytes) :
    decoded (37 :: high :: low :: b) = (u * 16 + v) :: decoded b := by
  rw [decoded, sequence?, if_pos rfl, hhigh, hlow]
  rfl

theorem div_mul_add_mod (x : UInt8) : x / 16 * 16 + x % 16 = x := by
  rw [← UInt8.toNat_inj]
  have hx := UInt8.toNat_lt x
  simp
  omega

namespace Codes

theorem decoded_eq (h : Codes b c) : decoded c = b := by
  induction h with
  | nil => rfl
  | plain hx _ ih =>
    rw [decoded_cons_of_ne, ih]
    rintro rfl
    cases hx
  | coded hhigh hlow _ ih => rw [decoded_sequence hhigh hlow, div_mul_add_mod, ih]

theorem bounds (h : Codes b c) : ∀ x ∈ c, 0 < x.toNat ∧ x.toNat < 128 := by
  induction h with
  | nil => simp
  | plain hx _ ih =>
    rw [List.forall_mem_cons]
    exact ⟨(bounds_of_isUnreserved hx).imp_left (Nat.lt_trans (by decide)), ih⟩
  | coded hhigh hlow _ ih =>
    simp only [List.forall_mem_cons]
    exact ⟨by decide, (bounds_of_digitValue? hhigh).imp_left (Nat.lt_trans (by decide)),
      (bounds_of_digitValue? hlow).imp_left (Nat.lt_trans (by decide)), ih⟩

theorem length_le (h : Codes b c) : b.length ≤ c.length := by
  induction h with
  | nil => exact Nat.le_refl 0
  | plain _ _ ih => exact Nat.succ_le_succ ih
  | coded _ _ _ ih =>
    simp only [List.length_cons]
    omega

theorem eq_nil_iff (h : Codes b c) : c = [] ↔ b = [] := by
  cases h with
  | nil => exact Iff.rfl
  | plain => simp
  | coded => simp

end Codes

end Bytes

/-- Octets below 128 are those of a text. -/
theorem Text.exists_utf8_eq {c : Bytes} (hc : ∀ x ∈ c, x.toNat < 128) : ∃ y, utf8 y = c := by
  induction c with
  | nil => exact ⟨"", rfl⟩
  | cons x c ih =>
    rw [List.forall_mem_cons] at hc
    obtain ⟨y, rfl⟩ := ih hc.2
    have hval : (Char.ofNat x.toNat).val.toNat = x.toNat := by
      rw [Char.ofNat, dif_pos (.inl (Nat.lt_trans hc.1 (by decide)))]
      exact UInt32.toNat_ofNatLT
    have hx : String.utf8EncodeChar (Char.ofNat x.toNat) = [x] := by
      simp only [String.utf8EncodeChar, hval]
      rw [if_pos (Nat.le_of_lt_succ hc.1), UInt8.ofNat_toNat]
    refine ⟨String.ofList (Char.ofNat x.toNat :: y.toList), ?_⟩
    rw [utf8, String.toList_ofList, List.flatMap_cons, hx]
    rfl

theorem Bytes.Codes.utf8_ofCString {b c : Bytes} (h : Codes b c) :
    Text.utf8 (Text.ofCString c) = c := by
  obtain ⟨y, rfl⟩ := Text.exists_utf8_eq fun x hx ↦ (h.bounds x hx).2
  have hnul : 0 ∉ Text.utf8 y := fun hmem ↦ Nat.lt_irrefl 0 (h.bounds 0 hmem).1
  rw [Text.ofCString_utf8 hnul]

/-- The upper-case hexadecimal digit of a number below sixteen. -/
def Bytes.digit (v : UInt8) : UInt8 := if v < 10 then v + 48 else v + 55

/-- The coded form in which nothing is coded that need not be. -/
def Bytes.encoded (b : Bytes) : Bytes :=
  b.flatMap fun x ↦ if isUnreserved x then [x] else [37, digit (x / 16), digit (x % 16)]

theorem Bytes.digitValue?_digit {v : UInt8} (hv : v.toNat < 16) :
    digitValue? (digit v) = some v := by
  have hall : ∀ n < 16, digitValue? (digit (.ofNat n)) = some (.ofNat n) := by decide
  simpa only [UInt8.ofNat_toNat] using hall v.toNat hv

theorem Bytes.codes_encoded (b : Bytes) : Codes b b.encoded := by
  induction b with
  | nil => exact .nil
  | cons x b ih =>
    rw [encoded, List.flatMap_cons]
    split
    · next hx => exact .plain hx ih
    · refine .coded (digitValue?_digit ?_) (digitValue?_digit ?_) ih
      · rw [UInt8.toNat_div]
        exact Nat.div_lt_of_lt_mul (UInt8.toNat_lt x)
      · rw [UInt8.toNat_mod]
        exact Nat.mod_lt _ (by decide)

/-! ## One question to the engine -/

/-- An engine that codes octets by percent signs, and undoes that. Of nothing it says nothing: it
would look for an end of its own there. -/
structure Policy.PercentCodes (p : Policy) : Prop where
  escape : ∀ e b, b ≠ [] → ∃ c, p.escape e b = some c ∧ Bytes.Codes b c
  unescape : ∀ e b, b ≠ [] →
    p.unescape e b = some (Bytes.decoded b, Int32.ofNat (Bytes.decoded b).length)

/-- An engine that does so and nothing else. -/
def Policy.percent : Policy where
  escape _ b := some (Bytes.encoded b)
  unescape _ b := some (Bytes.decoded b, Int32.ofNat (Bytes.decoded b).length)

theorem Policy.percentCodes_percent : percent.PercentCodes :=
  ⟨fun _ b _ ↦ ⟨Bytes.encoded b, rfl, Bytes.codes_encoded b⟩, fun _ _ _ ↦ rfl⟩

/-- The engine was asked once, and has handed out one string for it. -/
structure State.HandedOut (s : State) (r : Route) (c : NativeCall) (t : State) : Prop where
  wrappers : t.wrappers = s.wrappers
  policy : t.policy = s.policy
  trace : t.trace = s.trace ++ [.native r c]
  replied : t.engine.replied = s.engine.replied + 1
  replies : t.engine.replies = s.engine.replied :: s.engine.replies

/-- The engine was asked once, and the one string that it handed out for it was given back. -/
structure State.Answered (s : State) (r : Route) (c : NativeCall) (t : State) : Prop where
  wrappers : t.wrappers = s.wrappers
  policy : t.policy = s.policy
  trace : t.trace = s.trace ++ [.native r c, .native r (.free true)]
  replied : t.engine.replied = s.engine.replied + 1
  replies : t.engine.replies = s.engine.replies.filter (· ≠ s.engine.replied)

section

variable {s t : State} {id : WrapperId} {h : Nat} {api : Api} {b : Bytes}

theorem leads_escape_call (hp : s.policy.PercentCodes) (ho : api.Offers s.policy .escape)
    (hb : b ≠ []) : Leads (api.escape h b) s
      (fun given t ↦ ∃ c, (∃ e, s.policy.escape e b = some c) ∧ Bytes.Codes b c ∧
        given = some (.reply s.engine.replied, c) ∧ s.HandedOut api.route (.escape h b) t)
      fun _ _ ↦ False := by
  rw [api.escape_eq]
  refine ho.leads_call ?_
  rintro _ rfl
  obtain ⟨c, hc, hcodes⟩ := hp.escape (Api.counted s).engine b hb
  have hanswer : (Api.counted s).policy.escape (Api.counted s).engine b = some c := hc
  rw [Engine.answerEscape, hanswer]
  exact ⟨c, ⟨_, hc⟩, hcodes, rfl, rfl, rfl, rfl, rfl, rfl⟩

theorem leads_unescape_call (hp : s.policy.PercentCodes) (ho : api.Offers s.policy .unescape)
    (hb : b ≠ []) : Leads (api.unescape h b) s
      (fun given t ↦
        given = some (.reply s.engine.replied, Bytes.decoded b,
          Int32.ofNat (Bytes.decoded b).length) ∧
          s.HandedOut api.route (.unescape h b) t)
      fun _ _ ↦ False := by
  rw [api.unescape_eq]
  refine ho.leads_call ?_
  rintro _ rfl
  have hanswer : (Api.counted s).policy.unescape (Api.counted s).engine b =
      some (Bytes.decoded b, Int32.ofNat (Bytes.decoded b).length) := hp.unescape _ b hb
  rw [Engine.answerUnescape, hanswer]
  exact ⟨rfl, rfl, rfl, rfl, rfl, rfl⟩

/-- A string that was handed out last is out, and is so no longer once it is given back. -/
theorem leads_free_handedOut {c : NativeCall} (ht : s.HandedOut api.route c t)
    (ho : api.Offers t.policy .free) :
    Leads (api.free (.reply s.engine.replied)) t (fun _ u ↦ s.Answered api.route c u)
      fun _ _ ↦ False := by
  rw [api.free_eq]
  refine ho.leads_call ?_
  rintro _ rfl
  have hreplies : (Api.counted t).engine.replies = s.engine.replied :: s.engine.replies :=
    ht.replies
  have hout : (Api.counted t).engine.replies.contains s.engine.replied = true := by
    rw [hreplies, List.contains_cons, beq_self_eq_true, Bool.true_or]
  refine ⟨ht.wrappers, ht.policy, ?_, ht.replied, ?_⟩
  · have htrace : (Api.counted t).trace = s.trace ++ [.native api.route c] := ht.trace
    simp only [Api.answered, Engine.answerFree, hout, htrace, List.append_assoc]
    rfl
  · simp only [Api.answered, Engine.answerFree, hreplies]
    rw [List.filter_cons_of_neg (by simp)]

theorem leads_checkLength {x : String} (hx : (Text.utf8 x).length ≤ longestInput)
    {ok : Unit → State → Prop} {err : Error → State → Prop} :
    Leads (checkLength x) s ok err ↔ ok () s := by
  rw [checkLength]
  simp only [if_pos hx]
  rfl

theorem utf8_ne_nil {x : String} (hx : x ≠ "") : Text.utf8 x ≠ [] := by
  intro hnil
  refine hx ?_
  rw [← Text.forgiving_utf8 x, hnil]
  rfl

theorem leads_escape (hp : s.policy.PercentCodes) (hh : (s.wrapper id).handle = some h)
    (ho : (s.wrapper id).api.Offers s.policy .escape)
    (hfree : (s.wrapper id).api.Offers s.policy .free) {x : String} (hx : x ≠ "")
    (hlength : ∀ e c, s.policy.escape e (Text.utf8 x) = some c → c.length ≤ longestInput) :
    Leads (escape id x) s
      (fun y t ↦ Bytes.Codes (Text.utf8 x) (Text.utf8 y) ∧ (Text.utf8 y).length ≤ longestInput ∧
        s.Answered (s.wrapper id).api.route (.escape h (Text.utf8 x)) t)
      fun _ _ ↦ False := by
  have hne := utf8_ne_nil hx
  have hlen : (Text.utf8 x).length ≤ longestInput := by
    obtain ⟨c, hc, hcodes⟩ := hp.escape s.engine _ hne
    exact hcodes.length_le.trans (hlength _ c hc)
  rw [escape, leads_bind, leads_liveHandle hh]
  simp only [if_neg hx]
  rw [leads_bind, leads_checkLength hlen, leads_bind, leads_getApi, leads_bind]
  refine (leads_escape_call hp ho hne).mono ?_ fun _ _ hf ↦ hf
  rintro _ t ⟨c, ⟨e, hc⟩, hcodes, rfl, ht⟩
  dsimp only
  rw [leads_bind]
  refine (leads_free_handedOut ht (ht.policy ▸ hfree)).mono (fun _ u hu ↦ ?_) fun _ _ hf ↦ hf
  refine ⟨?_, ?_, hu⟩
  · rw [hcodes.utf8_ofCString]
    exact hcodes
  · rw [hcodes.utf8_ofCString]
    exact hlength e c hc

/-- A coded form is decoded to what it codes. -/
theorem leads_unescape (hp : s.policy.PercentCodes) (hh : (s.wrapper id).handle = some h)
    (ho : (s.wrapper id).api.Offers s.policy .unescape)
    (hfree : (s.wrapper id).api.Offers s.policy .free) {y : String}
    (hcodes : Bytes.Codes b (Text.utf8 y)) (hb : b ≠ [])
    (hlength : (Text.utf8 y).length ≤ longestInput) :
    Leads (unescape id y) s
      (fun given t ↦ given = b ∧
        s.Answered (s.wrapper id).api.route (.unescape h (Text.utf8 y)) t)
      fun _ _ ↦ False := by
  have hne : Text.utf8 y ≠ [] := mt hcodes.eq_nil_iff.1 hb
  have hy : y ≠ "" := by
    rintro rfl
    exact hne rfl
  rw [unescape, leads_bind, leads_liveHandle hh]
  simp only [if_neg hy]
  rw [leads_bind, leads_checkLength hlength, leads_bind, leads_getApi, leads_bind]
  refine (leads_unescape_call hp ho hne).mono ?_ fun _ _ hf ↦ hf
  rintro _ t ⟨rfl, ht⟩
  dsimp only
  rw [leads_bind]
  refine (leads_free_handedOut ht (ht.policy ▸ hfree)).mono (fun _ u hu ↦ ⟨?_, hu⟩) fun _ _ hf ↦ hf
  have hlt : b.length < 2 ^ 31 := Nat.lt_succ_of_le (hcodes.length_le.trans hlength)
  rw [hcodes.decoded_eq, Int32.toInt_ofNat_of_lt hlt, Int.toNat_natCast, List.take_length]

end

/-! ## There and back -/

/-- Whatever characters a text is made of: with an engine that codes octets by percent signs it is
escaped and unescaped to its own octets, as long as the escaped form is not too long for the engine
to be told of. The engine is asked once for each and gets each of its two strings back, and for the
empty text it is not asked at all. -/
theorem unescape_escape {s : State} {id : WrapperId} {h : Nat} (hp : s.policy.PercentCodes)
    (hh : (s.wrapper id).handle = some h)
    (ho : ∀ m ∈ [Method.escape, .unescape, .free], (s.wrapper id).api.Offers s.policy m)
    (x : String)
    (hlength : ∀ e c, s.policy.escape e (Text.utf8 x) = some c → c.length < 2 ^ 31) :
    ∃ y t u, (escape id x).run.run s = (.ok y, t) ∧
      (unescape id y).run.run t = (.ok (Text.utf8 x), u) ∧
        if x = "" then t = s ∧ u = s
        else s.Answered (s.wrapper id).api.route (.escape h (Text.utf8 x)) t ∧
          t.Answered (s.wrapper id).api.route (.unescape h (Text.utf8 y)) u := by
  by_cases hx : x = ""
  · subst hx
    have hescape : Leads (escape id "") s (fun y t ↦ y = "" ∧ t = s) fun _ _ ↦ False := by
      rw [escape, leads_bind, leads_liveHandle hh]
      exact ⟨rfl, rfl⟩
    have hunescape : Leads (unescape id "") s (fun b t ↦ b = [] ∧ t = s) fun _ _ ↦ False := by
      rw [unescape, leads_bind, leads_liveHandle hh]
      exact ⟨rfl, rfl⟩
    obtain ⟨_, _, hrun, rfl, rfl⟩ := hescape.exists_ok
    obtain ⟨_, _, hrun', rfl, rfl⟩ := hunescape.exists_ok
    exact ⟨"", _, _, hrun, hrun', rfl, rfl⟩
  · simp only [if_neg hx]
    obtain ⟨y, t, hrun, hcodes, hlen, ht⟩ := (leads_escape hp hh (ho .escape (by simp))
      (ho .free (by simp)) hx fun e c hc ↦ Nat.le_of_lt_succ (hlength e c hc)).exists_ok
    have hw : t.wrapper id = s.wrapper id := wrapper_congr ht.wrappers id
    have hh' : (t.wrapper id).handle = some h := hw ▸ hh
    have hback := leads_unescape (s := t) (ht.policy ▸ hp) hh'
      (by rw [hw, ht.policy]; exact ho .unescape (by simp))
      (by rw [hw, ht.policy]; exact ho .free (by simp)) hcodes (utf8_ne_nil hx) hlen
    rw [hw] at hback
    obtain ⟨b, u, hrun', rfl, hu⟩ := hback.exists_ok
    exact ⟨y, t, u, hrun, hrun', ht, hu⟩

/-- A text with a percent sign, a letter beyond ASCII and a NUL. -/
theorem unescape_escape_nul :
    let s := (State.start .percent .bare .bare).after [.create .inProcess]
    (s.wrapper 0).handle = some 0 ∧
      ∃ y t u, (escape 0 "a%ü\x00").run.run s = (.ok y, t) ∧
        (unescape 0 y).run.run t = (.ok [0x61, 0x25, 0xC3, 0xBC, 0], u) ∧
          s.Answered (s.wrapper 0).api.route (.escape 0 [0x61, 0x25, 0xC3, 0xBC, 0]) t := by
  intro s
  have hh : (s.wrapper 0).handle = some 0 := by decide +kernel
  have hin : (s.wrapper 0).api.isInProcess = true := by decide +kernel
  have hpolicy : s.policy = .percent := rfl
  have hp : s.policy.PercentCodes := hpolicy ▸ Policy.percentCodes_percent
  have hoffers (m : Method) : (s.wrapper 0).api.Offers s.policy m := by
    rw [hpolicy]
    generalize (s.wrapper 0).api = api at hin ⊢
    cases api with
    | inProcess => exact ⟨rfl, fun _ _ ↦ rfl⟩
    | linked | dynamic => cases hin
  have hlength : ∀ e c, s.policy.escape e (Text.utf8 "a%ü\x00") = some c → c.length < 2 ^ 31 := by
    rw [hpolicy]
    rintro _ _ ⟨⟩
    decide
  obtain ⟨y, t, u, hrun, hrun', ht⟩ :=
    unescape_escape hp hh (fun m _ ↦ hoffers m) "a%ü\x00" hlength
  rw [if_neg (by decide)] at ht
  exact ⟨hh, y, t, u, hrun, hrun', ht.1⟩

end NativeTransfer
