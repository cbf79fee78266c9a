import NativeTransfer.Proofs.Asking
import NativeTransfer.Proofs.Wired

/-!
# Which values an option takes

What an option can be given is a table: eight options take part in the wiring of callbacks and have
entries of their own, and for all others the range of the number decides, save for the few options
whose integer is wide. `Takes` is that table, and `Row` says besides how a value crosses. The
dispatcher that sets an option goes by two searches, a match with guards and a separate path for
integers; that it comes to the same is what is proved here. A value that is not in the table is
refused before anything is done, and so is a text that a NUL would cut short.

## How the two searches are compared

The dispatcher is not unfolded as a whole. An option wires a callback by its function, or by its
context, or not at all, and for each of the three there is one lemma that follows the match on the
value. The path for integers is a case of its own, since an integer may reach it from several kinds
of value. What comes out is `Dispatched`, with one constructor for each way in which a setting can
end, and every statement about the table is read off it.

The first call that the engine hears tells the row. So it is enough to know of a program that it
begins with a given call (`Enters`), and nothing has to be known of what it asks for afterwards.
-/

namespace NativeTransfer

open State

/-! ## The table -/

namespace OptionCode

def TakesLong (o : OptionCode) : Prop := o.value < 10000

def TakesObject (o : OptionCode) : Prop := 10000 ≤ o.value ∧ o.value < 20000

def TakesFunction (o : OptionCode) : Prop := 20000 ≤ o.value ∧ o.value < 30000

def TakesBlob (o : OptionCode) : Prop := 40000 ≤ o.value

def TakesWide (o : OptionCode) : Prop :=
  o.value ∈ ([30115, 30116, 30117, 30120, 30145, 30146, 30270] : List UInt32)

variable {o : OptionCode}

theorem encoding_eq_long_iff : o.encoding = .long ↔ o.TakesLong := by
  rw [encoding, TakesLong]
  split_ifs <;> grind

theorem encoding_eq_object_iff : o.encoding = .object ↔ o.TakesObject := by
  rw [encoding, TakesObject]
  split_ifs <;> grind

theorem encoding_eq_function_iff : o.encoding = .function ↔ o.TakesFunction := by
  rw [encoding, TakesFunction]
  split_ifs <;> grind

theorem encoding_eq_blob_iff : o.encoding = .blob ↔ o.TakesBlob := by
  rw [encoding, TakesBlob]
  split_ifs <;> grind

theorem isWide_iff : o.isWide = true ↔ o.TakesWide := List.contains_iff_mem

end OptionCode

/-- How a value crosses for an option that has no part in the wiring. -/
inductive Row : OptionCode → Value → Method → Argument → Prop
  | noPointer {o} (ho : o.TakesObject ∨ o.TakesBlob) : Row o .null .setPointer (.pointer .null)
  | noFunction {o} (ho : o.TakesFunction) : Row o .null .setFunction (.function .null)
  | pointer {o n} (ho : o.TakesObject ∨ o.TakesBlob) :
      Row o (.pointer n) .setPointer (.pointer (.number n))
  | function {o n} (ho : o.TakesFunction) :
      Row o (.pointer n) .setFunction (.function (.number n))
  | text {o x} (n : Nat) (ho : o.TakesObject) :
      Row o (.text x) .setPointer (.pointer (.copy n x))
  | bytes {o b} (ho : o.TakesObject) : Row o (.bytes b) .setPointer (.pointer b.address)
  /-- A list without items is a null pointer. -/
  | list {o items} {head : Option Nat} (ho : o.TakesObject) (hh : head = none ↔ items = []) :
      Row o (.list items) .setPointer (.pointer (Address.ofList? head))
  | bool {o b} (ho : o.TakesLong) : Row o (.bool b) .setLong (.integer (if b then 1 else 0))
  | long {o n} (ho : o.TakesLong) : Row o (.long n) .setLong (.integer n)
  | wide {o n} (ho : o.TakesWide) : Row o (.long n) .setOffset (.integer n)

/-- The values that an option takes. -/
inductive Takes : OptionCode → Value → Prop
  | noFunction (k : CallbackKind) : Takes k.functionOption .null
  | function (c : Callback) : Takes c.kind.functionOption (.function c)
  | noData (k : CallbackKind) : Takes k.dataOption .null
  | data (k : CallbackKind) (d : Datum) : Takes k.dataOption (.data d)
  | bodySink (s : Sink) : Takes .writeData (.sink s)
  | headerSink (s : Sink) : Takes .headerData (.sink s)
  | source (s : Source) : Takes .readData (.source s)
  | plain {o v m x} (ho : ∀ k : CallbackKind, k.functionOption ≠ o ∧ k.dataOption ≠ o)
      (hr : Row o v m x) : Takes o v

/-- What an option is said to expect when it is given something else. -/
def OptionCode.expectation (o : OptionCode) : Expectation :=
  match CallbackKind.ofFunctionOption? o, CallbackKind.ofDataOption? o with
  | some k, _ => .function k
  | none, some k => .stream k
  | none, none => .plain o.encoding

namespace Wrapper

variable {s : State} {r : Route} {id : WrapperId} {h : Nat} {o : OptionCode} {v : Value}
  {k : CallbackKind}

/-! ## Single arguments -/

/-- The engine is asked to set one option, if it can be reached, and nothing else. -/
def AsksOnce (r : Route) (id : WrapperId) (c : SetCall) (x : Attempt Unit) : Prop :=
  Asks r id c.handle x (fun _ cs ↦ cs = [c]) fun e cs ↦ e.isMismatch = false ∧ (cs = [] ∨ cs = [c])

theorem AsksOnce.heeds {c : SetCall} {x : Attempt Unit} (hx : AsksOnce r id c x) :
    Heeds r id c.handle x := Asks.heeds hx fun _ _ he ↦ he.1

theorem asks_setCall (api : Api) (hr : api.route = r) (m : Method) (x : Argument) :
    AsksOnce r id ⟨m, h, o, x⟩ (ResultCode.ofSigned <$>
      api.call m (fun p e ↦ e.answerSetopt p m h o x) >>= api.check) := by
  have hset : Asks r id h (api.call m fun p e ↦ e.answerSetopt p m h o x)
      (fun _ cs ↦ cs = [⟨m, h, o, x⟩]) fun e cs ↦ e.isMismatch = false ∧ cs = [] :=
    api.asks_call hr m (fun _ _ ↦ rfl) fun _ _ ↦ rfl
  rw [map_eq_pure_bind, bind_assoc]
  refine (hset.mono (fun _ _ hc ↦ hc) fun e cs he ↦ ⟨he.1, .inl he.2⟩).bind ?_
  rintro n _ rfl
  rw [pure_bind]
  refine (api.incidental_check (.ofSigned n)).asks.mono ?_ ?_
  · rintro _ _ ⟨-, rfl⟩
    rfl
  · rintro e _ ⟨he, rfl⟩
    exact ⟨he, .inr rfl⟩

theorem asks_set {m : Method} {x : Argument} {call : Api → Attempt ResultCode}
    (hcall : ∀ api, call api =
      ResultCode.ofSigned <$> api.call m fun p e ↦ e.answerSetopt p m h o x) :
    AsksOnce r id ⟨m, h, o, x⟩ (do let api ← getApi id; api.check (← call api)) := by
  refine Asks.bind (asks_getApi.mono (fun _ _ ha ↦ ha) fun _ _ he ↦ he.elim) ?_
  rintro api _ ⟨hr, rfl⟩
  rw [hcall]
  exact asks_setCall api hr m x

theorem asks_setPointer (o : OptionCode) (a : Address) :
    AsksOnce r id ⟨.setPointer, h, o, .pointer a⟩ (setPointer id h o a) :=
  asks_set fun api ↦ api.setPointer_eq h o a

theorem asks_setFunction (o : OptionCode) (a : Address) :
    AsksOnce r id ⟨.setFunction, h, o, .function a⟩ (setFunction id h o a) :=
  asks_set fun api ↦ api.setFunction_eq h o a

theorem asks_setInteger_wide (ho : o.TakesWide) (n : Int64) :
    AsksOnce r id ⟨.setOffset, h, o, .integer n⟩ (setInteger id h o n) := by
  have heq : setInteger id h o n = (do
      let api ← getApi id
      api.check (← api.setOffset h o n)) := by
    simp only [setInteger_eq, if_pos (OptionCode.isWide_iff.2 ho)]
  rw [heq]
  exact asks_set fun api ↦ api.setOffset_eq h o n

theorem asks_setInteger_long (ho : o.TakesLong) (n : Int64) :
    AsksOnce r id ⟨.setLong, h, o, .integer n⟩ (setInteger id h o n) := by
  have hlong := OptionCode.encoding_eq_long_iff.2 ho
  have hwide : ¬ o.isWide = true := by
    intro hw
    rw [OptionCode.encoding_of_isWide hw] at hlong
    cases hlong
  have heq : setInteger id h o n = (do
      let api ← getApi id
      api.check (← api.setLong h o n)) := by
    simp only [setInteger_eq, if_neg hwide, if_pos hlong]
  rw [heq]
  exact asks_set fun api ↦ api.setLong_eq h o n

theorem heeds_modifySlots (f : Slots → Slots) : Heeds r id h (liftM (modifySlots id f)) :=
  (minor_modifySlots f).incidental.heeds

theorem heeds_setPointer (o : OptionCode) (a : Address) : Heeds r id h (setPointer id h o a) :=
  (asks_setPointer o a).heeds

theorem heeds_setFunction (o : OptionCode) (a : Address) : Heeds r id h (setFunction id h o a) :=
  (asks_setFunction o a).heeds

theorem heeds_setInteger (ho : o.TakesLong ∨ o.TakesWide) (n : Int64) :
    Heeds r id h (setInteger id h o n) := by
  rcases ho with ho | ho
  · exact (asks_setInteger_long ho n).heeds
  · exact (asks_setInteger_wide ho n).heeds

/-! ## Options that wire a callback -/

theorem heeds_noProgress (n : Int64) : Heeds r id h (setInteger id h .noProgress n) :=
  heeds_setInteger (.inl (OptionCode.encoding_eq_long_iff.1 rfl)) n

theorem heeds_wire (k : CallbackKind) : Heeds r id h (wire id h k) := by
  refine (heeds_setPointer _ _).bind fun _ ↦ ?_
  by_cases hk : k = .progress
  · simp only [if_pos hk]
    exact (heeds_noProgress 0).bind fun _ ↦ heeds_setFunction _ _
  · simp only [if_neg hk]
    exact (heeds_pure ()).bind fun _ ↦ heeds_setFunction _ _

theorem heeds_unwire (k : CallbackKind) : Heeds r id h (unwire id h k) := by
  refine (heeds_setFunction _ _).bind fun _ ↦ (heeds_setPointer _ _).bind fun _ ↦ ?_
  split
  · exact heeds_noProgress 1
  · exact heeds_pure _

/-- What the function option of a kind takes. -/
theorem takes_functionOption_iff :
    Takes k.functionOption v ↔ v = .null ∨ ∃ c, v = .function c ∧ c.kind = k := by
  constructor
  · intro ht
    generalize ho : k.functionOption = o at ht
    cases ht with
    | noFunction => exact .inl rfl
    | function c => exact .inr ⟨c, rfl, (CallbackKind.functionOption_injective ho).symm⟩
    | noData | data => exact absurd ho (CallbackKind.functionOption_ne_dataOption _ _)
    | bodySink => exact absurd ho (CallbackKind.functionOption_ne_dataOption k .write)
    | headerSink => exact absurd ho (CallbackKind.functionOption_ne_dataOption k .header)
    | source => exact absurd ho (CallbackKind.functionOption_ne_dataOption k .read)
    | plain hne => exact absurd ho (hne k).1
  · rintro (rfl | ⟨c, rfl, rfl⟩)
    · exact .noFunction k
    · exact .function c

/-- What the data option of a kind takes. -/
theorem takes_dataOption_iff :
    Takes k.dataOption v ↔ v = .null ∨ (∃ d, v = .data d) ∨ ∃ d, v.stream? k = some d := by
  constructor
  · intro ht
    generalize ho : k.dataOption = o at ht
    cases ht with
    | noFunction | function => exact absurd ho.symm (CallbackKind.functionOption_ne_dataOption _ _)
    | noData => exact .inl rfl
    | data _ d => exact .inr (.inl ⟨d, rfl⟩)
    | bodySink s =>
      obtain rfl : k = .write := CallbackKind.dataOption_injective ho
      exact .inr (.inr ⟨_, rfl⟩)
    | headerSink s =>
      obtain rfl : k = .header := CallbackKind.dataOption_injective ho
      exact .inr (.inr ⟨_, rfl⟩)
    | source s =>
      obtain rfl : k = .read := CallbackKind.dataOption_injective ho
      exact .inr (.inr ⟨_, rfl⟩)
    | plain hne => exact absurd ho (hne k).2
  · rintro (rfl | ⟨d, rfl⟩ | ⟨d, hd⟩)
    · exact .noData k
    · exact .data k d
    · cases v with
      | sink s =>
        have hk : k = .write ∨ k = .header := by
          by_contra hk
          rw [Value.stream?, if_neg hk] at hd
          cases hd
        rcases hk with rfl | rfl
        · exact .bodySink s
        · exact .headerSink s
      | source s =>
        have hk : k = .read := by
          by_contra hk
          rw [Value.stream?, if_neg hk] at hd
          cases hd
        subst hk
        exact .source s
      | null | long | bool | text | bytes | list | function | data | pointer => cases hd

theorem heeds_setCallback (ht : Takes k.functionOption v) :
    Heeds r id h (setCallback id h k v) := by
  rcases takes_functionOption_iff.1 ht with rfl | ⟨c, rfl, hc⟩
  · exact (heeds_modifySlots _).bind fun _ ↦ heeds_unwire k
  · rw [setCallback, if_pos hc]
    exact (heeds_wire k).bind fun _ ↦ heeds_modifySlots _

theorem heeds_setStream (k : CallbackKind) (d : UserData) : Heeds r id h (setStream id h k d) := by
  refine minor_getSlots.incidental.heeds.bind fun x ↦ ?_
  refine (heeds_modifySlots _).bind fun _ ↦ ?_
  split
  · exact heeds_wire k
  · have hwire : Heeds r id h (orUndo (wire id h k) (modifySlots id fun x ↦ x.clear k)) :=
      (heeds_wire k).orUndo (minor_modifySlots _)
    cases Callback.forStream? k with
    | none => exact hwire
    | some c => exact (heeds_modifySlots _).bind fun _ ↦ hwire

theorem heeds_setCallbackData (ht : Takes k.dataOption v) :
    Heeds r id h (setCallbackData id h k v) := by
  rw [setCallbackData]
  refine minor_getSlots.incidental.heeds.bind fun x ↦ ?_
  rcases takes_dataOption_iff.1 ht with rfl | ⟨d, rfl⟩ | ⟨d, hd⟩
  · refine (heeds_modifySlots _).bind fun _ ↦ ?_
    split
    · exact heeds_setPointer _ _
    · exact heeds_pure _
  · refine (heeds_modifySlots _).bind fun _ ↦ ?_
    split
    · exact heeds_setPointer _ _
    · exact heeds_pure _
  · cases v with
    | sink s =>
      dsimp only
      split
      · exact heeds_setStream k _
      · next hk =>
        rw [Value.stream?, if_neg hk] at hd
        cases hd
    | source s =>
      dsimp only
      split
      · exact heeds_setStream k _
      · next hk =>
        rw [Value.stream?, if_neg hk] at hd
        cases hd
    | null | long | bool | text | bytes | list | function | data | pointer => cases hd

/-! ## Plain options -/

/-- The first thing that the engine is asked is to set the option by the row of the value. -/
def Opens (h : Nat) (o : OptionCode) (v : Value) (cs : List SetCall) : Prop :=
  ∃ m x rest, Row o v m x ∧ cs = ⟨m, h, o, x⟩ :: rest

/-- Whatever becomes of it, nothing is asked for but what begins with the row. -/
def Enters (r : Route) (id : WrapperId) (h : Nat) (o : OptionCode) (v : Value)
    (x : Attempt Unit) : Prop :=
  Asks r id h x (fun _ cs ↦ Opens h o v cs) fun e cs ↦
    e.isMismatch = false ∧ (cs = [] ∨ Opens h o v cs)

theorem enters_of_asks {x : Attempt Unit} {m : Method} {a : Argument} (hr : Row o v m a)
    (hx : AsksOnce r id ⟨m, h, o, a⟩ x) : Enters r id h o v x :=
  Asks.mono hx (fun _ _ hc ↦ ⟨m, a, [], hr, hc⟩)
    fun _ _ he ↦ ⟨he.1, he.2.imp_right fun hc ↦ ⟨m, a, [], hr, hc⟩⟩

theorem Enters.orUndo {x : Attempt Unit} {undo : Act Unit} (hx : Enters r id h o v x)
    (hu : Minor undo) : Enters r id h o v (orUndo x undo) := Asks.orUndo hx hu

theorem enters_bind {α : Type} {x : Attempt α} {P : α → Prop} {f : α → Attempt Unit}
    (hx : Incidental x P) (hf : ∀ a, P a → Enters r id h o v (f a)) :
    Enters r id h o v (x >>= f) :=
  hx.bind_asks hf fun _ he ↦ ⟨he, .inl rfl⟩

theorem Enters.bind {x : Attempt Unit} {f : Unit → Attempt Unit} (hx : Enters r id h o v x)
    (hf : Heeds r id h (f ())) :
    Enters r id h o v (x >>= f) := by
  refine Asks.bind hx ?_
  rintro _ _ ⟨m, a, rest, hr, rfl⟩
  exact Asks.mono hf (fun _ cs _ ↦ ⟨m, a, rest ++ cs, hr, rfl⟩)
    fun _ cs he ↦ ⟨he, .inr ⟨m, a, rest ++ cs, hr, rfl⟩⟩

theorem enters_setText (ho : o.TakesObject) (x : String) :
    Enters r id h o (.text x) (setText id h o x) := by
  refine enters_bind minor_getLedger.incidental fun l _ ↦ ?_
  refine enters_bind (incidental_recordText x) ?_
  rintro _ ⟨n, rfl⟩
  exact (enters_of_asks (.text n ho) (asks_setPointer o _)).orUndo (minor_releaseSince _).discard

theorem sizeOption_takes (n : Nat) : (sizeOption n).TakesLong ∨ (sizeOption n).TakesWide := by
  rw [sizeOption]
  split
  · exact .inl (OptionCode.encoding_eq_long_iff.1 rfl)
  · exact .inr (OptionCode.isWide_iff.1 rfl)

theorem enters_setBytes (ho : o.TakesObject) (b : Buffer) :
    Enters r id h o (.bytes b) (setBytes id h o b) := by
  have hbody : Enters r id h o (.bytes b) (do
      setPointer id h o b.address
      if o = .postFields then
        setInteger id h (sizeOption b.bytes.length) (Int64.ofNat b.bytes.length)) := by
    refine (enters_of_asks (.bytes ho) (asks_setPointer o _)).bind ?_
    split
    · exact heeds_setInteger (sizeOption_takes _) _
    · exact heeds_pure _
  intro s hs
  refine leads_lend ?_
  have hrecorded : Minds (fun v ↦ v.isAside = true) s
      (s.recordAll id (lent (s.wrapper id).ledger b)) :=
    Minds.modifyWrapper s id (fun _ ↦ rfl) fun _ ↦ rfl
  exact Asks.leads_of_minds (hbody.orUndo (minor_releaseSince _).discard) hs hrecorded

theorem enters_setList (ho : o.TakesObject) (items : List String) :
    Enters r id h o (.list items) (setList id h o items) := by
  refine enters_bind minor_getLedger.incidental fun l _ ↦ ?_
  refine enters_bind (incidental_buildList o l.position items none) fun head hh ↦ ?_
  have hhead : head = none ↔ items = [] := by simpa using hh
  have hundo : Minor (do
      discard (releaseSince id l.position)
      freeNativeList (← getApi id) head) :=
    (minor_releaseSince _).discard.bind fun _ ↦ minor_getApi.bind fun api ↦
      minor_freeNativeList api head
  refine ((enters_of_asks (.list ho hhead) (asks_setPointer o _)).orUndo hundo).bind ?_
  split
  · have hrecord : Incidental (do
        record id (.list (← newSerial) head) : Attempt Unit) fun _ ↦ True :=
      minor_newSerial.incidental.bind fun _ _ ↦ (minor_record _).incidental
    exact hrecord.heeds
  · exact heeds_pure _

/-- A value with a row is entered by it. -/
theorem enters_setPlain {m : Method} {x : Argument} (hr : Row o v m x) :
    Enters r id h o v (setPlain id h o v) := by
  rw [setPlain.eq_def]
  cases hr with
  | noPointer ho =>
    have henters : Enters r id h o .null (setPointer id h o .null) :=
      enters_of_asks (.noPointer ho) (asks_setPointer o _)
    rcases ho with ho | ho
    · rw [OptionCode.encoding_eq_object_iff.2 ho]
      exact henters
    · rw [OptionCode.encoding_eq_blob_iff.2 ho]
      exact henters
  | @pointer n ho =>
    have henters : Enters r id h o (.pointer n) (setPointer id h o (.number n)) :=
      enters_of_asks (.pointer ho) (asks_setPointer o _)
    rcases ho with ho | ho
    · rw [OptionCode.encoding_eq_object_iff.2 ho]
      exact henters
    · rw [OptionCode.encoding_eq_blob_iff.2 ho]
      exact henters
  | noFunction ho =>
    rw [OptionCode.encoding_eq_function_iff.2 ho]
    exact enters_of_asks (.noFunction ho) (asks_setFunction o _)
  | function ho =>
    rw [OptionCode.encoding_eq_function_iff.2 ho]
    exact enters_of_asks (.function ho) (asks_setFunction o _)
  | text n ho =>
    rw [OptionCode.encoding_eq_object_iff.2 ho]
    exact enters_setText ho _
  | bytes ho =>
    rw [OptionCode.encoding_eq_object_iff.2 ho]
    exact enters_setBytes ho _
  | list ho hh =>
    rw [OptionCode.encoding_eq_object_iff.2 ho]
    exact enters_setList ho _
  | bool ho =>
    rw [OptionCode.encoding_eq_long_iff.2 ho]
    exact enters_of_asks (.bool ho) (asks_setInteger_long ho _)
  | long ho => exact enters_of_asks (.long ho) (asks_setInteger_long ho _)
  | wide ho => exact enters_of_asks (.wide ho) (asks_setInteger_wide ho _)

/-! ## What is not in the table -/

theorem takes_plain_iff (ho : ∀ k : CallbackKind, k.functionOption ≠ o ∧ k.dataOption ≠ o) :
    Takes o v ↔ ∃ m x, Row o v m x := by
  constructor
  · intro ht
    cases ht with
    | noFunction k => exact absurd rfl (ho k).1
    | noData k | data k => exact absurd rfl (ho k).2
    | function c => exact absurd rfl (ho c.kind).1
    | bodySink => exact absurd rfl (ho .write).2
    | headerSink => exact absurd rfl (ho .header).2
    | source => exact absurd rfl (ho .read).2
    | plain _ hr => exact ⟨_, _, hr⟩
  · rintro ⟨m, x, hr⟩
    exact .plain ho hr

/-- What is refused for its type, before anything is done. -/
def Rejects (x : Attempt Unit) (s : State) (o : OptionCode) (v : Value) : Prop :=
  Leads x s (fun _ _ ↦ False) fun e t ↦ e = .typeMismatch o o.expectation v.kind ∧ t = s

theorem rejects_of_carriesOut {x : Attempt Unit} {e : Error}
    (hx : CarriesOut id h x s e none) (he : e = .typeMismatch o o.expectation v.kind) :
    Rejects x s o v := Leads.mono hx (fun _ _ ht ↦ ht) fun _ _ ht ↦ ⟨ht.1.trans he, ht.2⟩

theorem rejects_setCallback (ht : ¬ Takes k.functionOption v) :
    Rejects (setCallback id h k v) s k.functionOption v := by
  have hplan : functionPlan? h k v = none := by
    rw [takes_functionOption_iff, not_or] at ht
    cases v with
    | null => exact absurd rfl ht.1
    | function c => exact if_neg fun hc ↦ ht.2 ⟨c, rfl, hc⟩
    | long | bool | text | bytes | list | sink | source | data | pointer => rfl
  have hcarries : CarriesOut id h (setCallback id h k v) s _ (functionPlan? h k v) :=
    carriesOut_setCallback k v
  rw [hplan] at hcarries
  refine rejects_of_carriesOut hcarries ?_
  rw [OptionCode.expectation, CallbackKind.ofFunctionOption?_functionOption]

theorem rejects_setCallbackData (ht : ¬ Takes k.dataOption v) :
    Rejects (setCallbackData id h k v) s k.dataOption v := by
  have hplan : dataPlan? h k ((s.wrapper id).slots.isInstalled k) v = none := by
    rw [takes_dataOption_iff, not_or, not_or] at ht
    obtain ⟨hnull, hdata, hstream⟩ := ht
    have hnone : v.stream? k = none := Option.eq_none_iff_forall_ne_some.2 fun d hd ↦
      hstream ⟨d, hd⟩
    cases v with
    | null => exact absurd rfl hnull
    | data d => exact absurd ⟨d, rfl⟩ hdata
    | sink | source => exact congrArg (Option.map _) hnone
    | long | bool | text | bytes | list | function | pointer => rfl
  have hcarries : CarriesOut id h (setCallbackData id h k v) s _
      (dataPlan? h k ((s.wrapper id).slots.isInstalled k) v) := carriesOut_setCallbackData k v
  rw [hplan] at hcarries
  refine rejects_of_carriesOut hcarries ?_
  rw [OptionCode.expectation, CallbackKind.ofFunctionOption?_dataOption,
    CallbackKind.ofDataOption?_dataOption]

theorem rejects_setPlain (ho : ∀ k : CallbackKind, k.functionOption ≠ o ∧ k.dataOption ≠ o)
    (ht : ¬ Takes o v) : Rejects (setPlain id h o v) s o v := by
  have hrow {m : Method} {x : Argument} (hr : Row o v m x) : False := ht (.plain ho hr)
  have hmismatch : .typeMismatch o o.expectation v.kind = mismatch o v.kind := by
    obtain ⟨hf, hd⟩ := CallbackKind.ofOption?_eq_none ho
    rw [OptionCode.expectation, hf, hd]
    rfl
  rw [Rejects, hmismatch, setPlain.eq_def]
  split
  · next he => exact (hrow (.noPointer (.inl (OptionCode.encoding_eq_object_iff.1 he)))).elim
  · next he => exact (hrow (.noPointer (.inr (OptionCode.encoding_eq_blob_iff.1 he)))).elim
  · next he => exact (hrow (.noFunction (OptionCode.encoding_eq_function_iff.1 he))).elim
  · next n =>
    -- An integer is refused on a path of its own.
    have hwide : ¬ o.isWide = true := fun hw ↦ hrow (.wide (OptionCode.isWide_iff.1 hw))
    have hlong : ¬ o.encoding = .long := fun he ↦
      hrow (.long (OptionCode.encoding_eq_long_iff.1 he))
    simp only [setInteger_eq, if_neg hwide, if_neg hlong]
    exact ⟨rfl, rfl⟩
  · next he => exact (hrow (.bool (OptionCode.encoding_eq_long_iff.1 he))).elim
  · next he => exact (hrow (.text 0 (OptionCode.encoding_eq_object_iff.1 he))).elim
  · next he => exact (hrow (.bytes (OptionCode.encoding_eq_object_iff.1 he))).elim
  · next items he =>
    have hhead : (if items = [] then none else some 0) = none ↔ items = [] := by
      split <;> simp_all
    exact (hrow (.list (OptionCode.encoding_eq_object_iff.1 he) hhead)).elim
  · next he => exact (hrow (.pointer (.inl (OptionCode.encoding_eq_object_iff.1 he)))).elim
  · next he => exact (hrow (.pointer (.inr (OptionCode.encoding_eq_blob_iff.1 he)))).elim
  · next he => exact (hrow (.function (OptionCode.encoding_eq_function_iff.1 he))).elim
  · exact ⟨rfl, rfl⟩

/-- A text that a NUL would cut short is refused before anything is done with it. -/
theorem leads_setText_nul {x : String} (hx : 0 ∈ Text.utf8 x) :
    Leads (setText id h o x) s (fun _ _ ↦ False) fun _ t ↦ t = s := by
  rw [setText, leads_bind, leads_getLedger, leads_bind]
  refine (leads_recordText x).mono ?_ fun _ _ ht ↦ ht
  rintro a t ⟨n, hnul, -⟩
  exact absurd hx hnul

/-! ## Any option -/

/-- What the dispatcher comes to. -/
inductive Dispatched (s : State) (r : Route) (h : Nat) (o : OptionCode) (v : Value) :
    Except Error Unit → State → Prop
  | rejected (ht : ¬ Takes o v) :
      Dispatched s r h o v (.error (.typeMismatch o o.expectation v.kind)) (announced o v s)
  | wired {q t} (ht : Takes o v) (ho : ∃ k : CallbackKind, o = k.functionOption ∨ o = k.dataOption)
      (hq : ∀ e, q = .error e → e.isMismatch = false) (hm : Minds (Event.About r h) s t) :
      Dispatched s r h o v q t
  | entered {q t} (ht : Takes o v) (hq : ∀ e, q = .error e → e.isMismatch = false)
      (hm : Minds (Event.About r h) s t)
      (hs : Opens h o v (s.asked t) ∨ q.isOk = false ∧ s.asked t = []) : Dispatched s r h o v q t

theorem minds_announced (s : State) (o : OptionCode) (v : Value) :
    Minds (fun v ↦ v.isAside = true) s (announced o v s) := Minds.of_event s s.engine rfl

theorem Dispatched.minds {q : Except Error Unit} {t : State} (hd : Dispatched s r h o v q t) :
    Minds (Event.About r h) s t := by
  cases hd with
  | rejected => exact (minds_announced s o v).mono fun _ ↦ .aside
  | wired _ _ _ hm => exact hm
  | entered _ _ hm => exact hm

theorem Dispatched.of_not_takes {q : Except Error Unit} {t : State}
    (hd : Dispatched s r h o v q t) (ht : ¬ Takes o v) :
    q = .error (.typeMismatch o o.expectation v.kind) ∧ t = announced o v s := by
  cases hd with
  | rejected => exact ⟨rfl, rfl⟩
  | wired hv => exact absurd hv ht
  | entered hv => exact absurd hv ht

theorem Dispatched.isMismatch {q : Except Error Unit} {t : State}
    (hd : Dispatched s r h o v q t) (ht : Takes o v) {e : Error} (he : q = .error e) :
    e.isMismatch = false := by
  cases hd with
  | rejected hv => exact absurd ht hv
  | wired _ _ hq => exact hq e he
  | entered _ hq => exact hq e he

theorem Dispatched.opens {q : Except Error Unit} {t : State} (hd : Dispatched s r h o v q t)
    (ho : ∀ k : CallbackKind, k.functionOption ≠ o ∧ k.dataOption ≠ o) :
    Opens h o v (s.asked t) ∨ q.isOk = false ∧ s.asked t = [] := by
  cases hd with
  | rejected => exact .inr ⟨rfl, (minds_announced s o v).asked_eq_nil⟩
  | wired _ hk =>
    obtain ⟨k, rfl | rfl⟩ := hk
    · exact absurd rfl (ho k).1
    · exact absurd rfl (ho k).2
  | entered _ _ _ hs => exact hs

/-- Whatever is set, and whatever becomes of it, the dispatcher goes by the table. -/
theorem leads_setopt_dispatched (hh : (s.wrapper id).handle = some h)
    (hr : (s.wrapper id).api.route = r) (o : OptionCode) (v : Value) :
    Leads (setopt id o v) s (fun _ t ↦ Dispatched s r h o v (.ok ()) t)
      fun e t ↦ Dispatched s r h o v (.error e) t := by
  have hannounced := minds_announced s o v
  have hrejected {x : Attempt Unit} (ht : ¬ Takes o v) (hx : Rejects x (announced o v s) o v) :
      Leads x (announced o v s) (fun _ t ↦ Dispatched s r h o v (.ok ()) t)
        fun e t ↦ Dispatched s r h o v (.error e) t := by
    refine Leads.mono hx (fun _ _ hu ↦ hu.elim) ?_
    rintro _ _ ⟨rfl, rfl⟩
    exact .rejected ht
  have hwired {x : Attempt Unit} (ht : Takes o v) (hx : Heeds r id h x)
      (ho : ∃ k : CallbackKind, o = k.functionOption ∨ o = k.dataOption) :
      Leads x (announced o v s) (fun _ t ↦ Dispatched s r h o v (.ok ()) t)
        fun e t ↦ Dispatched s r h o v (.error e) t := by
    refine (Asks.leads_of_minds hx hr hannounced).mono (fun _ _ hu ↦ ?_) fun e _ hu ↦ ?_
    · exact .wired ht ho nofun hu.1
    · refine .wired ht ho ?_ hu.1
      rintro _ ⟨⟩
      exact hu.2
  refine leads_setopt_of hh ?_ ?_ fun ho ↦ ?_
  · rintro k rfl
    by_cases ht : Takes k.functionOption v
    · exact hwired ht (heeds_setCallback ht) ⟨k, .inl rfl⟩
    · exact hrejected ht (rejects_setCallback ht)
  · rintro k rfl
    by_cases ht : Takes k.dataOption v
    · exact hwired ht (heeds_setCallbackData ht) ⟨k, .inr rfl⟩
    · exact hrejected ht (rejects_setCallbackData ht)
  · by_cases ht : Takes o v
    · obtain ⟨m, x, hrow⟩ := takes_plain_iff ho |>.1 ht
      refine (Asks.leads_of_minds (enters_setPlain hrow) hr hannounced).mono (fun _ _ hu ↦ ?_)
        fun e _ hu ↦ ?_
      · exact .entered ht nofun hu.1 (.inl hu.2)
      · refine .entered ht ?_ hu.1 (hu.2.2.symm.imp_right fun hnone ↦ ⟨rfl, hnone⟩)
        rintro _ ⟨⟩
        exact hu.2.1
    · exact hrejected ht (rejects_setPlain ho ht)

/-- A text that a NUL would cut short is refused, whatever the option. -/
theorem leads_setopt_nul (hh : (s.wrapper id).handle = some h) (o : OptionCode) {x : String}
    (hx : 0 ∈ Text.utf8 x) :
    Leads (setopt id o (.text x)) s (fun _ _ ↦ False) fun _ t ↦ t = announced o (.text x) s := by
  have hrejected {y : Attempt Unit} {u : State} (hy : Rejects y u o (.text x)) :
      Leads y u (fun _ _ ↦ False) fun _ t ↦ t = u :=
    Leads.mono hy (fun _ _ ht ↦ ht) fun _ _ ht ↦ ht.2
  refine leads_setopt_of hh ?_ ?_ fun ho ↦ ?_
  · rintro k rfl
    refine hrejected (rejects_setCallback fun ht ↦ ?_)
    rcases takes_functionOption_iff.1 ht with hv | ⟨c, hv, -⟩
    · cases hv
    · cases hv
  · rintro k rfl
    refine hrejected (rejects_setCallbackData fun ht ↦ ?_)
    rcases takes_dataOption_iff.1 ht with hv | ⟨d, hv⟩ | ⟨d, hv⟩
    · cases hv
    · cases hv
    · cases hv
  · by_cases ht : Takes o (.text x)
    · obtain ⟨m, a, hrow⟩ := (takes_plain_iff ho).1 ht
      cases hrow with
      | text n he =>
        have heq : setPlain id h o (.text x) = setText id h o x := by
          rw [setPlain.eq_def, OptionCode.encoding_eq_object_iff.2 he]
        rw [heq]
        exact leads_setText_nul hx
    · exact hrejected (rejects_setPlain ho ht)

end Wrapper

/-- What the engine was asked to set in a passage. -/
def Passage.asked (p : Passage) : List SetCall := p.before.asked p.after

section

variable {s : State} {id : WrapperId} {h : Nat} {o : OptionCode} {v : Value}

theorem Step.dispatched_of_pass (hh : (s.wrapper id).handle = some h) :
    Wrapper.Dispatched s (s.wrapper id).api.route h o v
      (((Step.setopt id o v).pass s).result.map fun _ ↦ ())
      ((Step.setopt id o v).pass s).after := by
  refine Step.pass_of_leads (P := fun r t ↦
    Wrapper.Dispatched s (s.wrapper id).api.route h o v (r.map fun _ ↦ ()) t) ?_
  rw [Step.run, leads_bind]
  exact (Wrapper.leads_setopt_dispatched hh rfl o v).mono (fun _ _ hd ↦ hd) fun _ _ hd ↦ hd

theorem Step.pass_of_nul (hh : (s.wrapper id).handle = some h) {x : String}
    (hx : 0 ∈ Text.utf8 x) :
    ((Step.setopt id o (.text x)).pass s).result.isOk = false ∧
      ((Step.setopt id o (.text x)).pass s).after = Wrapper.announced o (.text x) s := by
  refine Step.pass_of_leads (P := fun r t ↦
    r.isOk = false ∧ t = Wrapper.announced o (.text x) s) ?_
  rw [Step.run, leads_bind]
  exact (Wrapper.leads_setopt_nul hh o hx).mono (fun _ _ ht ↦ ht.elim) fun _ _ ht ↦ ⟨rfl, ht⟩

end

/-- Whatever an option is set to while there is a handle, and whatever the engine makes of it. The
table says whether the value fits. If it does not, or is a text that a NUL would cut short, nothing
is done but to announce the setting. For an option that has no part in the wiring, the first thing
that the engine is asked to set is the row of the value, and it is asked unless the setting
fails. -/
theorem setting_goes_by_table (s : State) (id : WrapperId) (h : Nat)
    (hh : (s.wrapper id).handle = some h) (o : OptionCode) (v : Value) :
    ((∃ o' x y, ((Step.setopt id o v).pass s).result = .error (.typeMismatch o' x y)) ↔
      ¬ Takes o v) ∧
    (¬ Takes o v → ((Step.setopt id o v).pass s).result =
      .error (.typeMismatch o o.expectation v.kind)) ∧
    ((¬ Takes o v ∨ ∃ x, v = .text x ∧ 0 ∈ Text.utf8 x) →
      ((Step.setopt id o v).pass s).result.isOk = false ∧
      ((Step.setopt id o v).pass s).after = { s with trace := s.trace ++ [.log ⟨.debug, "setopt",
        [("option", .text o.text), ("value", .text v.shown)]⟩] }) ∧
    ((∀ k : CallbackKind, k.functionOption ≠ o ∧ k.dataOption ≠ o) →
      (∀ c, ((Step.setopt id o v).pass s).asked.head? = some c →
        ∃ m x, Row o v m x ∧ c = ⟨m, h, o, x⟩) ∧
      (((Step.setopt id o v).pass s).asked = [] →
        ((Step.setopt id o v).pass s).result.isOk = false)) := by
  have hd := Step.dispatched_of_pass (o := o) (v := v) hh
  have hresult {e : Error} : (((Step.setopt id o v).pass s).result.map fun _ ↦ ()) = .error e ↔
      ((Step.setopt id o v).pass s).result = .error e := by
    cases ((Step.setopt id o v).pass s).result with
    | ok => exact iff_of_false nofun nofun
    | error => exact ⟨fun he ↦ by cases he; rfl, fun he ↦ by cases he; rfl⟩
  have hisOk : (((Step.setopt id o v).pass s).result.map fun _ ↦ ()).isOk =
      ((Step.setopt id o v).pass s).result.isOk := by
    cases ((Step.setopt id o v).pass s).result with
    | ok => rfl
    | error => rfl
  refine ⟨⟨?_, fun ht ↦ ?_⟩, fun ht ↦ hresult.1 (hd.of_not_takes ht).1, ?_, fun ho ↦ ?_⟩
  · rintro ⟨o', x, y, he⟩ ht
    cases hd.isMismatch ht (hresult.2 he)
  · exact ⟨o, _, _, hresult.1 (hd.of_not_takes ht).1⟩
  · rintro (ht | ⟨x, rfl, hx⟩)
    · obtain ⟨he, hs⟩ := hd.of_not_takes ht
      rw [hresult.1 he]
      exact ⟨rfl, hs⟩
    · exact Step.pass_of_nul hh hx
  · rcases hd.opens ho with ⟨m, x, rest, hrow, hs⟩ | ⟨hfailed, hs⟩
    · have hasked : ((Step.setopt id o v).pass s).asked = ⟨m, h, o, x⟩ :: rest := hs
      rw [hasked]
      refine ⟨?_, nofun⟩
      rintro c ⟨⟩
      exact ⟨m, x, hrow, rfl⟩
    · have hasked : ((Step.setopt id o v).pass s).asked = [] := hs
      rw [hasked]
      exact ⟨nofun, fun _ ↦ hisOk.symm.trans hfailed⟩

/-- A large number crosses by the row of a wide option, and a text with a NUL does not cross. -/
theorem wide_number_goes_by_table :
    let s := (State.start (Policy.guarded {}) .bare .bare).after [.create .inProcess]
    (∃ m x, Row ⟨30117⟩ (.long 5000000000) m x ∧
      ((Step.setopt 0 ⟨30117⟩ (.long 5000000000)).pass s).asked.head? =
        some ⟨m, 0, ⟨30117⟩, x⟩) ∧
      ((Step.setopt 0 .url (.text "a\x00b")).pass s).result.isOk = false := by
  intro s
  have hh : (s.wrapper 0).handle = some 0 := by decide +kernel
  obtain ⟨-, -, -, hrow⟩ := setting_goes_by_table s 0 0 hh ⟨30117⟩ (.long 5000000000)
  obtain ⟨-, -, hnul, -⟩ := setting_goes_by_table s 0 0 hh .url (.text "a\x00b")
  refine ⟨?_, (hnul (.inr ⟨_, rfl, by decide +kernel⟩)).1⟩
  have hasked : ((Step.setopt 0 ⟨30117⟩ (.long 5000000000)).pass s).asked.head? =
      some ⟨.setOffset, 0, ⟨30117⟩, .integer 5000000000⟩ := by decide +kernel
  have hplain (k : CallbackKind) : k.functionOption ≠ ⟨30117⟩ ∧ k.dataOption ≠ ⟨30117⟩ := by
    cases k <;> decide
  obtain ⟨m, x, hx, heq⟩ := (hrow hplain).1 _ hasked
  exact ⟨m, x, hx, hasked.trans (congrArg some heq)⟩

end NativeTransfer
