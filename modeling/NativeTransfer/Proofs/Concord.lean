import NativeTransfer.Proofs.Mirror
import NativeTransfer.Wrapper.Lifecycle
import NativeTransfer.Wrapper.Request

/-!
# Operations that come to the same

By ways to the engine that are as good as each other every operation comes to the same, whatever the
engine makes of it. Each of these lemmas follows its operation along its binds. What differs between
the two sides is the way to the engine alone, and that is never looked at but by making a call.

## Methods

The ways to the engine have their methods written out apart, and that methods of two ways have one
form is settled before (`Api.call` and the equation of each method). From there on it is enough that
the two ways let the same calls through and that the engine answers alike, which is what mirroring
states and complete modules see to. So the lemmas on methods come first, each a rewriting with the
equation of its method, and no operation above them opens one.

Impersonation is the one operation that is left out, since a linked library never has it.
-/

namespace NativeTransfer

open State

/-! ## Native calls -/

section

variable {api api' : Api} (ha : api.plain = api'.plain)

include ha

theorem agrees_strerror (c : ResultCode) : Agrees Eq (api.strerror c) (api'.strerror c) := by
  have hproc : api.isInProcess = api'.isInProcess := by
    rw [← api.isInProcess_plain, ha, api'.isInProcess_plain]
  rw [Api.strerror_eq, Api.strerror_eq, hproc]
  split
  · rw [← bind_pure_comp]
    refine Agrees.andThen ⟨fun s t hst ↦ ?_⟩ fun _ ↦ agrees_pure rfl
    have htold := (hst.withEngine hst.engine).events [.native .direct (.strerror c.toSigned)]
    exact ⟨congrArg (·.strerror c.toSigned) hst.policy, htold⟩
  · refine (concurs_call ha (by decide) _).run.andThen fun r ↦ ?_
    cases r with
    | ok => exact agrees_pure rfl
    | error => exact agrees_pure rfl

theorem concurs_check (c : ResultCode) : Concurs Eq (api.check c) (api'.check c) := by
  rw [Api.check, Api.check]
  split
  · exact (concurs_lift (agrees_strerror ha c)).andThen fun _ ↦ concurs_throw _
  · exact concurs_pure rfl

theorem Concurs.checked {x y : Attempt ResultCode} (h : Concurs Eq x y) :
    Concurs Eq (x >>= api.check) (y >>= api'.check) := h.andThen (concurs_check ha)

theorem concurs_setopt_call {m : Method} (hm : m ≠ .impersonate)
    (answer : Policy → Engine → Answered Int32) :
    Concurs Eq (ResultCode.ofSigned <$> api.call m answer >>= api.check)
      (ResultCode.ofSigned <$> api'.call m answer >>= api'.check) :=
  ((concurs_call ha hm answer).map _).checked ha

theorem concurs_version : Concurs Eq api.version api'.version := by
  have hbanner : api.banner? = api'.banner? := by
    rw [← api.banner?_plain, ha, api'.banner?_plain]
  rw [Api.version_eq, Api.version_eq]
  refine (concurs_call ha (by decide) _).andThen fun _ ↦ ?_
  rw [hbanner]
  exact concurs_pure rfl

end

/-! ## Wrappers -/

namespace Wrapper

variable (id : WrapperId)

theorem concurs_liveHandle : Concurs Eq (liveHandle id) (liveHandle id) := by
  refine concurs_get fun s t hst ↦ ?_
  rw [hst.handle]
  split
  · exact concurs_pure rfl
  · exact concurs_throw _

theorem agrees_getApi : Agrees (fun api api' ↦ api.plain = api'.plain) (getApi id) (getApi id) :=
  ⟨fun _ _ hst ↦ ⟨hst.api id, hst⟩⟩

theorem agrees_getLedger : Agrees Eq (getLedger id) (getLedger id) :=
  ⟨fun _ _ hst ↦ ⟨hst.ledger id, hst⟩⟩

theorem agrees_getSlots : Agrees Eq (getSlots id) (getSlots id) :=
  ⟨fun _ _ hst ↦ ⟨hst.slots id, hst⟩⟩

theorem agrees_modifySlots (f : Slots → Slots) :
    Agrees Eq (modifySlots id f) (modifySlots id f) := agrees_modifyWrapper id fun _ ↦ rfl

theorem agrees_modifyLedger (f : Ledger → Ledger) :
    Agrees Eq (modifyLedger id f) (modifyLedger id f) := agrees_modifyWrapper id fun _ ↦ rfl

theorem agrees_record (a : Allocation) : Agrees Eq (record id a) (record id a) := by
  refine (agrees_getLedger id).andThen fun l ↦ ?_
  dsimp only
  split
  · refine Agrees.andThen ⟨fun s t hst ↦ ⟨rfl, ?_⟩⟩ fun _ ↦ agrees_modifyLedger id _
    exact congrArg (fun s : State ↦ { s with repeats := s.repeats ++ [(id, a)] }) hst
  · exact agrees_modifyLedger id _

theorem agrees_recordEach (as : List Allocation) :
    Agrees Eq (recordEach id as) (recordEach id as) := by
  induction as with
  | nil => exact agrees_pure rfl
  | cons a as ih => exact (agrees_record id a).andThen fun _ ↦ ih

theorem agrees_newSerial : Agrees Eq newSerial newSerial := by
  refine ⟨fun s t hst ↦ ⟨hst.serials, ?_⟩⟩
  exact congrArg (fun s : State ↦ { s with serials := s.serials + 1 }) hst

theorem agrees_freeNativeList {api api' : Api} (ha : api.plain = api'.plain)
    (head : Option Nat) : Agrees Eq (freeNativeList api head) (freeNativeList api' head) := by
  cases head with
  | none => exact agrees_pure rfl
  | some n =>
    rw [freeNativeList, freeNativeList, Api.freeList_eq, Api.freeList_eq]
    refine (concurs_call ha (by decide) _).run.andThen fun r ↦ ?_
    cases r with
    | ok => exact agrees_pure rfl
    | error => exact agrees_report

theorem agrees_freeNativeLists {api api' : Api} (ha : api.plain = api'.plain)
    (as : List Allocation) : Agrees Eq (freeNativeLists api as) (freeNativeLists api' as) := by
  induction as with
  | nil => exact agrees_pure rfl
  | cons a as ih => exact (agrees_freeNativeList ha _).andThen fun _ ↦ ih

theorem agrees_releaseSince (mark : Nat) :
    Agrees Eq (releaseSince id mark) (releaseSince id mark) := by
  refine (agrees_getLedger id).andThen fun l ↦ ?_
  refine (agrees_modifyLedger id _).andThen fun _ ↦ agrees_get fun s t hst ↦ ?_
  rw [hst.holds]
  refine (agrees_getApi id).bind fun api api' ha ↦ ?_
  exact (agrees_freeNativeLists ha _).andThen fun _ ↦ agrees_pure rfl

theorem concurs_checkText (x : String) : Concurs Eq (checkText x) (checkText x) := by
  rw [checkText]
  split
  · exact concurs_throw _
  · exact concurs_pure rfl

theorem concurs_recordText (x : String) : Concurs Eq (recordText id x) (recordText id x) := by
  refine (concurs_checkText x).andThen fun _ ↦ ?_
  refine (concurs_lift agrees_newSerial).andThen fun n ↦ ?_
  exact (concurs_lift (agrees_record id _)).andThen fun _ ↦ concurs_pure rfl

/-! ## Options -/

variable (h : Nat)

theorem concurs_setPointer (o : OptionCode) (a : Address) :
    Concurs Eq (setPointer id h o a) (setPointer id h o a) := by
  refine (concurs_lift (agrees_getApi id)).bind fun _ _ ha ↦ ?_
  rw [Api.setPointer_eq, Api.setPointer_eq]
  exact concurs_setopt_call ha (by decide) _

theorem concurs_setFunction (o : OptionCode) (a : Address) :
    Concurs Eq (setFunction id h o a) (setFunction id h o a) := by
  refine (concurs_lift (agrees_getApi id)).bind fun _ _ ha ↦ ?_
  rw [Api.setFunction_eq, Api.setFunction_eq]
  exact concurs_setopt_call ha (by decide) _

theorem concurs_setInteger (o : OptionCode) (n : Int64) :
    Concurs Eq (setInteger id h o n) (setInteger id h o n) := by
  rw [setInteger_eq]
  refine (concurs_lift (agrees_getApi id)).bind fun _ _ ha ↦ ?_
  split
  · rw [Api.setOffset_eq, Api.setOffset_eq]
    exact concurs_setopt_call ha (by decide) _
  · split
    · rw [Api.setLong_eq, Api.setLong_eq]
      exact concurs_setopt_call ha (by decide) _
    · exact concurs_throw _

theorem concurs_orRelease {α : Type} {x y : Attempt α} (mark : Nat) (hx : Concurs Eq x y) :
    Concurs Eq (orRelease id mark x) (orRelease id mark y) :=
  hx.orUndo (agrees_releaseSince id mark).discard

theorem concurs_setText (o : OptionCode) (x : String) :
    Concurs Eq (setText id h o x) (setText id h o x) := by
  refine (concurs_lift (agrees_getLedger id)).andThen fun l ↦ ?_
  refine (concurs_recordText id x).andThen fun a ↦ ?_
  exact concurs_orRelease id _ (concurs_setPointer id h o a)

theorem concurs_setBytes (o : OptionCode) (b : Buffer) :
    Concurs Eq (setBytes id h o b) (setBytes id h o b) := by
  refine (concurs_lift (agrees_getLedger id)).andThen fun l ↦ ?_
  have hbody (a : Address) : Concurs Eq
      (orRelease id l.position do
        setPointer id h o a
        if o = .postFields then
          setInteger id h (sizeOption b.bytes.length) (Int64.ofNat b.bytes.length))
      (orRelease id l.position do
        setPointer id h o a
        if o = .postFields then
          setInteger id h (sizeOption b.bytes.length) (Int64.ofNat b.bytes.length)) := by
    refine concurs_orRelease id _ ((concurs_setPointer id h o a).andThen fun _ ↦ ?_)
    split
    · exact concurs_setInteger id h _ _
    · exact concurs_pure rfl
  dsimp only
  generalize (if b.bytes = [] then Address.null else .buffer b.serial b.bytes) = a
  split
  · exact (concurs_lift (agrees_record id _)).andThen fun _ ↦ hbody a
  · exact hbody a

theorem concurs_appendItem (head : Option Nat) (item : String) :
    Concurs Eq (appendItem id head item) (appendItem id head item) := by
  refine (concurs_lift (agrees_getApi id)).bind fun _ _ ha ↦ ?_
  refine (concurs_recordText id item).discard.andThen fun _ ↦ ?_
  rw [Api.append_eq, Api.append_eq]
  refine (concurs_call ha (by decide) _).andThen fun given ↦ ?_
  cases given with
  | none => exact concurs_throw _
  | some n => exact concurs_pure rfl

theorem concurs_buildList (o : OptionCode) (mark : Nat) (head : Option Nat)
    (items : List String) :
    Concurs Eq (buildList id o mark head items) (buildList id o mark head items) := by
  induction items generalizing head with
  | nil => exact concurs_pure rfl
  | cons item rest ih =>
    rw [buildList]
    refine (concurs_appendItem id head item).observed.andThen fun r ↦ ?_
    cases r with
    | ok n => exact ih (some n)
    | error e =>
      refine (concurs_lift (agrees_releaseSince id mark)).discard.andThen fun _ ↦ ?_
      refine (concurs_lift (agrees_getApi id)).bind fun _ _ ha ↦ ?_
      refine (concurs_lift (agrees_freeNativeList ha head)).andThen fun _ ↦ ?_
      exact (concurs_lift agrees_report).andThen fun _ ↦ concurs_throw _

theorem concurs_setList (o : OptionCode) (items : List String) :
    Concurs Eq (setList id h o items) (setList id h o items) := by
  refine (concurs_lift (agrees_getLedger id)).andThen fun l ↦ ?_
  refine (concurs_buildList id o _ none items).andThen fun head ↦ ?_
  have hundo : Agrees Eq
      (do
        discard (releaseSince id l.position)
        freeNativeList (← getApi id) head)
      (do
        discard (releaseSince id l.position)
        freeNativeList (← getApi id) head) :=
    (agrees_releaseSince id _).discard.andThen fun _ ↦
      (agrees_getApi id).bind fun _ _ ha ↦ agrees_freeNativeList ha head
  refine ((concurs_setPointer id h o _).orUndo hundo).andThen fun _ ↦ ?_
  split
  · exact (concurs_lift agrees_newSerial).andThen fun n ↦
      concurs_lift (agrees_record id _)
  · exact concurs_pure rfl

/-! ## Callbacks -/

theorem concurs_wire (k : CallbackKind) : Concurs Eq (wire id h k) (wire id h k) := by
  refine (concurs_setPointer id h _ _).andThen fun _ ↦ ?_
  split
  · exact (concurs_setInteger id h _ _).andThen fun _ ↦ concurs_setFunction id h _ _
  · exact (concurs_pure rfl).andThen fun _ ↦ concurs_setFunction id h _ _

theorem concurs_unwire (k : CallbackKind) : Concurs Eq (unwire id h k) (unwire id h k) := by
  refine (concurs_setFunction id h _ _).andThen fun _ ↦ ?_
  refine (concurs_setPointer id h _ _).andThen fun _ ↦ ?_
  split
  · exact concurs_setInteger id h _ _
  · exact concurs_pure rfl

theorem concurs_setCallback (k : CallbackKind) (v : Value) :
    Concurs Eq (setCallback id h k v) (setCallback id h k v) := by
  cases v with
  | null =>
    exact (concurs_lift (agrees_modifySlots id _)).andThen fun _ ↦ concurs_unwire id h k
  | function c =>
    rw [setCallback]
    split
    · exact (concurs_wire id h k).andThen fun _ ↦ concurs_lift (agrees_modifySlots id _)
    · exact concurs_throw _
  | long | bool | text | bytes | list | sink | source | data | pointer => exact concurs_throw _

theorem concurs_setStream (k : CallbackKind) (d : UserData) :
    Concurs Eq (setStream id h k d) (setStream id h k d) := by
  have hwire : Concurs Eq (orUndo (wire id h k) (modifySlots id (·.clear k)))
      (orUndo (wire id h k) (modifySlots id (·.clear k))) :=
    (concurs_wire id h k).orUndo (agrees_modifySlots id _)
  refine (concurs_lift (agrees_getSlots id)).andThen fun x ↦ ?_
  refine (concurs_lift (agrees_modifySlots id _)).andThen fun _ ↦ ?_
  split
  · exact concurs_wire id h k
  · split
    · exact (concurs_lift (agrees_modifySlots id _)).andThen fun _ ↦ hwire
    · exact hwire

theorem concurs_setCallbackData (k : CallbackKind) (v : Value) :
    Concurs Eq (setCallbackData id h k v) (setCallbackData id h k v) := by
  refine (concurs_lift (agrees_getSlots id)).andThen fun x ↦ ?_
  cases v with
  | null | data =>
    refine (concurs_lift (agrees_modifySlots id _)).andThen fun _ ↦ ?_
    split
    · exact concurs_setPointer id h _ _
    · exact concurs_pure rfl
  | sink | source =>
    dsimp only
    split
    · exact concurs_setStream id h k _
    · exact concurs_throw _
  | long | bool | text | bytes | list | function | pointer => exact concurs_throw _

theorem concurs_setPlain (o : OptionCode) (v : Value) :
    Concurs Eq (setPlain id h o v) (setPlain id h o v) := by
  rw [setPlain.eq_def]
  split
  · exact concurs_setPointer id h _ _
  · exact concurs_setPointer id h _ _
  · exact concurs_setFunction id h _ _
  · exact concurs_setInteger id h _ _
  · exact concurs_setInteger id h _ _
  · exact concurs_setText id h _ _
  · exact concurs_setBytes id h _ _
  · exact concurs_setList id h _ _
  · exact concurs_setPointer id h _ _
  · exact concurs_setPointer id h _ _
  · exact concurs_setFunction id h _ _
  · exact concurs_throw _

theorem concurs_setopt (o : OptionCode) (v : Value) :
    Concurs Eq (setopt id o v) (setopt id o v) := by
  refine (concurs_liveHandle id).andThen fun h ↦ ?_
  refine (concurs_lift agrees_report).andThen fun _ ↦ ?_
  split
  · exact concurs_setCallback id h _ v
  · exact concurs_setCallbackData id h _ v
  · exact concurs_setPlain id h o v

end Wrapper

/-! ## Transfers -/

theorem agrees_findServed (a : Address) (k : CallbackKind) :
    Agrees Eq (findServed a k) (findServed a k) := by
  refine agrees_get fun s t hst ↦ ?_
  rw [hst.served]
  dsimp only
  split
  · exact agrees_report.andThen fun _ ↦ agrees_pure rfl
  · exact agrees_pure rfl

theorem agrees_deliver {α : Type} (id : WrapperId) (f : Slots → Delivery α) :
    Agrees Eq (deliver id f) (deliver id f) := by
  refine agrees_get fun s t hst ↦ ?_
  rw [hst.slots]
  generalize f (t.wrapper id).slots = d
  refine (agrees_modify fun u v huv ↦ ?_).andThen fun _ ↦ agrees_pure rfl
  have hslots := huv.modifyWrapper id (f := ({ · with slots := d.slots })) fun _ ↦ rfl
  exact hslots.events d.events

theorem agrees_guarded {α : Type} (k : CallbackKind) (cautious : α) (o : Outcome α) :
    Agrees Eq (guarded k cautious o) (guarded k cautious o) := by
  cases o with
  | done => exact agrees_pure rfl
  | panicked => exact agrees_report.andThen fun _ ↦ agrees_pure rfl

theorem agrees_onChunk (k : CallbackKind) (f : Slots → Bytes → Delivery Nat) (context : Address)
    (buffer : Option Bytes) (size count : UInt64) :
    Agrees Eq (onChunk k f context buffer size count) (onChunk k f context buffer size count) := by
  rw [onChunk]
  split
  · exact agrees_pure rfl
  · refine (agrees_findServed context k).andThen fun found ↦ ?_
    cases found with
    | none => exact agrees_pure rfl
    | some id => exact (agrees_deliver id _).andThen (agrees_guarded k _)

theorem agrees_onRead (context : Address) (buffer : Option Bytes) (size count : UInt64) :
    Agrees Eq (onRead context buffer size count) (onRead context buffer size count) := by
  refine (agrees_findServed context .read).andThen fun found ↦ ?_
  cases found with
  | none => exact agrees_pure rfl
  | some id =>
    dsimp only
    split
    · exact agrees_pure rfl
    · refine (agrees_deliver id _).andThen fun o ↦ ?_
      exact (agrees_guarded .read _ o).andThen fun _ ↦ agrees_pure rfl

theorem agrees_onProgress (context : Address) (counters : Progress) :
    Agrees Eq (onProgress context counters) (onProgress context counters) := by
  refine (agrees_findServed context .progress).andThen fun found ↦ ?_
  cases found with
  | none => exact agrees_pure rfl
  | some id => exact (agrees_deliver id _).andThen (agrees_guarded .progress _)

theorem agrees_chunk {trampoline : Option Bytes → UInt64 → UInt64 → Act Nat}
    (h : ∀ b n m, Agrees Eq (trampoline b n m) (trampoline b n m)) (b : Bytes) :
    Agrees Eq (Transfer.chunk trampoline b) (Transfer.chunk trampoline b) :=
  (h _ _ _).andThen fun _ ↦ (agrees_emit _).andThen fun _ ↦ agrees_pure rfl

theorem agrees_step (l : Settings) (x : TransferStep) :
    Agrees Eq (Transfer.step l x) (Transfer.step l x) := by
  rw [Transfer.step]
  split
  · exact (agrees_emit _).andThen fun _ ↦ agrees_pure rfl
  · cases x with
    | write b => exact agrees_chunk (agrees_onChunk .write _ _) b
    | header b => exact agrees_chunk (agrees_onChunk .header _ _) b
    | read capacity =>
      refine (agrees_onRead _ _ _ _).andThen fun _ ↦ ?_
      exact (agrees_emit _).andThen fun _ ↦ agrees_pure rfl
    | progress counters =>
      refine (agrees_onProgress _ _).andThen fun _ ↦ ?_
      exact (agrees_emit _).andThen fun _ ↦ agrees_pure rfl

theorem agrees_steps (l : Settings) (xs : List TransferStep) :
    Agrees Eq (Transfer.steps l xs) (Transfer.steps l xs) := by
  induction xs with
  | nil => exact agrees_pure rfl
  | cons x xs ih =>
    refine (agrees_step l x).andThen fun code ↦ ?_
    cases code with
    | none => exact ih
    | some => exact agrees_pure rfl

theorem agrees_transfer (h : Nat) : Agrees Eq (Transfer.run h) (Transfer.run h) := by
  refine agrees_get fun s t hst ↦ ?_
  rw [hst.engine, hst.policy]
  dsimp only
  split
  · exact agrees_pure rfl
  · exact (agrees_steps _ _).andThen fun _ ↦ agrees_pure rfl

theorem concurs_transfer {api api' : Api} (ha : api.plain = api'.plain) (h : Nat) :
    Concurs Eq (api.perform h) (api'.perform h) := by
  rw [Api.perform_eq, Api.perform_eq]
  refine (concurs_call ha (by decide) _).andThen fun _ ↦ ?_
  exact (concurs_lift (agrees_transfer h)).andThen fun _ ↦ concurs_pure rfl

/-! ## Requests -/

namespace Wrapper

variable (id : WrapperId)

theorem concurs_perform : Concurs Eq (perform id) (perform id) := by
  refine (concurs_liveHandle id).andThen fun h ↦ ?_
  refine (concurs_lift (agrees_getApi id)).bind fun _ _ ha ↦ ?_
  exact (concurs_transfer ha h).checked ha

theorem concurs_pause (mask : Int32) : Concurs Eq (pause id mask) (pause id mask) := by
  refine (concurs_liveHandle id).andThen fun h ↦ ?_
  refine (concurs_lift (agrees_getApi id)).bind fun _ _ ha ↦ ?_
  rw [Api.pause_eq, Api.pause_eq]
  exact ((concurs_call ha (by decide) _).map _).checked ha

theorem concurs_send (b : Bytes) : Concurs Eq (send id b) (send id b) := by
  refine (concurs_liveHandle id).andThen fun h ↦ ?_
  refine (concurs_lift (agrees_getApi id)).bind fun _ _ ha ↦ ?_
  rw [Api.send_eq, Api.send_eq]
  refine ((concurs_call ha (by decide) _).map _).andThen fun r ↦ ?_
  exact (concurs_check ha r.1).andThen fun _ ↦ concurs_pure rfl

theorem agrees_recv (buffer : Bytes) : Agrees Eq (recv id buffer) (recv id buffer) := by
  refine (concurs_liveHandle id).run.andThen fun r ↦ ?_
  cases r with
  | error => exact agrees_pure rfl
  | ok h =>
    dsimp only
    split
    · exact agrees_pure rfl
    · refine (agrees_getApi id).bind fun _ _ ha ↦ ?_
      rw [Api.recv_eq, Api.recv_eq]
      refine ((concurs_call ha (by decide) _).map _).run.andThen fun r ↦ ?_
      cases r with
      | error => exact agrees_pure rfl
      | ok r => exact (concurs_check ha r.1).run.andThen fun _ ↦ agrees_pure rfl

theorem concurs_checkLength (x : String) : Concurs Eq (checkLength x) (checkLength x) := by
  rw [checkLength]
  split
  · exact concurs_pure rfl
  · exact concurs_throw _

theorem concurs_escape (x : String) : Concurs Eq (escape id x) (escape id x) := by
  refine (concurs_liveHandle id).andThen fun h ↦ ?_
  split
  · exact concurs_pure rfl
  · refine (concurs_checkLength x).andThen fun _ ↦ ?_
    refine (concurs_lift (agrees_getApi id)).bind fun _ _ ha ↦ ?_
    rw [Api.escape_eq, Api.escape_eq]
    refine (concurs_call ha (by decide) _).andThen fun given ↦ ?_
    cases given with
    | none => exact concurs_throw _
    | some r =>
      dsimp only
      rw [Api.free_eq, Api.free_eq]
      exact (concurs_call ha (by decide) _).andThen fun _ ↦ concurs_pure rfl

theorem concurs_unescape (x : String) : Concurs Eq (unescape id x) (unescape id x) := by
  refine (concurs_liveHandle id).andThen fun h ↦ ?_
  split
  · exact concurs_pure rfl
  · refine (concurs_checkLength x).andThen fun _ ↦ ?_
    refine (concurs_lift (agrees_getApi id)).bind fun _ _ ha ↦ ?_
    rw [Api.unescape_eq, Api.unescape_eq]
    refine (concurs_call ha (by decide) _).andThen fun given ↦ ?_
    cases given with
    | none => exact concurs_throw _
    | some r =>
      dsimp only
      rw [Api.free_eq, Api.free_eq]
      exact (concurs_call ha (by decide) _).andThen fun _ ↦ concurs_pure rfl

theorem concurs_getList (h : Nat) (i : InfoCode) :
    Concurs Eq (getList id h i) (getList id h i) := by
  refine (concurs_lift (agrees_getApi id)).bind fun _ _ ha ↦ ?_
  rw [Api.getList_eq, Api.getList_eq]
  refine ((concurs_call ha (by decide) _).map _).andThen fun r ↦ ?_
  refine (concurs_check ha r.1).andThen fun _ ↦ ?_
  cases r.2 with
  | none => exact concurs_pure rfl
  | some n =>
    refine concurs_get fun s t hst ↦ ?_
    rw [hst.engine]
    rw [Api.freeList_eq, Api.freeList_eq]
    refine (concurs_call ha (by decide) _).observed.andThen fun freed ↦ ?_
    cases freed with
    | ok => exact concurs_pure rfl
    | error => exact (concurs_lift agrees_report).andThen fun _ ↦ concurs_pure rfl

theorem concurs_getScalar (out : Readout) (h : Nat) (i : InfoCode) :
    Concurs Eq (getScalar id out h i) (getScalar id out h i) := by
  have hm : out.method ≠ .impersonate := by cases out <;> nofun
  refine (concurs_lift (agrees_getApi id)).bind fun _ _ ha ↦ ?_
  rw [Api.getinfo_eq, Api.getinfo_eq]
  refine ((concurs_call ha hm _).map _).andThen fun r ↦ ?_
  exact (concurs_check ha r.1).andThen fun _ ↦ concurs_pure rfl

theorem concurs_getinfo (i : InfoCode) : Concurs Eq (getinfo id i) (getinfo id i) := by
  refine (concurs_liveHandle id).andThen fun h ↦ ?_
  have hsame {r : Attempt InfoValue} (hr : ∃ v, r = pure v) : Concurs Eq r r := by
    obtain ⟨v, rfl⟩ := hr
    exact concurs_pure rfl
  cases i.infoClass with
  | string =>
    refine (concurs_getScalar id _ h i).andThen fun r ↦ hsame ?_
    split <;> exact ⟨_, rfl⟩
  | long =>
    refine (concurs_getScalar id _ h i).andThen fun r ↦ hsame ?_
    split <;> exact ⟨_, rfl⟩
  | double =>
    refine (concurs_getScalar id _ h i).andThen fun r ↦ hsame ?_
    split <;> exact ⟨_, rfl⟩
  | offset =>
    refine (concurs_getScalar id _ h i).andThen fun r ↦ hsame ?_
    split <;> exact ⟨_, rfl⟩
  | list =>
    dsimp only
    split
    · exact concurs_throw _
    · exact concurs_getList id h i
  | _ => exact concurs_throw _

end Wrapper

/-! ## What is settled once -/

namespace Global

theorem agrees_logAll (rs : List LogRecord) : Agrees Eq (logAll rs) (logAll rs) :=
  agrees_modify fun _ _ hst ↦ hst.events _

theorem agrees_activeConfig : Agrees Eq activeConfig activeConfig := by
  refine agrees_get fun s t hst ↦ ?_
  have hsettled (c : Config) : Agrees Eq
      (do
        modify fun w ↦ { w with settled.config := some c }
        return c : Act Config)
      (do
        modify fun w ↦ { w with settled.config := some c }
        return c) := by
    refine (agrees_modify fun u v huv ↦ ?_).andThen fun _ ↦ agrees_pure rfl
    exact congrArg (fun s : State ↦ { s with settled.config := some c }) huv
  rw [hst.config, hst.host]
  split
  · exact agrees_pure rfl
  · dsimp only
    split
    · exact hsettled _
    · exact agrees_report.andThen fun _ ↦ hsettled _

theorem agrees_installConfig (c : Config) : Agrees Eq (installConfig c) (installConfig c) := by
  refine agrees_get fun s t hst ↦ ?_
  rw [hst.config]
  split
  · exact agrees_pure rfl
  · refine (agrees_modify fun u v huv ↦ ?_).andThen fun _ ↦ agrees_pure rfl
    exact congrArg (fun s : State ↦ { s with settled.config := some c }) huv

theorem agrees_activeBundle : Agrees Eq activeBundle activeBundle := by
  refine agrees_get fun s t hst ↦ ?_
  rw [hst.bundle]
  split
  · exact agrees_pure rfl
  · refine agrees_activeConfig.andThen fun c ↦ agrees_get fun s t hst ↦ ?_
    rw [hst.host]
    dsimp only
    generalize CaBundle.resolve t.host c.tls = outcome
    refine (agrees_modify fun u v huv ↦ ?_).andThen fun _ ↦
      (agrees_logAll _).andThen fun _ ↦ agrees_pure rfl
    exact congrArg (fun s : State ↦
      { s with host.files := outcome.files, settled.bundle := some outcome.result }) huv

theorem agrees_openModule (loaded : Library.Loaded) :
    Agrees Eq (openModule loaded) (openModule loaded) :=
  (agrees_logAll _).andThen fun _ ↦ agrees_pure rfl

/-- The default way is settled for both, by ways that are as good as each other, or for neither. -/
theorem agrees_defaultApi :
    Agrees (fun api api' ↦ api.plain = api'.plain) defaultApi defaultApi := by
  refine agrees_get fun s t hst ↦ ?_
  have hnative : s.settled.native.map Api.plain = t.settled.native.map Api.plain := hst.native
  have hsettled (api : Api) : Agrees (fun api api' ↦ api.plain = api'.plain)
      (do
        modify fun w ↦ { w with settled.native := some api }
        return api : Act Api)
      (do
        modify fun w ↦ { w with settled.native := some api }
        return api) := by
    refine (agrees_modify fun u v huv ↦ ?_).andThen fun _ ↦ agrees_pure rfl
    exact congrArg (fun s : State ↦ { s with settled.native := some api.plain }) huv
  cases hs : s.settled.native with
  | some api =>
    rw [hs] at hnative
    obtain ⟨api', ht, ha⟩ := Option.map_eq_some_iff.1 hnative.symm
    rw [ht]
    exact agrees_pure ha.symm
  | none =>
    rw [hs, Option.map_none, eq_comm, Option.map_eq_none_iff] at hnative
    rw [hnative, hst.linked, hst.host]
    dsimp only
    split
    · exact hsettled _
    · refine agrees_activeConfig.andThen fun c ↦ (agrees_openModule _).andThen fun api ↦ ?_
      split
      · exact agrees_report.andThen fun _ ↦ hsettled api
      · exact hsettled api

/-! ### The engine as a whole -/

section

variable {api api' : Api} (ha : api.plain = api'.plain)

include ha

theorem concurs_init (flags : Int64) : Concurs Eq (init api flags) (init api' flags) := by
  rw [init_eq, init_eq]
  refine concurs_get fun s t hst ↦ ?_
  rw [hst.initialized]
  split
  · exact (concurs_lift agrees_report).andThen fun _ ↦ concurs_pure rfl
  · rw [Api.globalInit_eq, Api.globalInit_eq]
    refine ((concurs_call ha (by decide) _).map _).andThen fun code ↦ ?_
    refine (concurs_check ha code).andThen fun _ ↦ ?_
    refine (concurs_modify fun u v huv ↦ ?_).andThen fun _ ↦ concurs_lift agrees_report
    exact congrArg (fun s : State ↦ { s with settled.initialized := true }) huv

theorem concurs_cleanup : Concurs Eq (cleanup api) (cleanup api') := by
  refine concurs_get fun s t hst ↦ ?_
  rw [hst.initialized]
  split
  · exact concurs_pure rfl
  · rw [Api.globalCleanup_eq, Api.globalCleanup_eq]
    refine (concurs_call ha (by decide) _).andThen fun _ ↦ ?_
    refine (concurs_modify fun u v huv ↦ ?_).andThen fun _ ↦ concurs_lift agrees_report
    exact congrArg (fun s : State ↦ { s with settled.initialized := false }) huv

end

theorem concurs_initDefault : Concurs Eq initDefault initDefault :=
  (concurs_lift agrees_activeConfig).andThen fun c ↦
    (concurs_lift agrees_defaultApi).bind fun _ _ ha ↦ concurs_init ha c.initFlags

end Global

/-! ## The life of a wrapper -/

namespace Wrapper

variable (id : WrapperId)

theorem agrees_cleanup : Agrees Eq (cleanup id) (cleanup id) := by
  refine agrees_get fun s t hst ↦ ?_
  have hrest : Agrees Eq
      (do
        discard (releaseAll id)
        modifySlots id fun _ ↦ {})
      (do
        discard (releaseAll id)
        modifySlots id fun _ ↦ {}) :=
    (agrees_releaseSince id 0).discard.andThen fun _ ↦ agrees_modifySlots id _
  have ha := hst.api id
  dsimp only
  rw [hst.handle]
  cases (t.wrapper id).handle with
  | none => exact hrest
  | some h =>
    have hgone := agrees_modifyWrapper id (f := ({ · with handle := none })) fun _ ↦ rfl
    refine hgone.andThen fun _ ↦ ?_
    refine (agrees_modify fun u v huv ↦ ?_).andThen fun _ ↦ ?_
    · exact congrArg (fun s : State ↦
        { s with registry := s.registry.unregister (.handle h) }) huv
    · rw [Api.cleanup_eq, Api.cleanup_eq]
      refine (concurs_call ha (by decide) _).run.andThen fun r ↦ ?_
      cases r with
      | ok => exact agrees_report.andThen fun _ ↦ hrest
      | error => exact agrees_report.andThen fun _ ↦ agrees_report.andThen fun _ ↦ hrest

theorem agrees_drop : Agrees Eq (drop id) (drop id) := by
  have hwithout (s : State) :
      (Pairs.without id s.wrappers).map (fun x ↦ (x.1, x.2.plain)) =
        Pairs.without id (s.wrappers.map fun x ↦ (x.1, x.2.plain)) := by
    rw [Pairs.without, Pairs.without, List.filter_map]
    rfl
  refine (agrees_cleanup id).andThen fun _ ↦ agrees_modify fun s t hst ↦ hst.withWrappers ?_
  rw [hwithout, hwithout, hst.wrappers]

section

variable {api api' : Api} (ha : api.plain = api'.plain)

include ha

theorem concurs_adopt (given : Option Nat) (origin : EntryPoint) :
    Concurs Eq (adopt given api origin) (adopt given api' origin) := by
  cases given with
  | none => exact concurs_throw _
  | some h =>
    refine concurs_get fun s t hst ↦ ?_
    rw [hst.opened]
    generalize t.opened = id
    refine (concurs_modify fun u v huv ↦ ?_).andThen fun _ ↦
      (concurs_lift agrees_report).andThen fun _ ↦ concurs_pure rfl
    have hnew (api : Api) : Wrapper.plain { handle := some h, api } =
        { handle := some h, api := api.plain } := rfl
    have hentered : Mirrors
        { u with wrappers := u.wrappers ++ [(id, { handle := some h, api })] }
        { v with wrappers := v.wrappers ++ [(id, { handle := some h, api := api' })] } := by
      refine huv.withWrappers ?_
      rw [List.map_append, List.map_append, huv.wrappers, List.map_singleton, List.map_singleton,
        hnew, hnew, ha]
    exact congrArg (fun s : State ↦
      { s with
        opened := s.opened + 1
        registry := s.registry.register (.handle h) id }) hentered

end

theorem agrees_applyBundle : Agrees Eq (applyBundle id) (applyBundle id) := by
  refine Global.agrees_activeBundle.andThen fun b ↦ ?_
  cases b with
  | none => exact agrees_pure rfl
  | some path =>
    refine (concurs_setopt id _ _).run.andThen fun r ↦ ?_
    cases r with
    | ok => exact agrees_pure rfl
    | error => exact agrees_report

theorem concurs_create {api api' : Api} (ha : api.plain = api'.plain) :
    Concurs Eq (create api) (create api') := by
  rw [create, create, Api.init_eq, Api.init_eq]
  refine (concurs_call ha (by decide) _).andThen fun given ↦ ?_
  refine (concurs_adopt ha given .init).andThen fun id ↦ ?_
  exact (concurs_lift (agrees_applyBundle id)).andThen fun _ ↦ concurs_pure rfl

theorem concurs_createDefault : Concurs Eq createDefault createDefault :=
  (concurs_lift Global.agrees_defaultApi).bind fun _ _ ha ↦ concurs_create ha

theorem concurs_detach (h : Nat) (k : CallbackKind) :
    Concurs Eq (detach id h k) (detach id h k) := by
  refine (concurs_lift (agrees_getApi id)).bind fun _ _ ha ↦ ?_
  have hset {m : Method} (hm : m ≠ .impersonate) (answer : Policy → Engine → Answered Int32) :=
    (concurs_call ha hm answer).map ResultCode.ofSigned
  simp only [Api.setFunction_eq, Api.setPointer_eq, Api.setLong_eq]
  refine (hset (by decide) _).andThen fun _ ↦ (concurs_check ha _).andThen fun _ ↦ ?_
  refine (hset (by decide) _).andThen fun _ ↦ (concurs_check ha _).andThen fun _ ↦ ?_
  split
  · exact (hset (by decide) _).checked ha
  · exact concurs_pure rfl

theorem concurs_detachAll (h : Nat) (kinds : List CallbackKind) :
    Concurs Eq (detachAll id h kinds) (detachAll id h kinds) := by
  induction kinds with
  | nil => exact concurs_pure rfl
  | cons k rest ih => exact (concurs_detach id h k).andThen fun _ ↦ ih

theorem concurs_duplicate : Concurs Eq (duplicate id) (duplicate id) := by
  refine (concurs_liveHandle id).andThen fun source ↦ ?_
  refine (concurs_lift (agrees_getApi id)).bind fun _ _ ha ↦ ?_
  rw [Api.duphandle_eq, Api.duphandle_eq]
  refine (concurs_call ha (by decide) _).andThen fun given ↦ ?_
  refine (concurs_adopt ha given .duphandle).andThen fun copy ↦ ?_
  refine (concurs_lift (agrees_getLedger id)).andThen fun l ↦ ?_
  refine (concurs_lift (agrees_recordEach copy _)).andThen fun _ ↦ ?_
  refine (concurs_lift (agrees_getSlots id)).andThen fun x ↦ ?_
  have hdetached : Concurs Eq (do detachAll copy (← liveHandle copy) x.installed)
      (do detachAll copy (← liveHandle copy) x.installed) :=
    (concurs_liveHandle copy).andThen fun h ↦ concurs_detachAll copy h _
  exact (hdetached.orUndo (agrees_drop copy)).andThen fun _ ↦ concurs_pure rfl

theorem concurs_reset : Concurs Eq (reset id) (reset id) := by
  refine (concurs_liveHandle id).andThen fun h ↦ ?_
  refine (concurs_lift (agrees_getApi id)).bind fun _ _ ha ↦ ?_
  rw [Api.reset_eq, Api.reset_eq]
  refine (concurs_call ha (by decide) _).andThen fun _ ↦ ?_
  refine (concurs_lift (agrees_modifySlots id _)).andThen fun _ ↦ ?_
  refine (concurs_lift (agrees_releaseSince id 0)).andThen fun _ ↦ ?_
  exact concurs_lift agrees_report

end Wrapper

end NativeTransfer
