import NativeTransfer.Proofs.Requests
import NativeTransfer.Proofs.Setopt

/-!
# Lists that are built and taken down

The engine shows every node that it makes for a list and every list that it frees, so the trace is
a record of its lists. Hardly anything in setting an option touches them: `State.Still` says that
between two states no list was made, changed or freed. Any relation that stands tables and slots
that change, and events that tell of no list, is `Placid`, and a placid relation holds across
whatever sets an option without recording or building anything. A list that is being built grows by
one node with every item (`Building`), and where freeing is on offer it is freed once with all the
nodes that it has by then (`Unbuilt`).

## Calm and placid

Most of what a program does can be passed over by any relation that does not look at tables and
lists (`Calm`). To set an option changes a table and the slots, so a relation that is to pass it
over must stand that too, and `Placid` asks for it. Whatever is placid passes over single arguments,
callbacks and texts with one proof for all such relations; and what is left for the lists is
appending, freeing and the releases, each of which has its own lemma.
-/

namespace NativeTransfer

open State

/-! ## What is heard of lists -/

/-- A node that was made for a list, or a list that was freed with so many nodes. -/
inductive ListEvent
  | grown (n : Nat)
  | freed (n nodes : Nat)
  deriving DecidableEq

/-- What an event tells of a list. -/
def Event.listed? : Event → Option ListEvent
  | .native _ (.append _ _ (some n)) => some (.grown n)
  | .native _ (.freeList n nodes) => some (.freed n nodes)
  | _ => none

namespace State

/-- All that was heard of lists. -/
def listing (s : State) : List ListEvent := s.trace.filterMap Event.listed?

/-- Of lists nothing was heard, and they are as they were. -/
structure Still (s t : State) : Prop where
  lists : t.engine.lists = s.engine.lists
  listing : t.listing = s.listing
  policy : t.policy = s.policy

namespace Still

variable {s t u : State}

theorem refl (s : State) : Still s s := ⟨rfl, rfl, rfl⟩

theorem trans (h : Still s t) (h' : Still t u) : Still s u where
  lists := h'.lists.trans h.lists
  listing := h'.listing.trans h.listing
  policy := h'.policy.trans h.policy

end Still

theorem listing_concat (s : State) (e : Engine) (v : Event) :
    State.listing { s with engine := e, trace := s.trace ++ [v] } =
      s.listing ++ (v.listed?).toList := by
  rw [listing, listing, List.filterMap_append]
  cases hv : v.listed? with
  | none => rw [List.filterMap_cons_none hv]; rfl
  | some x => rw [List.filterMap_cons_some hv]; rfl

theorem Still.of_event {s : State} {e : Engine} {v : Event} (hl : e.lists = s.engine.lists)
    (hv : v.listed? = none) : Still s { s with engine := e, trace := s.trace ++ [v] } where
  lists := hl
  listing := by rw [listing_concat, hv, Option.toList_none, List.append_nil]
  policy := rfl

end State

theorem Event.listed?_of_isQuiet {v : Event} (hv : v.isQuiet = true) : v.listed? = none := by
  rw [listed?.eq_def]
  split
  · cases hv
  · cases hv
  · rfl

/-- A calm relation that stands it if options are set: tables and slots may change, and anything may
be heard but of lists. -/
structure Placid (R : State → State → Prop) : Prop extends Calm R where
  answered : ∀ s (e : Engine) v, e.lists = s.engine.lists → v.listed? = none →
    R s { s with engine := e, trace := s.trace ++ [v] }
  withSlots : ∀ s id f, R s (s.withSlots id f)

theorem Placid.stirred {R : State → State → Prop} (hR : Placid R) : Stirred R where
  toCalm := hR.toCalm
  slots s id _ _ _ _ := hR.withSlots s id _

theorem placid_still : Placid Still where
  refl := Still.refl
  trans _ _ _ := Still.trans
  engine _ _ _ hl := ⟨hl, rfl, rfl⟩
  event _ _ hv := .of_event rfl (Event.listed?_of_isQuiet hv)
  settled _ _ _ := ⟨rfl, rfl, rfl⟩
  answered _ _ _ hl hv := .of_event hl hv
  withSlots _ _ _ := ⟨rfl, rfl, rfl⟩

theorem calm_still : Calm Still := placid_still.toCalm

/-- An answer that is not about lists. -/
structure Api.Listless {α : Type} (answer : Policy → Engine → Answered α) : Prop where
  lists : ∀ p e, (answer p e).engine.lists = e.lists
  listed? : ∀ r p e, (Event.native r (answer p e).call).listed? = none

/-! ## Programs that leave lists alone -/

namespace Placid

variable {R : State → State → Prop} (hR : Placid R) {α : Type} {id : WrapperId} {h : Nat}

include hR

theorem orUndo {x : Attempt α} (hx : Within R x) {undo : Act Unit}
    (hu : ∀ s, Ends undo s fun _ t ↦ R s t) : Within R (orUndo x undo) := by
  intro s
  rw [leads_orUndo]
  refine (hx s).mono (fun _ _ ht ↦ ht) fun e t ht ↦ ?_
  exact (hu t).mono fun _ _ hu ↦ hR.trans _ _ _ ht hu

/-! ### Native calls -/

theorem call (api : Api) (m : Method) {answer : Policy → Engine → Answered α}
    (h : Api.Listless answer) : Within R (api.call m answer) := by
  intro s
  refine hR.leads_call api m ?_
  rintro x rfl
  exact hR.trans _ _ _ (hR.counted s) (hR.answered _ _ _ (h.lists _ _) (h.listed? _ _ _))

theorem setopt (api : Api) (m : Method) (h : Nat) (o : OptionCode) (x : Argument) :
    Within R (ResultCode.ofSigned <$> api.call m fun p e ↦ e.answerSetopt p m h o x) := by
  refine (hR.call api m ⟨fun p e ↦ ?_, fun _ _ _ ↦ rfl⟩).map _
  rw [Engine.answerSetopt]
  split
  · rfl
  · rfl

theorem close (api : Api) (h : Nat) : Within R (api.cleanup h) := by
  rw [api.cleanup_eq]
  exact hR.call api .cleanup ⟨fun _ _ ↦ rfl, fun _ _ _ ↦ rfl⟩

theorem clear (api : Api) (h : Nat) : Within R (api.reset h) := by
  rw [api.reset_eq]
  exact hR.call api .reset ⟨fun _ _ ↦ rfl, fun _ _ _ ↦ rfl⟩

/-! ### Single arguments -/

open Wrapper

theorem modifySlots (f : Slots → Slots) : Within R (liftM (modifySlots id f)) :=
  fun s ↦ hR.withSlots s id f

theorem set {x : Api → Attempt ResultCode} (hx : ∀ api, Within R (x api)) :
    Within R (do let api ← getApi id; api.check (← x api)) :=
  hR.bind (calm_getApi hR.toCalm) fun api ↦ hR.bind (hx api) (hR.check api)

theorem setPointer (o : OptionCode) (a : Address) : Within R (setPointer id h o a) :=
  hR.set fun api ↦ api.setPointer_eq h o a ▸ hR.setopt api .setPointer h o _

theorem setFunction (o : OptionCode) (a : Address) : Within R (setFunction id h o a) :=
  hR.set fun api ↦ api.setFunction_eq h o a ▸ hR.setopt api .setFunction h o _

theorem setInteger (o : OptionCode) (n : Int64) : Within R (setInteger id h o n) := by
  rw [setInteger_eq]
  refine hR.bind (calm_getApi hR.toCalm) fun api ↦ ?_
  split
  · rw [api.setOffset_eq]
    exact hR.bind (hR.setopt api .setOffset h o _) (hR.check api)
  · split
    · rw [api.setLong_eq]
      exact hR.bind (hR.setopt api .setLong h o _) (hR.check api)
    · exact hR.throw _

theorem setBuffer (o : OptionCode) (b : Buffer) : Within R (do
    Wrapper.setPointer id h o b.address
    if o = .postFields then
      Wrapper.setInteger id h (sizeOption b.bytes.length) (Int64.ofNat b.bytes.length)) := by
  refine hR.bind (hR.setPointer _ _) fun _ ↦ ?_
  split
  · exact hR.setInteger _ _
  · exact hR.pure _

/-! ### Callbacks -/

theorem wire (k : CallbackKind) : Within R (wire id h k) := by
  refine hR.bind (hR.setPointer _ _) fun _ ↦ ?_
  by_cases hk : k = .progress
  · simp only [if_pos hk]
    exact hR.bind (hR.setInteger _ _) fun _ ↦ hR.setFunction _ _
  · simp only [if_neg hk]
    exact hR.bind (hR.pure _) fun _ ↦ hR.setFunction _ _

theorem unwire (k : CallbackKind) : Within R (unwire id h k) := by
  refine hR.bind (hR.setFunction _ _) fun _ ↦ ?_
  refine hR.bind (hR.setPointer _ _) fun _ ↦ ?_
  split
  · exact hR.setInteger _ _
  · exact hR.pure _

theorem setCallback (k : CallbackKind) (v : Value) : Within R (setCallback id h k v) := by
  cases v with
  | null => exact hR.bind (hR.modifySlots _) fun _ ↦ hR.unwire k
  | function c =>
    rw [Wrapper.setCallback]
    split
    · exact hR.bind (hR.wire k) fun _ ↦ hR.modifySlots _
    · exact hR.throw _
  | long | bool | text | bytes | list | sink | source | data | pointer => exact hR.throw _

theorem setStream (k : CallbackKind) (d : UserData) : Within R (setStream id h k d) := by
  have hslots : Within R (liftM (getSlots id)) := fun s ↦ hR.refl s
  refine hR.bind hslots fun x ↦ hR.bind (hR.modifySlots _) fun _ ↦ ?_
  split
  · exact hR.wire k
  · have hwire : Within R (NativeTransfer.orUndo (Wrapper.wire id h k)
        (Wrapper.modifySlots id (·.clear k))) :=
      hR.orUndo (hR.wire k) fun s ↦ hR.withSlots s id (·.clear k)
    split
    · exact hR.bind (hR.modifySlots _) fun _ ↦ hwire
    · exact hR.bind (hR.pure ()) fun _ ↦ hwire

theorem setCallbackData (k : CallbackKind) (v : Value) :
    Within R (setCallbackData id h k v) := by
  have hslots : Within R (liftM (getSlots id)) := fun s ↦ hR.refl s
  refine hR.bind hslots fun x ↦ ?_
  cases v with
  | null =>
    refine hR.bind (hR.modifySlots _) fun _ ↦ ?_
    split
    · exact hR.setPointer _ _
    · exact hR.pure _
  | data d =>
    refine hR.bind (hR.modifySlots _) fun _ ↦ ?_
    split
    · exact hR.setPointer _ _
    · exact hR.pure _
  | sink x =>
    dsimp only
    split
    · exact hR.setStream k _
    · exact hR.throw _
  | source x =>
    dsimp only
    split
    · exact hR.setStream k _
    · exact hR.throw _
  | long | bool | text | bytes | list | function | pointer => exact hR.throw _

end Placid

/-! ## Records and releases -/

namespace Wrapper

variable {s t : State} {id : WrapperId} {h : Nat}

theorem still_serial (s : State) : Still s { s with serials := s.serials + 1 } := ⟨rfl, rfl, rfl⟩

theorem still_record (a : Allocation) : Ends (record id a) s fun _ t ↦ Still s t := by
  refine (ends_record a).mono ?_
  rintro _ t rfl
  rw [noting_eq]
  exact ⟨rfl, rfl, rfl⟩

theorem still_recordText (x : String) : Within Still (recordText id x) := by
  refine calm_still.bind (calm_checkText calm_still x) fun _ s ↦ ?_
  rw [leads_bind, leads_newSerial, leads_bind, leads_lift]
  exact (still_record _).mono fun _ _ ht ↦ (still_serial s).trans ht

/-- Copies and buffers that were recorded on the way are no lists, so none is freed with them. -/
theorem still_rollback (ha : s.isAlive id = true) {as : List Allocation}
    (has : ∀ a ∈ as, a.nativeList? = none) (hd : Drift [] (s.recordAll id as) t) :
    Ends (releaseSince id (s.wrapper id).ledger.position) t fun _ u ↦ Still t u := by
  refine (ends_cut ha has hd).mono ?_
  rintro _ u rfl
  exact ⟨rfl, rfl, rfl⟩

end Wrapper

end NativeTransfer
