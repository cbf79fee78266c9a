import NativeTransfer.Proofs.Run

/-!
# What the engine is answered

The engine calls a trampoline with an address, a buffer and two numbers, and goes by the number that
comes back. Nothing about the call can be taken for granted: the address may lead nowhere, the slot
may be empty, the two numbers may not multiply, and the callback may give up or answer nonsense. For
each trampoline a structure has one field for each thing that may be the matter, in the order in
which they count, and the last field says that otherwise the callback of the slot is run once.

## The order of the checks

For chunks the two numbers are multiplied first, and a product that does not fit is answered before
the address is looked at. For requests the address comes first, and a request without room is
answered without running anything. Counters are passed on as they are. Where a callback is run it is
run once, on exactly the octets that are there, and what it leaves behind is put into its own slot.
A callback that panics is answered for with the cautious number, and the panic goes no further.

`Left` says what any call leaves behind: slots, the notes of the callback that was run, and reports.
-/

namespace NativeTransfer

open State

/-! ## What a call leaves behind -/

namespace State

/-- Nothing has happened but to the slots of the wrappers; and these notes were left, besides
reports. -/
structure Left (s : State) (slots : WrapperId → Slots) (notes : List Note) (t : State) : Prop where
  wrapper : ∀ j, t.wrapper j = { s.wrapper j with slots := slots j }
  rest : ∃ rs : List LogRecord, t =
    { s with
      wrappers := t.wrappers
      trace := s.trace ++ notes.map .note ++ rs.map .log }

/-- Nothing has happened, and at most it was reported. -/
def Reported (s t : State) : Prop := s.Left (fun j ↦ (s.wrapper j).slots) [] t

/-- A callback of one wrapper was run, which has left these slots and these notes. -/
def Ran (s : State) (id : WrapperId) (x : Slots) (notes : List Note) (t : State) : Prop :=
  s.Left (fun j ↦ if j = id then x else (s.wrapper j).slots) notes t

/-- Under an address no callback of a kind is found. -/
def Misses (s : State) (a : Address) (k : CallbackKind) : Prop :=
  ∀ id, s.served a = some id → (s.wrapper id).slots.isInstalled k = false

variable {s t u : State} {id : WrapperId} {slots : WrapperId → Slots} {notes : List Note}

theorem Reported.log (s : State) (rs : List LogRecord) :
    s.Reported { s with trace := s.trace ++ rs.map .log } where
  wrapper _ := rfl
  rest := ⟨rs, by rw [List.map_nil, List.append_nil]⟩

theorem Reported.refl (s : State) : s.Reported s := by
  have h := Reported.log s []
  rw [List.map_nil, List.append_nil] at h
  exact h

theorem Left.log (h : s.Left slots notes t) (r : LogRecord) :
    s.Left slots notes { t with trace := t.trace ++ [.log r] } where
  wrapper := h.wrapper
  rest := by
    obtain ⟨rs, ht⟩ := h.rest
    have htrace : t.trace = s.trace ++ notes.map .note ++ rs.map .log := congrArg trace ht
    refine ⟨rs ++ [r], ?_⟩
    rw [htrace, List.map_append, ← List.append_assoc _ (rs.map _)]
    rw [ht]
    rfl

/-- A callback that has changed nothing and noted nothing might as well not have been run. -/
theorem Ran.reported (h : s.Ran id (s.wrapper id).slots [] t) : s.Reported t where
  wrapper j := by
    refine (h.wrapper j).trans ?_
    dsimp only
    split
    · next hj => rw [hj]
    · rfl
  rest := h.rest

theorem isAlive_of_served {a : Address} (h : s.served a = some id) : s.isAlive id = true :=
  (Option.filter_eq_some_iff.1 h).2

end State

/-! ## Answers -/

/-- A chunk is answered with its length if it is accepted. -/
def chunkAnswer (chunk : Bytes) : Outcome Bool → Nat
  | .done true => chunk.length
  | .done false => pauseCount
  | .panicked _ => pauseCount

/-- A request is answered with a count if that is one of octets that there was room for. -/
def readAnswer (capacity : Nat) : Outcome ReadAnswer → Nat
  | .done r => if 0 ≤ r.count.toInt ∧ r.count.toInt ≤ capacity then r.count.toInt.toNat
    else abortCount
  | .panicked _ => abortCount

/-- Counters are answered with whether to go on. -/
def progressAnswer : Outcome Bool → Nat
  | .done true => progressContinue
  | .done false => progressAbort
  | .panicked _ => progressAbort

/-- What a buffer hands over: its first octets, of which there are so many, and nothing if it is
null. -/
def Hands (n : Nat) (chunk : Bytes) : Option Bytes → Prop
  | none => chunk = []
  | some b => chunk <+: b ∧ chunk.length = n

/-- How the trampolines for chunks answer, each of which serves a slot of its own. -/
structure AnswersChunks (trampoline : Address → Option Bytes → UInt64 → UInt64 → Act Nat)
    (k : CallbackKind) (slot : Slots → Slot WriteCallback)
    (put : Slots → Slot WriteCallback → Slots) : Prop where
  overflow : ∀ s a b size count, UInt64.size ≤ size.toNat * count.toNat →
    Ends (trampoline a b size count) s fun r t ↦ r = 0 ∧ s.Reported t
  missed : ∀ s a b size count, s.Misses a k →
    Ends (trampoline a b size count) s fun r t ↦ r = 0 ∧ s.Reported t
  called : ∀ s a b size count id f chunk, size.toNat * count.toNat < UInt64.size →
    Hands (size.toNat * count.toNat) chunk b → s.served a = some id →
    (slot (s.wrapper id).slots).callback = some f →
    Ends (trampoline a b size count) s fun r t ↦
      r = chunkAnswer chunk (f.run chunk (slot (s.wrapper id).slots).data).1.outcome ∧
      s.Ran id (put (s.wrapper id).slots ⟨some (f.run chunk (slot (s.wrapper id).slots).data).2,
          (f.run chunk (slot (s.wrapper id).slots).data).1.data⟩)
        (f.run chunk (slot (s.wrapper id).slots).data).1.notes t

/-- How the trampoline for requests answers. -/
structure AnswersReads (trampoline : Address → Option Bytes → UInt64 → UInt64 →
    Act (Nat × Option Bytes)) : Prop where
  overflow : ∀ s a b size count, UInt64.size ≤ size.toNat * count.toNat →
    Ends (trampoline a b size count) s fun r t ↦ r = (abortCount, b) ∧ s.Reported t
  /-- Whether there is room does not matter. -/
  missed : ∀ s a b size count, s.Misses a .read →
    Ends (trampoline a b size count) s fun r t ↦ r = (abortCount, b) ∧ s.Reported t
  idle : ∀ s a b size count id, size.toNat * count.toNat < UInt64.size →
    size.toNat * count.toNat = 0 ∨ b = none → s.served a = some id →
    (s.wrapper id).slots.isInstalled .read = true →
    Ends (trampoline a b size count) s fun r t ↦ r = (0, b) ∧ s.Reported t
  /-- What lies behind the room is left as it is. -/
  called : ∀ s a b size count id f room, size.toNat * count.toNat < UInt64.size →
    size.toNat * count.toNat ≠ 0 → Hands (size.toNat * count.toNat) room (some b) →
    s.served a = some id → (s.wrapper id).slots.read.callback = some f →
    Ends (trampoline a (some b) size count) s fun r t ↦
      r.1 = readAnswer room.length (f.run room (s.wrapper id).slots.read.data).1.outcome ∧
      (∃ filled, filled.length = room.length ∧ r.2 = some (filled ++ b.drop room.length)) ∧
      s.Ran id { (s.wrapper id).slots with
          read := ⟨some (f.run room (s.wrapper id).slots.read.data).2,
            (f.run room (s.wrapper id).slots.read.data).1.data⟩ }
        (f.run room (s.wrapper id).slots.read.data).1.notes t

/-- How the trampoline for counters answers. -/
structure AnswersProgress (trampoline : Address → Progress → Act Nat) : Prop where
  missed : ∀ s a p, s.Misses a .progress →
    Ends (trampoline a p) s fun r t ↦ r = 0 ∧ s.Reported t
  called : ∀ s a p id f, s.served a = some id →
    (s.wrapper id).slots.progress.callback = some f →
    Ends (trampoline a p) s fun r t ↦
      r = progressAnswer (f.run p (s.wrapper id).slots.progress.data).1.outcome ∧
      s.Ran id { (s.wrapper id).slots with
          progress := ⟨some (f.run p (s.wrapper id).slots.progress.data).2,
            (f.run p (s.wrapper id).slots.progress.data).1.data⟩ }
        (f.run p (s.wrapper id).slots.progress.data).1.notes t

/-! ## What the trampolines have in common -/

section

variable {s t : State} {id : WrapperId} {a : Address} {size count : UInt64}

theorem extent?_of_lt (h : size.toNat * count.toNat < UInt64.size) :
    extent? size count = some (size.toNat * count.toNat) := if_pos h

theorem extent?_of_le (h : UInt64.size ≤ size.toNat * count.toNat) :
    extent? size count = none := if_neg (Nat.not_lt.2 h)

theorem bufferOctets_of_hands {n : Nat} {chunk : Bytes} {b : Option Bytes}
    (h : Hands n chunk b) : bufferOctets b n = chunk := by
  cases b with
  | none =>
    have hnil : chunk = [] := h
    rw [hnil, bufferOctets, Option.getD_none, List.take_nil]
  | some b =>
    obtain ⟨hpre, rfl⟩ := h
    exact (List.prefix_iff_eq_take.1 hpre).symm

theorem ends_served {α : Type} {g : Option WrapperId → Act α} {post : α → State → Prop}
    (k : CallbackKind) (hnone : s.served a = none → ∀ t, s.Reported t → Ends (g none) t post)
    (hsome : ∀ id, s.served a = some id → Ends (g (some id)) s post) :
    Ends (findServed a k >>= g) s post := by
  rw [ends_bind, findServed, ends_bind, ends_get]
  cases hs : s.served a with
  | none => exact hnone hs _ (Reported.log s [_])
  | some id => exact hsome id hs

theorem ends_served_some {α : Type} {g : Option WrapperId → Act α} {post : α → State → Prop}
    (k : CallbackKind) (hs : s.served a = some id) (h : Ends (g (some id)) s post) :
    Ends (findServed a k >>= g) s post := by
  refine ends_served k (fun hn ↦ ?_) fun j hj ↦ ?_
  · rw [hs] at hn
    cases hn
  · rw [hs] at hj
    obtain rfl := Option.some.inj hj
    exact h

/-- The answer to the engine, where a cautious one stands for a panic. -/
def Outcome.answer {α : Type} (cautious : α) : Outcome α → α
  | .done x => x
  | .panicked _ => cautious

/-- What comes after a delivery to a slot, whether the callback gives up or not. -/
theorem ends_delivered {α : Type} (hid : s.isAlive id = true) {f : Slots → Delivery α}
    {o : Outcome α} {x : Slots} {events : List Event} (hf : f (s.wrapper id).slots = ⟨o, x, events⟩)
    {notes : List Note} {rs : List LogRecord} (he : events = notes.map .note ++ rs.map .log)
    {k : CallbackKind} {cautious : α} {post : α → State → Prop}
    (hpost : ∀ t, s.Ran id x notes t → post (o.answer cautious) t) :
    Ends (deliver id f) s fun o t ↦ Ends (guarded k cautious o) t post := by
  have hran : s.Ran id x notes
      { s.modifyWrapper id ({ · with slots := x }) with
        trace := s.trace ++ (notes.map .note ++ rs.map .log) } := by
    refine ⟨fun j ↦ ?_, rs, by rw [List.append_assoc]; rfl⟩
    refine (wrapper_modifyWrapper s hid ({ · with slots := x }) j).trans ?_
    dsimp only
    split
    · rfl
    · rfl
  rw [deliver, ends_bind, ends_get]
  dsimp only
  rw [hf, he]
  cases o with
  | done => exact hpost _ hran
  | panicked m => exact hpost _ (hran.log _)

theorem events_of_notes (notes : List Note) :
    notes.map Event.note = notes.map .note ++ ([] : List LogRecord).map .log :=
  (List.append_nil _).symm

theorem events_of_report (r : LogRecord) :
    [Event.log r] = ([] : List Note).map .note ++ [r].map .log := rfl

end

/-! ## Chunks -/

theorem Slot.deliverChunk_none {slot : Slot WriteCallback} (hc : slot.callback = none)
    (k : CallbackKind) (chunk : Bytes) :
    slot.deliverChunk k chunk = (.done writeMiss, slot, [.log (emptySlotRecord k)]) := by
  rw [Slot.deliverChunk, hc]

theorem Slot.deliverChunk_some {slot : Slot WriteCallback} {c : WriteCallback}
    (hc : slot.callback = some c) (k : CallbackKind) (chunk : Bytes) :
    slot.deliverChunk k chunk =
      ((c.run chunk slot.data).1.outcome.map fun accepted ↦
          if accepted then chunk.length else pauseCount,
        ⟨some (c.run chunk slot.data).2, (c.run chunk slot.data).1.data⟩,
        (c.run chunk slot.data).1.notes.map .note) := by
  rw [Slot.deliverChunk, hc]

section

variable {k : CallbackKind} {f : Slots → Bytes → Delivery Nat} {slot : Slots → Slot WriteCallback}
  {put : Slots → Slot WriteCallback → Slots}

/-- A trampoline for chunks answers as it should if it delivers to one slot and to no other. -/
theorem answersChunks (hf : ∀ x chunk, f x chunk = ⟨((slot x).deliverChunk k chunk).1,
      put x ((slot x).deliverChunk k chunk).2.1, ((slot x).deliverChunk k chunk).2.2⟩)
    (hput : ∀ x, put x (slot x) = x) (hk : ∀ x, x.isInstalled k = (slot x).callback.isSome) :
    AnswersChunks (onChunk k f) k slot put where
  overflow s a b size count h := by
    rw [onChunk, extent?_of_le h]
    exact ⟨rfl, Reported.refl s⟩
  missed s a b size count h := by
    rw [onChunk]
    cases extent? size count with
    | none => exact ⟨rfl, Reported.refl s⟩
    | some n =>
      refine ends_served k (fun _ t ht ↦ And.intro rfl ht) fun id hs ↦ ?_
      have hnone : (slot (s.wrapper id).slots).callback = none := by
        rw [← Option.not_isSome_iff_eq_none, ← hk, h id hs]
        exact Bool.false_ne_true
      have hd := hf (s.wrapper id).slots (bufferOctets b n)
      rw [Slot.deliverChunk_none hnone] at hd
      dsimp only at hd ⊢
      rw [hput] at hd
      rw [ends_bind]
      exact ends_delivered (isAlive_of_served hs) hd (events_of_report _)
        fun t ht ↦ ⟨rfl, ht.reported⟩
  called s a b size count id c chunk hlt hb hs hc := by
    rw [onChunk, extent?_of_lt hlt]
    refine ends_served_some k hs ?_
    have hd := hf (s.wrapper id).slots chunk
    rw [Slot.deliverChunk_some hc] at hd
    dsimp only
    rw [bufferOctets_of_hands hb, ends_bind]
    generalize c.run chunk (slot (s.wrapper id).slots).data = reply at hd ⊢
    refine ends_delivered (isAlive_of_served hs) hd (events_of_notes _) fun t ht ↦ ⟨?_, ht⟩
    rcases reply.1.outcome with (_ | _) | _
    · rfl
    · rfl
    · rfl

end

/-! ## Requests -/

namespace Slots

variable {x : Slots} {c : ReadCallback} {room : Bytes}

theorem deliverRead_none (hc : x.read.callback = none) (room : Bytes) :
    x.deliverRead room =
      ⟨.done (abortCount, room), x, [.log (emptySlotRecord .read)]⟩ := by
  rw [deliverRead, hc]

theorem deliverRead_nil (hc : x.isInstalled .read = true) :
    x.deliverRead [] = ⟨.done (0, []), x, []⟩ := by
  obtain ⟨c, hc⟩ := Option.isSome_iff_exists.1 hc
  rw [deliverRead, hc]
  rfl

theorem validCount_iff {n : Int64} {capacity : Nat} :
    validCount n capacity = true ↔ 0 ≤ n.toInt ∧ n.toInt ≤ capacity := by
  rw [validCount, Bool.and_eq_true, decide_eq_true_iff, decide_eq_true_iff]

/-- A callback is run where there is room, and a count that is not valid is reported. -/
theorem deliverRead_some (hc : x.read.callback = some c) (hroom : room ≠ []) :
    ∃ o filled, ∃ rs : List LogRecord,
      x.deliverRead room =
        ⟨o, { x with read := ⟨some (c.run room x.read.data).2, (c.run room x.read.data).1.data⟩ },
          (c.run room x.read.data).1.notes.map .note ++ rs.map .log⟩ ∧
      o.answer (abortCount, room) =
        (readAnswer room.length (c.run room x.read.data).1.outcome, filled) ∧
      filled.length = room.length := by
  rw [deliverRead, hc]
  dsimp only
  rw [if_neg hroom]
  generalize c.run room x.read.data = reply
  cases ho : reply.1.outcome with
  | panicked m => exact ⟨.panicked m, room, [], by rw [← events_of_notes], rfl, rfl⟩
  | done r =>
    have hlength := Bytes.length_overlay r.written room
    by_cases hv : validCount r.count room.length = true
    · refine ⟨.done (r.count.toInt.toNat, r.written.overlay room), r.written.overlay room, [],
        ?_, ?_, hlength⟩
      · dsimp only
        rw [if_pos hv, ← events_of_notes]
      · rw [readAnswer, if_pos (validCount_iff.1 hv)]
        rfl
    · refine ⟨.done (abortCount, r.written.overlay room), r.written.overlay room, [_],
        if_neg hv, ?_, hlength⟩
      rw [readAnswer, if_neg (mt validCount_iff.2 hv)]
      rfl

end Slots

theorem map_bufferOctets (b : Option Bytes) (n : Nat) :
    (b.map fun x ↦ bufferOctets b n ++ x.drop n) = b := by
  cases b with
  | none => rfl
  | some b => exact congrArg some (List.take_append_drop n b)

theorem answersReads : AnswersReads onRead where
  overflow s a b size count h := by
    refine ends_served .read (fun _ t ht ↦ And.intro rfl ht) fun id hs ↦ ?_
    dsimp only
    rw [extent?_of_le h]
    exact And.intro rfl (Reported.refl s)
  missed s a b size count h := by
    refine ends_served .read (fun _ t ht ↦ And.intro rfl ht) fun id hs ↦ ?_
    dsimp only
    cases extent? size count with
    | none => exact And.intro rfl (Reported.refl s)
    | some n =>
      have hnone : (s.wrapper id).slots.read.callback = none := by
        rw [← Option.not_isSome_iff_eq_none]
        exact Bool.eq_false_iff.1 (h id hs)
      simp only [ends_bind]
      exact ends_delivered (isAlive_of_served hs) (Slots.deliverRead_none hnone _)
        (events_of_report _) fun t ht ↦ And.intro (congrArg _ (map_bufferOctets b n)) ht.reported
  idle s a b size count id hlt hb hs hi := by
    refine ends_served_some .read hs ?_
    have hroom : bufferOctets b (size.toNat * count.toNat) = [] := by
      rcases hb with hb | rfl
      · rw [hb, bufferOctets, List.take_zero]
      · exact List.take_nil
    have hput := map_bufferOctets b (size.toNat * count.toNat)
    dsimp only
    rw [extent?_of_lt hlt]
    simp only [ends_bind]
    rw [hroom] at hput ⊢
    exact ends_delivered (isAlive_of_served hs) (Slots.deliverRead_nil hi) (events_of_notes [])
      fun t ht ↦ And.intro (congrArg _ hput) ht.reported
  called s a b size count id c room hlt hne hb hs hc := by
    refine ends_served_some .read hs ?_
    have hlength : room.length = size.toNat * count.toNat := hb.2
    have hroom : room ≠ [] := by
      rintro rfl
      exact hne hlength.symm
    obtain ⟨o, filled, rs, hd, ho, hfilled⟩ := Slots.deliverRead_some hc hroom
    dsimp only
    rw [extent?_of_lt hlt]
    simp only [ends_bind]
    rw [bufferOctets_of_hands hb]
    refine ends_delivered (isAlive_of_served hs) hd rfl fun t ht ↦ ?_
    rw [ho]
    refine ⟨rfl, ⟨filled, hfilled, ?_⟩, ht⟩
    rw [hlength]
    rfl

/-! ## Counters -/

theorem answersProgress : AnswersProgress onProgress where
  missed s a p h := by
    refine ends_served .progress (fun _ t ht ↦ And.intro rfl ht) fun id hs ↦ ?_
    have hnone : (s.wrapper id).slots.progress.callback = none := by
      rw [← Option.not_isSome_iff_eq_none]
      exact Bool.eq_false_iff.1 (h id hs)
    have hd : (s.wrapper id).slots.deliverProgress p =
        ⟨.done progressContinue, (s.wrapper id).slots, []⟩ := by
      rw [Slots.deliverProgress, hnone]
    dsimp only
    rw [ends_bind]
    exact ends_delivered (isAlive_of_served hs) hd (events_of_notes [])
      fun t ht ↦ ⟨rfl, ht.reported⟩
  called s a p id c hs hc := by
    refine ends_served_some .progress hs ?_
    have hd := Slots.deliverProgress.eq_1 (s.wrapper id).slots p
    rw [hc] at hd
    dsimp only at hd ⊢
    generalize c.run p (s.wrapper id).slots.progress.data = reply at hd ⊢
    rw [ends_bind]
    refine ends_delivered (isAlive_of_served hs) hd (events_of_notes _) fun t ht ↦ ⟨?_, ht⟩
    rcases reply.1.outcome with (_ | _) | _
    · rfl
    · rfl
    · rfl

/-- Whatever the registry leads to, and whatever the engine hands over: every trampoline finds out
first whether there is a callback that can be run, runs it once if there is, and makes sure of what
is answered. -/
theorem trampolines_answer :
    AnswersChunks onWrite .write (·.write) (fun x y ↦ { x with write := y }) ∧
    AnswersChunks onHeader .header (·.header) (fun x y ↦ { x with header := y }) ∧
    AnswersReads onRead ∧ AnswersProgress onProgress := by
  refine ⟨?_, ?_, answersReads, answersProgress⟩
  · exact answersChunks (fun _ _ ↦ rfl) (fun _ ↦ rfl) fun _ ↦ rfl
  · exact answersChunks (fun _ _ ↦ rfl) (fun _ ↦ rfl) fun _ ↦ rfl

/-- A callback that is to forward headers and has no sink to forward them to asks for a pause. -/
theorem forwarding_nowhere_pauses :
    Ends (onHeader (.handle 0) (some [1, 2, 3]) 1 2)
      { State.start {} .bare .bare with
        registry := ⟨[(.handle 0, 7)]⟩
        wrappers := [(7, { handle := some 0, slots.header.callback := some .forward })] }
      fun r _ ↦ r = pauseCount :=
  (trampolines_answer.2.1.called _ (.handle 0) (some [1, 2, 3]) 1 2 7 .forward [1, 2] (by decide)
    ⟨⟨[3], rfl⟩, rfl⟩ rfl rfl).mono fun _ _ h ↦ h.1

end NativeTransfer
