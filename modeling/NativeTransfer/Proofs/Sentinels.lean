import NativeTransfer.Proofs.Trampolines
import NativeTransfer.Script.Caller

/-!
# Counts that are no counts

The engine is answered with one number, and two numbers mean something else than a count. Nothing
keeps a count from being one of them: a chunk of just that length is answered in the same way
whether it is accepted or not, and so is a request for octets that brings just so many. At every
other count the engine can tell what is meant.

## How an answer is read

An answer is a number, and the engine compares it with the two numbers that stand for a pause and
for an abort before it takes it for a count. A chunk has one count that counts as accepted, its
length. So the answer is ambiguous for chunks of just one length, and a request for octets is
ambiguous for just one count. Both are shown to be the only ones, over all callbacks that do not
give up.
-/

namespace NativeTransfer

/-! ## Chunks -/

/-- The slots that chunks are delivered to. -/
inductive ChunkSlot
  | body
  | header

namespace ChunkSlot

def slot : ChunkSlot → Slots → Slot WriteCallback
  | body, x => x.write
  | header, x => x.header

def put : ChunkSlot → Slots → Slot WriteCallback → Slots
  | body, x, y => { x with write := y }
  | header, x, y => { x with header := y }

def deliver : ChunkSlot → Slots → Bytes → Delivery Nat
  | body, x, chunk => x.deliverWrite chunk
  | header, x, chunk => x.deliverHeader chunk

@[simp] theorem slot_put (c : ChunkSlot) (x : Slots) (y : Slot WriteCallback) :
    c.slot (c.put x y) = y := by
  cases c <;> rfl

variable {c : ChunkSlot} {x : Slots} {f : WriteCallback}

theorem deliver_some (hf : (c.slot x).callback = some f) (chunk : Bytes) :
    (c.deliver x chunk).outcome = (f.run chunk (c.slot x).data).1.outcome.map
        (fun accepted ↦ if accepted then chunk.length else pauseCount) ∧
      (c.deliver x chunk).slots = c.put x ⟨some (f.run chunk (c.slot x).data).2,
        (f.run chunk (c.slot x).data).1.data⟩ := by
  cases c with
  | body =>
    have hslot := Slot.deliverChunk_some hf .write chunk
    exact ⟨congrArg (·.1) hslot, congrArg (fun r ↦ { x with write := r.2.1 }) hslot⟩
  | header =>
    have hslot := Slot.deliverChunk_some hf .header chunk
    exact ⟨congrArg (·.1) hslot, congrArg (fun r ↦ { x with header := r.2.1 }) hslot⟩

/-- A chunk is answered with the request to pause if it is refused, or has just that length. -/
theorem deliver_eq_pauseCount_iff (hf : (c.slot x).callback = some f) {chunk : Bytes}
    {accepted : Bool} (ho : (f.run chunk (c.slot x).data).1.outcome = .done accepted) :
    (c.deliver x chunk).outcome = .done pauseCount ↔
      accepted = false ∨ chunk.length = pauseCount := by
  rw [(deliver_some hf chunk).1, ho, Outcome.map, Outcome.done.injEq]
  cases accepted with
  | false => exact iff_of_true rfl (.inl rfl)
  | true => exact ⟨.inr, fun h ↦ h.resolve_left nofun⟩

end ChunkSlot

/-! ## Requests for octets -/

namespace Slots

variable {x : Slots} {f : ReadCallback} {room : Bytes} {r : ReadAnswer}

/-- A request is answered with a valid count, and else with the request to abort. -/
theorem deliverRead_done (hf : x.read.callback = some f) (hroom : room ≠ [])
    (ho : (f.run room x.read.data).1.outcome = .done r) :
    (x.deliverRead room).outcome =
      .done (if validCount r.count room.length then r.count.toInt.toNat else abortCount,
        r.written.overlay room) := by
  simp only [deliverRead, hf, if_neg hroom, ho]
  split
  · rfl
  · rfl

/-- A request is answered with the request to abort if its count is not valid, or is just that. -/
theorem deliverRead_eq_abortCount_iff (hf : x.read.callback = some f) (hroom : room ≠ [])
    (ho : (f.run room x.read.data).1.outcome = .done r) :
    (∃ left, (x.deliverRead room).outcome = .done (abortCount, left)) ↔
      r.count.toInt < 0 ∨ (room.length : Int) < r.count.toInt ∨ r.count.toInt = abortCount := by
  rw [deliverRead_done hf hroom ho]
  simp only [Outcome.done.injEq, Prod.mk.injEq, exists_and_left, exists_eq', and_true]
  by_cases hv : validCount r.count room.length = true
  · obtain ⟨hnonneg, hle⟩ := validCount_iff.1 hv
    rw [if_pos hv]
    omega
  · have hbad := mt validCount_iff.2 hv
    rw [if_neg hv]
    refine iff_of_true rfl ?_
    omega

/-- A callback for uploads, if there is one, does not give up. -/
def Answers (x : Slots) (room : Bytes) : Prop :=
  ∀ f, x.read.callback = some f → ∃ r, (f.run room x.read.data).1.outcome = .done r

end Slots

/-! ## Both -/

/-- Whatever callbacks there are that do not give up: a chunk is answered with the request to pause
exactly if it is refused or has just that length, and a request for octets is answered with the
request to abort exactly if there is no callback, or its count is negative, or above the room that
there is, or just that number. -/
theorem sentinel_answers_iff :
    (∀ (c : ChunkSlot) (x : Slots) (f : WriteCallback) (chunk : Bytes) (accepted : Bool),
      (c.slot x).callback = some f →
      (f.run chunk (c.slot x).data).1.outcome = .done accepted →
        ((c.deliver x chunk).outcome = .done pauseCount ↔
          accepted = false ∨ chunk.length = pauseCount)) ∧
    ∀ (x : Slots) (room : Bytes), room ≠ [] → x.Answers room →
      ((∃ left, (x.deliverRead room).outcome = .done (abortCount, left)) ↔
        x.read.callback = none ∨ ∃ f r, x.read.callback = some f ∧
          (f.run room x.read.data).1.outcome = .done r ∧
          (r.count.toInt < 0 ∨ (room.length : Int) < r.count.toInt ∨
            r.count.toInt = abortCount)) := by
  refine ⟨fun c x f chunk accepted hf ho ↦ ChunkSlot.deliver_eq_pauseCount_iff hf ho, ?_⟩
  intro x room hroom hanswers
  cases hf : x.read.callback with
  | none =>
    refine iff_of_true ⟨room, ?_⟩ (.inl rfl)
    rw [Slots.deliverRead_none hf]
  | some f =>
    obtain ⟨r, ho⟩ := hanswers f hf
    rw [Slots.deliverRead_eq_abortCount_iff hf hroom ho]
    constructor
    · exact fun h ↦ .inr ⟨f, r, rfl, ho, h⟩
    · rintro (h | ⟨g, q, hg, hq, h⟩)
      · cases h
      · obtain rfl := Option.some.inj hg
        obtain rfl := Outcome.done.inj (ho.symm.trans hq)
        exact h

/-- A short chunk that is accepted is not taken for one that is refused, and a short count that fits
is not taken for a failure. -/
theorem short_counts_are_no_sentinels :
    let x : Slots :=
      { write := ⟨some (Script.writeCallback .write [some .accept]), .empty⟩
        read := ⟨some (Script.readCallback [some (.report 2)]), .empty⟩ }
    (x.deliverWrite [1, 2, 3]).outcome ≠ .done pauseCount ∧
      ¬ ∃ left, (x.deliverRead [0, 0]).outcome = .done (abortCount, left) := by
  intro x
  constructor
  · intro h
    rcases (sentinel_answers_iff.1 .body x _ [1, 2, 3] true rfl rfl).1 h with hfalse | hlength
    · cases hfalse
    · exact absurd hlength (by decide)
  · have hanswers : x.Answers [0, 0] := by
      rintro f ⟨⟩
      exact ⟨⟨[], 2⟩, rfl⟩
    intro h
    rcases (sentinel_answers_iff.2 x [0, 0] (List.cons_ne_nil _ _) hanswers).1 h with
      hnone | ⟨f, r, ⟨⟩, hr, hcount⟩
    · cases hnone
    · obtain rfl := Outcome.done.inj hr
      exact absurd hcount (by decide)

/-- A chunk that is accepted is answered as if it was refused, and a request that brings as much as
there is room for as if it failed: both have just the length that means something else. -/
theorem count_is_taken_for_sentinel :
    let f := Script.writeCallback .write [some .accept]
    let chunk : Bytes := List.replicate pauseCount 0
    let x : Slots := { write := ⟨some f, .empty⟩ }
    let g := Script.readCallback [some (.report 0x10000000)]
    let room : Bytes := List.replicate abortCount 0
    let y : Slots := { read := ⟨some g, .empty⟩ }
    ((f.run chunk .empty).1.outcome = .done true ∧
      (x.deliverWrite chunk).outcome = .done pauseCount) ∧
    (g.run room .empty).1.outcome = .done ⟨[], 0x10000000⟩ ∧
      Slots.validCount 0x10000000 room.length = true ∧
      ∃ left, (y.deliverRead room).outcome = .done (abortCount, left) := by
  intro f chunk x g room y
  have hf : (f.run chunk .empty).1.outcome = .done true := rfl
  have hg : (g.run room .empty).1.outcome = .done ⟨[], 0x10000000⟩ := rfl
  have hlength : room.length = abortCount := List.length_replicate
  have hroom : room ≠ [] := List.ne_nil_of_length_pos (by rw [hlength]; decide)
  refine ⟨⟨hf, ?_⟩, hg, ?_, ?_⟩
  · exact (ChunkSlot.deliver_eq_pauseCount_iff (c := .body) rfl hf).2 (.inr List.length_replicate)
  · rw [hlength]
    decide
  · exact (Slots.deliverRead_eq_abortCount_iff rfl hroom hg).2 (.inr (.inr (by decide)))

end NativeTransfer
