import NativeTransfer.Proofs.Sentinels

/-!
# Octets pulled from a source

A slot whose callback pulls from a source asks it once for each request that comes with room, and
answers with the number that the source claims if there was room for as many. The number crosses as
a signed one and back. Since no slice has as many as 2⁶³ octets, one that turns negative on the way
was too great in any case. What a source puts into a buffer and claims is what the engine finds
there, so over any requests the engine is handed the octets of the source in their order.

## One request and many

`Pulls` is the slot in which the library's own callback finds a source. One request leaves such a
slot behind, with the source one exchange further on if there was room, and as it was otherwise.
What many requests come to is an induction on the buffers, in which the source of each request is
the one that the requests before have left. The octets that were put out are compared with those
that were handed over request by request, so nothing is said of a source but that it fills what it
claims.
-/

namespace NativeTransfer

/-! ## Numbers that cross as signed ones -/

theorem toInt_toInt64 (n : UInt64) :
    n.toInt64.toInt =
      if n.toNat < 0x8000000000000000 then (n.toNat : Int)
      else (n.toNat : Int) - 0x10000000000000000 := by
  have hbits : n.toInt64.toInt = n.toBitVec.toInt := rfl
  have hnat : n.toBitVec.toNat = n.toNat := rfl
  rw [hbits, BitVec.toInt_eq_toNat_cond, hnat]
  split <;> split <;> omega

/-- No slice of memory has more octets than the greatest signed number. -/
def Bytes.IsSlice (b : Bytes) : Prop := b.length < 0x8000000000000000

instance (b : Bytes) : Decidable b.IsSlice := inferInstanceAs (Decidable (_ < _))

namespace Slots

variable {n : UInt64} {room : Bytes}

theorem validCount_toInt64 (hroom : room.IsSlice) :
    validCount n.toInt64 room.length = true ↔ n.toNat ≤ room.length := by
  have hn := n.toNat_lt
  rw [Bytes.IsSlice] at hroom
  rw [validCount_iff, toInt_toInt64]
  split
  · omega
  · omega

theorem toNat_toInt64 (hroom : room.IsSlice) (h : n.toNat ≤ room.length) :
    n.toInt64.toInt.toNat = n.toNat := by
  rw [toInt_toInt64, if_pos (Nat.lt_of_le_of_lt h hroom), Int.toNat_natCast]

theorem not_validCount_neg_one (capacity : Nat) : ¬ validCount (-1) capacity = true :=
  fun hv ↦ absurd (validCount_iff.1 hv).1 (by decide)

end Slots

/-! ## Supplies -/

/-- What is put out: as many octets as are claimed. -/
def Supply.octets : Supply → Bytes
  | gave _ bytes count => bytes.take count.toNat
  | failed _ => []
  | panicked _ _ => []

/-- Whether a number of octets is claimed. -/
def Supply.isGift : Supply → Bool
  | gave _ _ _ => true
  | failed _ => false
  | panicked _ _ => false

/-- What a request with a buffer is answered with. -/
def Supply.answer (buffer : Bytes) : Supply → Outcome (Nat × Bytes)
  | gave _ bytes count =>
    .done (if count.toNat ≤ buffer.length then count.toNat else abortCount, bytes.overlay buffer)
  | failed _ => .done (abortCount, buffer)
  | panicked _ m => .panicked m

/-- What is claimed was put into the buffer, and there was room for it. -/
def Supply.Fills (room : Nat) : Supply → Prop
  | gave _ bytes count => count.toNat ≤ bytes.length ∧ count.toNat ≤ room
  | failed _ => True
  | panicked _ _ => True

theorem Bytes.take_overlay {b buffer : Bytes} {n : Nat} (hb : n ≤ b.length)
    (hbuffer : n ≤ buffer.length) : (b.overlay buffer).take n = b.take n := by
  rw [overlay, List.take_append_of_le_length, List.take_take, Nat.min_eq_left hbuffer]
  rw [List.length_take]
  omega

theorem Bytes.overlay_nil (buffer : Bytes) : Bytes.overlay [] buffer = buffer := by
  rw [overlay, List.take_nil]
  rfl

/-! ## One request -/

namespace Slots

variable {x : Slots} {s : Source} {room : Bytes}

/-- A slot that pulls from a source. -/
def Pulls (x : Slots) (s : Source) : Prop := x.read = ⟨some .pull, .reader s⟩

/-- What a request hands to the engine: so many octets from the front of the buffer as it is
answered with, if the answer is a number that the source has claimed. -/
def handed (x : Slots) (room : Bytes) : Bytes :=
  match x.read.data, (x.deliverRead room).outcome with
  | .reader s, .done (n, left) => if (s.next room.length).isGift then left.take n else []
  | _, _ => []

theorem Pulls.deliver_nil (hx : x.Pulls s) : x.deliverRead [] = ⟨.done (0, []), x, []⟩ :=
  deliverRead_nil (by rw [isInstalled, hx]; rfl)

/-- Where there is room the source is asked once, and the request is answered with what it says. -/
theorem Pulls.deliver (hx : x.Pulls s) (hroom : room ≠ []) (hslice : room.IsSlice) :
    (x.deliverRead room).outcome = (s.next room.length).answer room ∧
      (x.deliverRead room).slots =
        { x with read := ⟨some .pull, .reader (s.after room.length)⟩ } := by
  have hcallback : x.read.callback = some .pull := by rw [hx]
  have hrun : (ReadCallback.pull.run room x.read.data).1 = pullOctets room.length (.reader s) := by
    rw [hx]
    rfl
  constructor
  · cases hnext : s.next room.length with
    | gave notes bytes count =>
      have ho : (ReadCallback.pull.run room x.read.data).1.outcome =
          .done ⟨bytes, count.toInt64⟩ := by rw [hrun, pullOctets, hnext]
      rw [deliverRead_done hcallback hroom ho, Supply.answer]
      by_cases hcount : count.toNat ≤ room.length
      · rw [if_pos ((validCount_toInt64 hslice).2 hcount), if_pos hcount,
          toNat_toInt64 hslice hcount]
      · rw [if_neg (mt (validCount_toInt64 hslice).1 hcount), if_neg hcount]
    | failed notes =>
      have ho : (ReadCallback.pull.run room x.read.data).1.outcome = .done ⟨[], -1⟩ := by
        rw [hrun, pullOctets, hnext]
      rw [deliverRead_done hcallback hroom ho, if_neg (not_validCount_neg_one _),
        Bytes.overlay_nil, Supply.answer]
    | panicked notes m =>
      have ho : (ReadCallback.pull.run room x.read.data).1.outcome = .panicked m := by
        rw [hrun, pullOctets, hnext]
      simp only [deliverRead, hcallback, if_neg hroom, ho]
      rfl
  · obtain ⟨o, filled, rs, heq, -⟩ := deliverRead_some hcallback hroom
    rw [heq, hrun, pullOctets]
    cases s.next room.length with
    | gave | failed | panicked => rfl

/-- What is handed over is what the source put out, if it fills what it claims. -/
theorem Pulls.handed (hx : x.Pulls s) (hroom : room ≠ []) (hslice : room.IsSlice)
    (hf : (s.next room.length).Fills room.length) :
    x.handed room = (s.next room.length).octets := by
  have hdata : x.read.data = .reader s := by rw [hx]
  have houtcome := (hx.deliver hroom hslice).1
  cases hnext : s.next room.length with
  | gave notes bytes count =>
    rw [hnext] at houtcome hf
    obtain ⟨hbytes, hcount⟩ := hf
    rw [Supply.answer, if_pos hcount] at houtcome
    simp only [Slots.handed, hdata, houtcome, hnext, Supply.isGift, if_true]
    exact Bytes.take_overlay hbytes hcount
  | failed | panicked =>
    rw [hnext] at houtcome
    simp only [Slots.handed, hdata, houtcome, hnext, Supply.answer]
    rfl

/-- Without a source there is nothing to ask, and whatever there is room for is aborted. -/
theorem deliverRead_sourceless (hx : x.read.callback = some .pull)
    (hd : ∀ s, x.read.data ≠ .reader s) :
    (x.deliverRead room).slots = x ∧
      (x.deliverRead room).outcome = .done (if room = [] then 0 else abortCount, room) := by
  by_cases hroom : room = []
  · rw [hroom, deliverRead_nil (by rw [isInstalled, hx]; rfl), if_pos rfl]
    exact ⟨rfl, rfl⟩
  · have hrun : ReadCallback.pull.run room x.read.data =
        (⟨.done ⟨[], -1⟩, x.read.data, []⟩, .pull) := by
      rw [ReadCallback.run, pullOctets]
      exact fun s hs ↦ absurd hs (hd s)
    rw [deliverRead_done hx hroom (congrArg (·.1.outcome) hrun),
      if_neg (not_validCount_neg_one _), if_neg hroom, Bytes.overlay_nil]
    obtain ⟨o, filled, rs, heq, -⟩ := deliverRead_some hx hroom
    refine ⟨?_, rfl⟩
    rw [heq, hrun, ← hx]

/-! ## Requests one after the other -/

/-- The slots after some requests. -/
def afterReads (x : Slots) (rooms : List Bytes) : Slots :=
  rooms.foldl (fun x room ↦ (x.deliverRead room).slots) x

/-- Every request, with the slots that it is made to. -/
def reads (x : Slots) : List Bytes → List (Slots × Bytes)
  | [] => []
  | room :: rooms => (x, room) :: reads (x.deliverRead room).slots rooms

/-- One request adds one exchange with the source if there is room, and none otherwise. What the
source puts out then is what is handed over. -/
theorem Pulls.step (hx : x.Pulls s) (hslice : room.IsSlice) :
    ∃ es : List (Nat × Supply),
      (x.deliverRead room).slots =
        { x with read := ⟨some .pull, .reader { s with past := s.past ++ es }⟩ } ∧
      es.map Prod.fst = ([room].filter (· ≠ [])).map List.length ∧
      ((∀ e ∈ es, e.2.Fills e.1) → x.handed room = es.flatMap (·.2.octets)) := by
  by_cases hroom : room = []
  · subst hroom
    refine ⟨[], ?_, rfl, fun _ ↦ ?_⟩
    · rw [hx.deliver_nil, List.append_nil, ← hx]
    · have hdata : x.read.data = .reader s := by rw [hx]
      simp only [Slots.handed, hdata, hx.deliver_nil, List.take_nil, ite_self]
      rfl
  · refine ⟨[(room.length, s.next room.length)], (hx.deliver hroom hslice).2, ?_, fun hf ↦ ?_⟩
    · rw [List.filter_singleton, decide_eq_true hroom]
      rfl
    · rw [hx.handed hroom hslice (hf _ (List.mem_singleton.2 rfl)), List.flatMap_singleton]

theorem Pulls.of_eq {y : Slots} {es : List (Nat × Supply)}
    (hy : y = { x with read := ⟨some .pull, .reader { s with past := s.past ++ es }⟩ }) :
    y.Pulls { s with past := s.past ++ es } := by
  rw [hy]
  rfl

/-- The source is asked once for every request that comes with room, and the engine is handed what
it puts out. -/
theorem Pulls.run (hx : x.Pulls s) {rooms : List Bytes}
    (hrooms : ∀ room ∈ rooms, room.IsSlice) :
    ∃ es : List (Nat × Supply),
      x.afterReads rooms =
        { x with read := ⟨some .pull, .reader { s with past := s.past ++ es }⟩ } ∧
      es.map Prod.fst = (rooms.filter (· ≠ [])).map List.length ∧
      ((∀ e ∈ es, e.2.Fills e.1) →
        ((x.reads rooms).flatMap fun p ↦ p.1.handed p.2) = es.flatMap (·.2.octets)) := by
  induction rooms generalizing x s with
  | nil =>
    refine ⟨[], ?_, rfl, fun _ ↦ rfl⟩
    rw [List.append_nil, ← hx]
    rfl
  | cons room rooms ih =>
    obtain ⟨es, hslots, hasked, hhanded⟩ := hx.step (hrooms room List.mem_cons_self)
    obtain ⟨es', hslots', hasked', hhanded'⟩ :=
      ih (.of_eq hslots) fun r hr ↦ hrooms r (List.mem_cons_of_mem room hr)
    refine ⟨es ++ es', ?_, ?_, fun hf ↦ ?_⟩
    · refine hslots'.trans ?_
      rw [hslots, List.append_assoc]
    · rw [List.map_append, hasked, hasked', ← List.map_append, ← List.filter_append]
      rfl
    · rw [reads, List.flatMap_cons, List.flatMap_append,
        hhanded fun e he ↦ hf e (List.mem_append_left es' he),
        hhanded' fun e he ↦ hf e (List.mem_append_right es he)]

theorem Pulls.of_mem_reads (hx : x.Pulls s) {rooms : List Bytes}
    (hrooms : ∀ room ∈ rooms, room.IsSlice) {p : Slots × Bytes} (hp : p ∈ x.reads rooms) :
    p.2.IsSlice ∧ ∃ s', p.1.Pulls s' ∧ s'.answer = s.answer := by
  induction rooms generalizing x s with
  | nil => cases hp
  | cons room rooms ih =>
    rcases List.mem_cons.1 hp with rfl | hp
    · exact ⟨hrooms room List.mem_cons_self, s, hx, rfl⟩
    · obtain ⟨es, hslots, -⟩ := hx.step (hrooms room List.mem_cons_self)
      -- Its answers to the exchanges that it has behind it are those of the source.
      have hrest := ih (Pulls.of_eq hslots) (fun r hr ↦ hrooms r (List.mem_cons_of_mem room hr)) hp
      exact hrest

theorem eq_of_mem_reads (hx : x.read.callback = some .pull) (hd : ∀ s, x.read.data ≠ .reader s)
    {rooms : List Bytes} {p : Slots × Bytes} (hp : p ∈ x.reads rooms) : p.1 = x := by
  induction rooms with
  | nil => cases hp
  | cons room rooms ih =>
    rcases List.mem_cons.1 hp with rfl | hp
    · rfl
    · rw [(deliverRead_sourceless hx hd).1] at hp
      exact ih hp

end Slots

/-- However the buffers come and whatever the source does: a request with room asks the source
once, and one without room does not ask it. A number that the source claims is the answer if there
was room for as many octets, and otherwise, or if the source fails or is missing, the transfer is
aborted. And if the source puts into the buffers what it claims, then the octets that the engine
finds there, as many from each as it is answered with, are all that the source has put out, in its
order. -/
theorem pulling_is_exact (x : Slots) (hx : x.read.callback = some .pull) (rooms : List Bytes)
    (hrooms : ∀ room ∈ rooms, room.IsSlice) :
    (∀ s, x.read.data = .reader s →
      (∀ p ∈ x.reads rooms, ∃ s', p.1.Pulls s' ∧ s'.answer = s.answer ∧
        if p.2 = [] then p.1.deliverRead p.2 = ⟨.done (0, []), p.1, []⟩
        else (p.1.deliverRead p.2).outcome = (s'.next p.2.length).answer p.2 ∧
          (p.1.deliverRead p.2).slots =
            { p.1 with read := ⟨some .pull, .reader (s'.after p.2.length)⟩ }) ∧
      ∃ es : List (Nat × Supply),
        x.afterReads rooms =
          { x with read := ⟨some .pull, .reader { s with past := s.past ++ es }⟩ } ∧
        es.map Prod.fst = (rooms.filter (· ≠ [])).map List.length ∧
        ((∀ e ∈ es, e.2.Fills e.1) →
          ((x.reads rooms).flatMap fun p ↦ p.1.handed p.2) = es.flatMap (·.2.octets))) ∧
    ((∀ s, x.read.data ≠ .reader s) →
      ∀ p ∈ x.reads rooms, p.1 = x ∧ (p.1.deliverRead p.2).slots = p.1 ∧
        (p.1.deliverRead p.2).outcome = .done (if p.2 = [] then 0 else abortCount, p.2)) := by
  constructor
  · intro s hs
    have hpulls : x.Pulls s := by
      rw [Slots.Pulls, ← hx, ← hs]
    refine ⟨fun p hp ↦ ?_, hpulls.run hrooms⟩
    obtain ⟨hslice, s', hp', hanswer⟩ := hpulls.of_mem_reads hrooms hp
    refine ⟨s', hp', hanswer, ?_⟩
    by_cases hroom : p.2 = []
    · rw [if_pos hroom, hroom]
      exact hp'.deliver_nil
    · rw [if_neg hroom]
      exact hp'.deliver hroom hslice
  · intro hd p hp
    have hpx := Slots.eq_of_mem_reads hx hd hp
    rw [hpx]
    exact ⟨rfl, Slots.deliverRead_sourceless hx hd⟩

/-- A source of three octets is asked for two, for none and for two more. -/
theorem pulling_is_exact_across_requests :
    let s : Source := { answer := fun past _ ↦
      if past.isEmpty then .gave [] [97, 98] 2 else .gave [] [99] 1 }
    let x : Slots := { read := ⟨some .pull, .reader s⟩ }
    ((x.reads [[0, 0], [], [0, 0]]).flatMap fun p ↦ p.1.handed p.2) = [97, 98, 99] := by
  intro s x
  obtain ⟨es, hafter, -, hhanded⟩ :=
    ((pulling_is_exact x rfl [[0, 0], [], [0, 0]] (by decide)).1 s rfl).2
  have hreader :
      UserData.reader { s with past := [(2, .gave [] [97, 98] 2), (2, .gave [] [99] 1)] } =
        .reader { s with past := es } := congrArg (·.read.data) hafter
  injection hreader with hsource
  injection hsource with hes
  subst hes
  refine hhanded (List.forall_mem_cons.2 ⟨⟨?_, ?_⟩, List.forall_mem_singleton.2 ⟨?_, ?_⟩⟩)
  all_goals decide

end NativeTransfer
