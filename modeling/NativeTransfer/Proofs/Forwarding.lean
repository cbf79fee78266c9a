import NativeTransfer.Proofs.Sentinels

/-!
# Forwarding across a pause

A chunk that is answered with the request to pause is delivered again, unchanged, before the next
one. A sink may have taken a part of it by then, and the slot keeps no record of that, so the part
is offered once more. What the sink has got and what is still to be delivered make up the whole of
the chunks as long as no delivery has both taken something and asked for a pause, and never again
after one has: octets are not lost, but those are repeated.

## The feed

The chunks that are still to be delivered and the slots that they go to make up a `Feed`, and one
delivery takes a feed to the next. The next chunk stays where it is if a pause was asked for, and is
gone otherwise. What is compared from one feed to the next is the whole: the octets that the sink
has and those that are still to come. A delivery preserves it or adds to it, and adds to it exactly
if it spoils, that is, if the sink has taken something of a chunk that will come again. Since
nothing is ever taken out of the whole, one delivery that spoils is never made up for.
-/

namespace NativeTransfer

/-! ## One chunk -/

/-- A chunk is taken from its front, and all of it if the sink says so. -/
theorem Sink.writeAll_spec (s : Sink) (chunk : Bytes) :
    ∃ got, got <+: chunk ∧ accepted (s.writeAll chunk).sink = s.accepted ++ got ∧
      ((s.writeAll chunk).outcome = .done true → got = chunk) := by
  fun_induction writeAll s chunk with
  | case1 s => exact ⟨[], List.nil_prefix, (List.append_nil _).symm, fun _ ↦ rfl⟩
  | case2 s x xs r s' => exact ⟨_, List.take_prefix _ _, accepted_after s _, nofun⟩
  | case3 s x xs r s' n hr rest ih =>
    obtain ⟨got, hgot, haccepted, hall⟩ := ih
    -- What was taken at first and what is left of the chunk make it up again.
    have htaken : r.taken = n + 1 := by rw [Reception.taken, hr]
    have hsplit : (x :: xs).take r.taken ++ xs.drop n = x :: xs := by
      rw [htaken, List.take_succ_cons, List.cons_append, List.take_append_drop]
    refine ⟨(x :: xs).take r.taken ++ got, ?_, ?_, fun hdone ↦ ?_⟩
    · conv_rhs => rw [← hsplit]
      exact (List.prefix_append_right_inj _).2 hgot
    · rw [← List.append_assoc, ← accepted_after s (x :: xs)]
      exact haccepted
    · rw [hall hdone, hsplit]
  | case4 s x xs r s' => exact ⟨_, List.take_prefix _ _, accepted_after s _, nofun⟩
  | case5 s x xs r s' => exact ⟨_, List.take_prefix _ _, accepted_after s _, nofun⟩

namespace ChunkSlot

variable {c : ChunkSlot} {x : Slots} {s : Sink}

/-- All that the sink of a slot has taken, if it has one. -/
def received (c : ChunkSlot) (x : Slots) : Bytes :=
  match (c.slot x).data with
  | .writer s => s.accepted
  | _ => []

/-- A slot that forwards to a sink. -/
def Forwards (c : ChunkSlot) (x : Slots) (s : Sink) : Prop := c.slot x = ⟨some .forward, .writer s⟩

theorem Forwards.received (hx : c.Forwards x s) : c.received x = s.accepted := by
  rw [ChunkSlot.received, hx]

/-- A delivery leaves a slot that forwards, to a sink that has got a part of the chunk, and all of
it unless a pause is asked for. -/
theorem Forwards.deliver (hx : c.Forwards x s) (chunk : Bytes) :
    ∃ s' got, c.Forwards (c.deliver x chunk).slots s' ∧ got <+: chunk ∧
      s'.accepted = s.accepted ++ got ∧
      ((c.deliver x chunk).outcome.answer pauseCount ≠ pauseCount → got = chunk) := by
  have hcallback : (c.slot x).callback = some .forward := by rw [hx]
  have hrun : WriteCallback.forward.run chunk (c.slot x).data =
      (⟨(s.writeAll chunk).outcome, .writer (s.writeAll chunk).sink, (s.writeAll chunk).notes⟩,
        .forward) := by
    rw [hx]
    rfl
  obtain ⟨houtcome, hslots⟩ := c.deliver_some hcallback chunk
  rw [hrun] at houtcome hslots
  obtain ⟨got, hgot, haccepted, hall⟩ := s.writeAll_spec chunk
  refine ⟨(s.writeAll chunk).sink, got, ?_, hgot, haccepted, fun hne ↦ hall ?_⟩
  · rw [Forwards, hslots, slot_put]
  · rw [houtcome] at hne
    cases ho : (s.writeAll chunk).outcome with
    | panicked m =>
      rw [ho] at hne
      exact absurd rfl hne
    | done accepted =>
      rw [ho] at hne
      cases accepted with
      | false => exact absurd rfl hne
      | true => rfl

end ChunkSlot

/-! ## Deliveries one after the other -/

/-- What is still to be delivered, and the slots to which it is. -/
structure Feed where
  rest : List Bytes
  slots : Slots

namespace Feed

variable (c : ChunkSlot)

/-- The next delivery. A chunk that is answered with the request to pause stays the next one. -/
def next (f : Feed) : Feed :=
  match f.rest with
  | [] => f
  | chunk :: rest =>
    ⟨if (c.deliver f.slots chunk).outcome.answer pauseCount = pauseCount then f.rest else rest,
      (c.deliver f.slots chunk).slots⟩

/-- After so many deliveries. -/
def after (f : Feed) : Nat → Feed
  | 0 => f
  | n + 1 => (f.after n).next c

/-- What the sink has got, and what it is still to get. -/
def whole (f : Feed) : Bytes := c.received f.slots ++ f.rest.flatten

/-- A part of the next chunk will be taken, and the chunk is to be delivered again nevertheless. -/
def Spoils (f : Feed) : Prop :=
  ∃ chunk rest, f.rest = chunk :: rest ∧
    (c.deliver f.slots chunk).outcome.answer pauseCount = pauseCount ∧
    c.received (c.deliver f.slots chunk).slots ≠ c.received f.slots

variable {c : ChunkSlot} {f : Feed} {s : Sink}

theorem next_nil (hf : f.rest = []) : f.next c = f := by
  rw [next, hf]

theorem next_cons {chunk : Bytes} {rest : List Bytes} (hf : f.rest = chunk :: rest) :
    f.next c = ⟨if (c.deliver f.slots chunk).outcome.answer pauseCount = pauseCount then
        chunk :: rest else rest, (c.deliver f.slots chunk).slots⟩ := by
  rw [next, hf]

/-- One delivery leaves a slot that forwards, and what its sink has got is got for good. Nothing is
lost of the whole, and what is repeated in it is what was taken of a chunk that is still to be
delivered. -/
theorem next_spec (hf : c.Forwards f.slots s) :
    (∃ s', c.Forwards (f.next c).slots s') ∧
    c.received f.slots <+: c.received (f.next c).slots ∧
    (f.whole c).Sublist ((f.next c).whole c) ∧
    ((f.next c).whole c = f.whole c ↔ ¬ f.Spoils c) := by
  cases hrest : f.rest with
  | nil =>
    rw [next_nil hrest]
    refine ⟨⟨s, hf⟩, List.prefix_refl _, List.Sublist.refl _, iff_of_true rfl ?_⟩
    rintro ⟨chunk, rest, hcons, -⟩
    rw [hrest] at hcons
    cases hcons
  | cons chunk rest =>
    obtain ⟨s', got, hs', -, haccepted, hall⟩ := hf.deliver chunk
    have hspoils : f.Spoils c ↔
        (c.deliver f.slots chunk).outcome.answer pauseCount = pauseCount ∧ got ≠ [] := by
      constructor
      · rintro ⟨chunk', rest', hcons, hpause, hgot⟩
        obtain ⟨rfl, rfl⟩ := List.cons.inj (hrest.symm.trans hcons)
        refine ⟨hpause, fun hnil ↦ hgot ?_⟩
        rw [hs'.received, hf.received, haccepted, hnil, List.append_nil]
      · rintro ⟨hpause, hgot⟩
        refine ⟨chunk, rest, hrest, hpause, fun hsame ↦ hgot ?_⟩
        rw [hs'.received, hf.received, haccepted] at hsame
        exact List.self_eq_append_right.1 hsame.symm
    rw [next_cons hrest, hspoils, whole, whole, hs'.received, hf.received, haccepted, hrest]
    refine ⟨⟨s', hs'⟩, List.prefix_append _ _, ?_⟩
    by_cases hpause : (c.deliver f.slots chunk).outcome.answer pauseCount = pauseCount
    · rw [if_pos hpause]
      refine ⟨(List.sublist_append_left _ _).append_right _, ?_⟩
      rw [List.append_left_inj, List.append_right_eq_self, not_and_not_right]
      exact ⟨fun hnil _ ↦ hnil, fun h ↦ h hpause⟩
    · have hsame : s.accepted ++ got ++ rest.flatten = s.accepted ++ (chunk :: rest).flatten := by
        rw [hall hpause, List.flatten_cons, List.append_assoc]
      rw [if_neg hpause]
      dsimp only
      rw [hsame]
      exact ⟨List.Sublist.refl _, iff_of_true rfl fun h ↦ hpause h.1⟩

theorem exists_forwards_after (hf : c.Forwards f.slots s) (n : Nat) :
    ∃ s', c.Forwards (f.after c n).slots s' := by
  induction n with
  | zero => exact ⟨s, hf⟩
  | succ n ih =>
    obtain ⟨s', hs'⟩ := ih
    exact (next_spec hs').1

theorem received_after_mono (hf : c.Forwards f.slots s) {m n : Nat} (hmn : m ≤ n) :
    c.received (f.after c m).slots <+: c.received (f.after c n).slots := by
  induction hmn with
  | refl => exact List.prefix_refl _
  | step _ ih =>
    obtain ⟨s', hs'⟩ := exists_forwards_after hf _
    exact ih.trans (next_spec hs').2.1

theorem whole_sublist_after (hf : c.Forwards f.slots s) (n : Nat) :
    (f.whole c).Sublist ((f.after c n).whole c) := by
  induction n with
  | zero => exact List.Sublist.refl _
  | succ n ih =>
    obtain ⟨s', hs'⟩ := exists_forwards_after hf n
    exact ih.trans (next_spec hs').2.2.1

/-- The whole is as it was exactly if nothing was taken of a chunk that was delivered again. -/
theorem whole_after_eq_iff (hf : c.Forwards f.slots s) (n : Nat) :
    (f.after c n).whole c = f.whole c ↔ ∀ m < n, ¬ (f.after c m).Spoils c := by
  induction n with
  | zero => exact iff_of_true rfl nofun
  | succ n ih =>
    obtain ⟨s', hs'⟩ := exists_forwards_after hf n
    obtain ⟨-, -, hmore, hsame⟩ := next_spec hs'
    rw [Nat.forall_lt_succ_right, ← ih, ← hsame, after]
    constructor
    · intro hwhole
      -- What lies between two equal lists, of which the one is in the other, is equal to both.
      have hbetween : (f.after c n).whole c = f.whole c := by
        refine ((whole_sublist_after hf n).eq_of_length_le ?_).symm
        rw [← hwhole]
        exact hmore.length_le
      exact ⟨hbetween, hwhole.trans hbetween.symm⟩
    · rintro ⟨hwhole, hnext⟩
      exact hnext.trans hwhole

end Feed

/-- Whatever a sink does with what it is offered, and however long chunks are delivered through a
slot that forwards to it: nothing is lost of the chunks and of their order. What the sink has got
and what is still to be delivered are just the chunks if nothing was taken of a chunk that was to be
delivered again, and only then. As long as that is so, the sink has at every moment got a beginning
of the chunks; and where all of them were delivered in the end, it is so exactly if that was so at
every moment. -/
theorem forwarding_is_exact_iff (c : ChunkSlot) (x : Slots) (s : Sink)
    (hx : c.slot x = ⟨some .forward, .writer s⟩) (chunks : List Bytes) (n : Nat) :
    let f : Feed := ⟨chunks, x⟩
    let whole := c.received (f.after c n).slots ++ (f.after c n).rest.flatten
    let spared := ∀ m < n, ¬ (f.after c m).Spoils c
    let ordered := ∀ m ≤ n, c.received (f.after c m).slots <+: s.accepted ++ chunks.flatten
    (s.accepted ++ chunks.flatten).Sublist whole ∧
    (whole = s.accepted ++ chunks.flatten ↔ spared) ∧
    (spared → ordered) ∧
    ((f.after c n).rest = [] → (ordered ↔ spared)) := by
  intro f whole spared ordered
  have hf : c.Forwards f.slots s := hx
  have hwhole : f.whole c = s.accepted ++ chunks.flatten := by rw [Feed.whole, hf.received]
  have hsub := Feed.whole_sublist_after hf n
  have hiff := Feed.whole_after_eq_iff hf n
  rw [hwhole] at hsub hiff
  have hordered : spared → ordered := fun hspared m hm ↦ by
    refine (Feed.received_after_mono hf hm).trans ?_
    rw [← hiff.2 hspared]
    exact List.prefix_append _ _
  refine ⟨hsub, hiff, hordered, fun hrest ↦ ⟨fun hbegin ↦ hiff.1 ?_, hordered⟩⟩
  -- A beginning of the chunks that is no shorter than all of them.
  rw [Feed.whole, hrest, List.flatten_nil, List.append_nil] at hsub ⊢
  exact (hbegin n (Nat.le_refl n)).eq_of_length_le hsub.length_le

/-- A sink that fails before it takes anything gets every octet once. -/
theorem failure_before_taking_is_harmless :
    let f : Feed := ⟨[[97, 98]],
      { write := ⟨some .forward, .writer (Script.sink [some .error, some (.take 1)])⟩ }⟩
    (f.after .body 2).rest = [] ∧
      ∀ m ≤ 2, ChunkSlot.received .body (f.after .body m).slots <+: [97, 98] := by
  intro f
  obtain ⟨-, hwhole, hordered, -⟩ := forwarding_is_exact_iff .body f.slots
    (Script.sink [some .error, some (.take 1)]) rfl [[97, 98]] 2
  exact ⟨by decide +kernel, hordered (hwhole.1 (by decide +kernel))⟩

/-- A sink that takes a part of a chunk before it fails gets that part twice. -/
theorem failure_after_taking_repeats :
    let f : Feed := ⟨[[97, 98]],
      { write := ⟨some .forward, .writer (Script.sink [some (.take 1), some .error])⟩ }⟩
    (f.after .body 2).rest = [] ∧ ChunkSlot.received .body (f.after .body 2).slots = [97, 97, 98] ∧
      ¬ ChunkSlot.received .body (f.after .body 2).slots <+: [[97, 98]].flatten := by
  intro f
  decide +kernel

end NativeTransfer
