import Mathlib.Data.List.Induction
import Mathlib.Data.Nat.Find
import Mathlib.Logic.Function.Iterate
import NativeTransfer.Script.Caller

/-!
# Short and interrupted writes

A writer is asked for one write at a time: it takes some of the octets that it is offered, is
interrupted, or does not go on. A chunk is written by a loop that offers what is left of it, write
after write, and nothing in the loop itself bounds their number.

`Sink` is the writer as the loop leaves it, with the interruptions before every settlement. That a
sink can be made of a writer at all is that the writer relents: it is interrupted only finitely
often in a row. So the two are kept apart here, and what is shown of the loop over writers meets the
sinks only where every offer to a sink is seen to be so many turns of the loop.

What the loop keeps is that the octets taken so far and what is left make up the chunk. It is enough
for all that is said of an end: the chunk was written exactly if nothing is left.
-/

namespace NativeTransfer

/-! ## Writers -/

/-- What a single write comes to. -/
inductive Write
  | settled (notes : List Note) (s : Settlement)
  /-- Nothing was taken, and the same octets may be offered again. -/
  | interrupted (notes : List Note)

namespace Write

/-- How many octets were taken. -/
def taken : Write → Nat
  | settled _ (.took n) => n
  | _ => 0

def isInterrupted : Write → Bool
  | settled _ _ => false
  | interrupted _ => true

/-- The octets taken in some writes, each time from the front of what was offered. -/
def octets (writes : List (Bytes × Write)) : Bytes := writes.flatMap fun e ↦ e.1.take e.2.taken

@[simp] theorem octets_append (xs ys : List (Bytes × Write)) :
    octets (xs ++ ys) = octets xs ++ octets ys := List.flatMap_append

@[simp] theorem octets_singleton (chunk : Bytes) (r : Write) :
    octets [(chunk, r)] = chunk.take r.taken := List.flatMap_singleton _ _

end Write

/-- Where octets go, one write at a time. -/
abbrev Writer := Behaviour Bytes Write

namespace Writer

/-- After some offers, each with a write of its own. -/
def afterAll (w : Writer) (offers : List Bytes) : Writer := offers.foldl Behaviour.after w

@[simp] theorem afterAll_nil (w : Writer) : w.afterAll [] = w := rfl

@[simp] theorem afterAll_cons (w : Writer) (chunk : Bytes) (offers : List Bytes) :
    w.afterAll (chunk :: offers) = afterAll (w.after chunk) offers := rfl

theorem afterAll_append (w : Writer) (xs ys : List Bytes) :
    w.afterAll (xs ++ ys) = (w.afterAll xs).afterAll ys := List.foldl_append

@[simp] theorem answer_afterAll (w : Writer) (offers : List Bytes) :
    (w.afterAll offers).answer = w.answer := by
  induction offers generalizing w with
  | nil => rfl
  | cons chunk offers ih => rw [afterAll_cons, ih, Behaviour.answer_after]

@[simp] theorem length_past_afterAll (w : Writer) (offers : List Bytes) :
    (w.afterAll offers).past.length = w.past.length + offers.length := by
  induction offers generalizing w with
  | nil => rfl
  | cons chunk offers ih =>
    rw [afterAll_cons, ih, Behaviour.past_after, List.length_append, List.length_singleton,
      List.length_cons, Nat.add_assoc, Nat.add_comm 1]

/-- Whatever it was offered before, it takes at most what it is offered. -/
def Honest (w : Writer) : Prop :=
  ∀ offers chunk, ((w.afterAll offers).next chunk).taken ≤ chunk.length

theorem Honest.afterAll {w : Writer} (hw : w.Honest) (offers : List Bytes) :
    (w.afterAll offers).Honest := fun more chunk ↦ by
  rw [← afterAll_append]
  exact hw _ chunk

/-- Whatever it was offered before, it is interrupted only finitely often in a row. -/
def Relents (w : Writer) : Prop :=
  ∀ offers chunk,
    ∃ n, (((w.afterAll offers).afterAll (List.replicate n chunk)).next chunk).isInterrupted = false

theorem Relents.afterAll {w : Writer} (hw : w.Relents) (offers : List Bytes) :
    (w.afterAll offers).Relents := fun more chunk ↦ by
  rw [← afterAll_append]
  exact hw _ chunk

end Writer

/-! ## Writers that relent as sinks -/

/-- A writer that is never interrupted for ever. -/
structure Relenting where
  writer : Writer
  relents : writer.Relents

namespace Relenting

variable {w : Relenting} {chunk : Bytes} {notes : List Note}

/-- After some offers, each with a write of its own. -/
def afterAll (w : Relenting) (offers : List Bytes) : Relenting :=
  ⟨w.writer.afterAll offers, w.relents.afterAll offers⟩

/-- After how many interruptions an offer is settled. -/
def interruptions (w : Relenting) (chunk : Bytes) : Nat := Nat.find (w.relents [] chunk)

theorem interruptions_eq (h : w.writer.next chunk = .interrupted notes) :
    w.interruptions chunk = (w.afterAll [chunk]).interruptions chunk + 1 := by
  refine Nat.find_comp_succ (w.relents [] chunk) ((w.afterAll [chunk]).relents [] chunk) ?_
  change ¬ (w.writer.next chunk).isInterrupted = false
  rw [h]
  exact Bool.noConfusion

/-- What becomes of an offer that is made again for as long as it is interrupted. -/
def reception (w : Relenting) (chunk : Bytes) : Reception :=
  match _h : w.writer.next chunk with
  | .settled notes s => .settled notes s
  | .interrupted notes => .interrupted notes ((w.afterAll [chunk]).reception chunk)
termination_by w.interruptions chunk
decreasing_by
  rw [interruptions_eq _h]
  exact Nat.lt_succ_self _

theorem reception_of_settled {s : Settlement} (h : w.writer.next chunk = .settled notes s) :
    w.reception chunk = .settled notes s := by
  rw [reception]
  split <;> simp_all

theorem reception_of_interrupted (h : w.writer.next chunk = .interrupted notes) :
    w.reception chunk = .interrupted notes ((w.afterAll [chunk]).reception chunk) := by
  rw [reception]
  split <;> simp_all

end Relenting

/-- The single writes of an offer. -/
def Reception.writes : Reception → List Write
  | settled notes s => [.settled notes s]
  | interrupted notes r => .interrupted notes :: r.writes

/-- The single writes of some offers. -/
def Sink.writes (past : List (Bytes × Reception)) : List (Bytes × Write) :=
  past.flatMap fun e ↦ e.2.writes.map (e.1, ·)

namespace Relenting

/-- After an offer was settled. -/
def afterOffer (w : Relenting) (chunk : Bytes) : Relenting :=
  w.afterAll (List.replicate (w.reception chunk).writes.length chunk)

end Relenting

/-- A writer that relents as the sink that it is for whoever repeats what was interrupted. -/
def Writer.sink (w : Writer) (h : w.Relents) : Sink :=
  .ofMachine Relenting.afterOffer Relenting.reception ⟨w, h⟩

/-! ## The loop -/

/-- Where the writing of a chunk stands. -/
structure Writing where
  writer : Writer
  left : Bytes
  outcome : Option (Outcome Bool) := none

namespace Writing

/-- After a write of what is left was settled. Where more was claimed than was offered there is no
rest to go on with. -/
def settle (w : Writer) (left : Bytes) : Settlement → Writing
  | .took n =>
    if n = 0 then ⟨w, left, some (.done false)⟩
    else if n ≤ left.length then ⟨w, left.drop n, none⟩
    else
      ⟨w, left, some (.panicked (some ("range start index " ++ toString n ++
        " out of range for slice of length " ++ toString left.length)))⟩
  | .failed => ⟨w, left, some (.done false)⟩
  | .panicked m => ⟨w, left, some (.panicked m)⟩

/-- One turn of the loop, with at most one write. It is at its end when nothing is left, or when a
write has ended it. -/
def turn (x : Writing) : Writing :=
  match x.outcome, x.left with
  | some _, _ => x
  | none, [] => { x with outcome := some (.done true) }
  | none, b :: bs =>
    match x.writer.next (b :: bs) with
    | .settled _ s => settle (x.writer.after (b :: bs)) (b :: bs) s
    | .interrupted _ => { x with writer := x.writer.after (b :: bs) }

variable {w : Writer} {chunk left : Bytes} {notes : List Note} {s : Settlement}

@[simp] theorem writer_settle (w : Writer) (left : Bytes) (s : Settlement) :
    (settle w left s).writer = w := by
  cases s with
  | took n =>
    rw [settle]
    split_ifs <;> rfl
  | failed => rfl
  | panicked m => rfl

theorem take_append_left_settle (hs : (Write.settled notes s).taken ≤ left.length) :
    left.take (Write.settled notes s).taken ++ (settle w left s).left = left := by
  cases s with
  | took n =>
    rw [settle]
    split_ifs with hzero hmany
    · rw [Write.taken, hzero]
      rfl
    · exact List.take_append_drop n left
    · exact absurd hs hmany
  | failed => rfl
  | panicked m => rfl

/-- A settlement that ends the loop leaves the offer as it is, and the loop ends without success. -/
theorem outcome_settle (hs : (Write.settled notes s).taken ≤ left.length) {o : Outcome Bool}
    (ho : (settle w left s).outcome = some o) :
    (settle w left s).left = left ∧ o ≠ .done true ∧ ∀ m, o = .panicked m → s = .panicked m := by
  cases s with
  | took n =>
    rw [settle] at ho ⊢
    split_ifs at ho ⊢ with hzero hmany
    · obtain rfl := Option.some.inj ho
      exact ⟨rfl, nofun, nofun⟩
    · exact absurd hs hmany
  | failed =>
    obtain rfl := Option.some.inj ho
    exact ⟨rfl, nofun, nofun⟩
  | panicked m =>
    obtain rfl := Option.some.inj ho
    exact ⟨rfl, nofun, fun _ hm ↦ by injection hm with hm; rw [hm]⟩

theorem turn_of_settled (hleft : left ≠ []) (h : w.next left = .settled notes s) :
    turn ⟨w, left, none⟩ = settle (w.after left) left s := by
  obtain ⟨b, bs, rfl⟩ := List.exists_cons_of_ne_nil hleft
  simp only [turn, h]

theorem turn_of_interrupted (hleft : left ≠ []) (h : w.next left = .interrupted notes) :
    turn ⟨w, left, none⟩ = ⟨w.after left, left, none⟩ := by
  obtain ⟨b, bs, rfl⟩ := List.exists_cons_of_ne_nil hleft
  simp only [turn, h]

/-- What some writes have made of a chunk. -/
structure Keeps (w : Writer) (chunk : Bytes) (writes : List (Bytes × Write)) (x : Writing) :
    Prop where
  past : x.writer.past = w.past ++ writes
  honest : x.writer.Honest
  /-- What was taken and what is left make up the chunk. -/
  split : Write.octets writes ++ x.left = chunk
  /-- Every write was offered just what was left of the chunk, and not for nothing. -/
  offers : ∀ before e later, writes = before ++ e :: later →
    e.1 ≠ [] ∧ Write.octets before ++ e.1 = chunk
  ended : ∀ o, x.outcome = some o → (o = .done true ↔ x.left = [])
  gaveUp : ∀ m, x.outcome = some (.panicked m) →
    ∃ e ∈ writes, ∃ notes, e.2 = .settled notes (.panicked m)

namespace Keeps

variable {writes : List (Bytes × Write)} {x : Writing}

theorem start (hw : w.Honest) : Keeps w chunk [] ⟨w, chunk, none⟩ where
  past := (List.append_nil _).symm
  honest := hw
  split := rfl
  offers _ _ _ h := absurd h (by simp)
  ended := nofun
  gaveUp := nofun

theorem eq_done_iff (hx : Keeps w chunk writes x) {o : Outcome Bool} (ho : x.outcome = some o) :
    o = .done true ↔ Write.octets writes = chunk := by
  rw [hx.ended o ho, ← hx.split, List.self_eq_append_right]

theorem eq_nil (hx : Keeps w [] writes x) : writes = [] := by
  cases writes with
  | nil => rfl
  | cons e later =>
    obtain ⟨hne, hnil⟩ := hx.offers [] e later rfl
    exact absurd hnil hne

/-- One more write was made, of all that was left. -/
theorem write {v : Writer} {y : Writing} (hx : Keeps w chunk writes ⟨v, left, none⟩)
    (hleft : left ≠ []) (hwriter : y.writer = v.after left)
    (hsplit : left.take (v.next left).taken ++ y.left = left)
    (hended : ∀ o, y.outcome = some o → y.left = left ∧ o ≠ .done true ∧
      ∀ m, o = .panicked m → ∃ notes, v.next left = .settled notes (.panicked m)) :
    Keeps w chunk (writes ++ [(left, v.next left)]) y where
  past := by
    rw [hwriter, Behaviour.past_after, hx.past, List.append_assoc]
  honest := by
    rw [hwriter]
    exact hx.honest.afterAll [left]
  split := by
    rw [Write.octets_append, Write.octets_singleton, List.append_assoc, hsplit]
    exact hx.split
  offers before e later h := by
    -- It is the new write, or one of those before it.
    rcases List.eq_nil_or_concat later with rfl | ⟨later, last, rfl⟩
    · obtain ⟨rfl, he⟩ := List.append_inj' h rfl
      obtain rfl := List.singleton_inj.1 he
      exact ⟨hleft, hx.split⟩
    · rw [List.concat_eq_append, ← List.cons_append, ← List.append_assoc] at h
      exact hx.offers before e later (List.append_inj' h rfl).1
  ended o ho := by
    obtain ⟨hsame, hne, -⟩ := hended o ho
    exact iff_of_false hne (hsame ▸ hleft)
  gaveUp m hm := by
    obtain ⟨notes, hnotes⟩ := (hended _ hm).2.2 m rfl
    exact ⟨_, List.mem_append_right _ (List.mem_singleton_self _), notes, hnotes⟩

/-- One turn makes one write more, or none. -/
theorem turn (hx : Keeps w chunk writes x) : ∃ writes', Keeps w chunk writes' x.turn := by
  obtain ⟨v, left, outcome⟩ := x
  cases outcome with
  | some o => exact ⟨writes, hx⟩
  | none =>
    by_cases hleft : left = []
    · subst hleft
      refine ⟨writes, { hx with ended := fun o ho ↦ ?_, gaveUp := nofun }⟩
      obtain rfl := Option.some.inj ho
      exact iff_of_true rfl rfl
    · have htaken := hx.honest [] left
      refine ⟨writes ++ [(left, v.next left)], ?_⟩
      cases hnext : v.next left with
      | settled notes s =>
        rw [Writer.afterAll_nil, hnext] at htaken
        rw [turn_of_settled hleft hnext, ← hnext]
        refine hx.write hleft (writer_settle _ _ _) ?_ fun o ho ↦ ?_
        · rw [hnext]
          exact take_append_left_settle htaken
        · obtain ⟨hsame, hne, hgaveUp⟩ := outcome_settle htaken ho
          refine ⟨hsame, hne, fun m hm ↦ ⟨notes, ?_⟩⟩
          rw [hnext, hgaveUp m hm]
      | interrupted notes =>
        rw [turn_of_interrupted hleft hnext, ← hnext]
        refine hx.write hleft rfl ?_ nofun
        rw [hnext]
        rfl

theorem turns (hw : w.Honest) (chunk : Bytes) (n : Nat) :
    ∃ writes, Keeps w chunk writes (Writing.turn^[n] ⟨w, chunk, none⟩) := by
  induction n with
  | zero => exact ⟨[], start hw⟩
  | succ n ih =>
    obtain ⟨writes, hwrites⟩ := ih
    rw [Function.iterate_succ_apply']
    exact hwrites.turn

end Keeps

end Writing

/-! ## A sink writes as its writer does -/

namespace Relenting

variable {w : Relenting} {chunk : Bytes}

/-- The writes of an offer are what the writer has behind it afterwards. -/
theorem past_afterOffer (w : Relenting) (chunk : Bytes) :
    (w.afterOffer chunk).writer.past =
      w.writer.past ++ (w.reception chunk).writes.map (chunk, ·) := by
  rw [afterOffer]
  fun_induction reception w chunk with
  | case1 w notes s h =>
    change (w.writer.after chunk).past = _
    rw [Behaviour.past_after, h]
    rfl
  | case2 w notes h ih =>
    change ((w.afterAll [chunk]).afterAll (List.replicate _ chunk)).writer.past = _
    rw [ih]
    change (w.writer.after chunk).past ++ _ = _
    rw [Behaviour.past_after, h, List.append_assoc]
    rfl

theorem taken_reception_le (hw : w.writer.Honest) (chunk : Bytes) :
    (w.reception chunk).taken ≤ chunk.length := by
  fun_induction reception w chunk with
  | case1 w notes s h =>
    have htaken := hw [] chunk
    rw [Writer.afterAll_nil, h] at htaken
    cases s <;> exact htaken
  | case2 w notes h ih => exact ih (hw.afterAll [chunk])

/-- An offer is so many turns of the loop, the last of which settles it. -/
theorem iterate_turn_reception (w : Relenting) (hchunk : chunk ≠ []) :
    Writing.turn^[(w.reception chunk).writes.length] ⟨w.writer, chunk, none⟩ =
      Writing.settle (w.afterOffer chunk).writer chunk (w.reception chunk).settlement := by
  rw [afterOffer]
  fun_induction reception w chunk with
  | case1 w notes s h => exact Writing.turn_of_settled hchunk h
  | case2 w notes h ih =>
    -- The first turn is interrupted, and the same offer is made to the writer after it.
    change Writing.turn^[_] (Writing.turn ⟨w.writer, chunk, none⟩) = _
    rw [Writing.turn_of_interrupted hchunk h]
    exact ih

end Relenting

/-- A sink that is a writer, and the writer as it is by now. -/
structure Sink.Serves (w₀ : Relenting) (s : Sink) (w : Relenting) : Prop where
  answer : s.answer = (w₀.writer.sink w₀.relents).answer
  reached : w = Behaviour.reached Relenting.afterOffer w₀ s.past
  past : w.writer.past = w₀.writer.past ++ Sink.writes s.past

namespace Sink.Serves

variable {w₀ w : Relenting} {s : Sink}

theorem start (w : Relenting) : Serves w (w.writer.sink w.relents) w where
  answer := rfl
  reached := rfl
  past := (List.append_nil _).symm

theorem next (h : Serves w₀ s w) (chunk : Bytes) : s.next chunk = w.reception chunk := by
  rw [Behaviour.next, h.answer, h.reached]
  rfl

theorem after (h : Serves w₀ s w) (chunk : Bytes) :
    Serves w₀ (s.after chunk) (w.afterOffer chunk) where
  answer := h.answer
  reached := by
    rw [Behaviour.past_after, Behaviour.reached_concat, ← h.reached]
  past := by
    rw [Relenting.past_afterOffer, h.past, Behaviour.past_after, h.next, Sink.writes, Sink.writes,
      List.flatMap_append, List.flatMap_singleton, List.append_assoc]

theorem iterate_turn (h : Serves w₀ s w) {chunk : Bytes} (hchunk : chunk ≠ []) :
    Writing.turn^[(s.next chunk).writes.length] ⟨w.writer, chunk, none⟩ =
      Writing.settle (w.afterOffer chunk).writer chunk (s.next chunk).settlement := by
  rw [h.next]
  exact w.iterate_turn_reception hchunk

theorem exists_end (h : Serves w₀ s w) {chunk : Bytes} (hchunk : chunk ≠ []) {o : Outcome Bool}
    (ho : ∀ v, Writing.settle v chunk (s.next chunk).settlement = ⟨v, chunk, some o⟩) :
    ∃ (n : Nat) (w' : Relenting) (left : Bytes),
      Writing.turn^[n] ⟨w.writer, chunk, none⟩ = ⟨w'.writer, left, some o⟩ ∧
      Serves w₀ (s.after chunk) w' :=
  ⟨_, w.afterOffer chunk, chunk, (h.iterate_turn hchunk).trans (ho _), h.after chunk⟩

/-- Writing a chunk to the sink comes to what the loop comes to, and the loop comes to an end. -/
theorem writeAll (h : Serves w₀ s w) (hw : w.writer.Honest) (chunk : Bytes) :
    ∃ (n : Nat) (w' : Relenting) (left : Bytes),
      Writing.turn^[n] ⟨w.writer, chunk, none⟩ =
        ⟨w'.writer, left, some (s.writeAll chunk).outcome⟩ ∧
      Serves w₀ (s.writeAll chunk).sink w' := by
  fun_induction Sink.writeAll s chunk generalizing w with
  | case1 s => exact ⟨1, w, [], rfl, h⟩
  | case2 s x xs r s' =>
    rename_i hr
    refine h.exists_end (List.cons_ne_nil x xs) fun v ↦ ?_
    rw [hr]
    rfl
  | case3 s x xs r s' n hr rest =>
    rename_i ih
    -- The sink takes what its writer takes, so there is a rest to go on with.
    have htaken : n + 1 ≤ (x :: xs).length := by
      have hle := Relenting.taken_reception_le hw (x :: xs)
      rw [← h.next, Reception.taken, hr] at hle
      exact hle
    obtain ⟨m, w', left, hrest, hserves⟩ := ih (h.after (x :: xs)) (hw.afterAll _)
    refine ⟨m + r.writes.length, w', left, ?_, hserves⟩
    rw [Function.iterate_add_apply, h.iterate_turn (List.cons_ne_nil x xs), hr, Writing.settle,
      if_neg n.succ_ne_zero, if_pos htaken]
    exact hrest
  | case4 s x xs r s' =>
    rename_i hr
    refine h.exists_end (List.cons_ne_nil x xs) fun v ↦ ?_
    rw [hr]
    rfl
  | case5 s x xs r s' m =>
    rename_i hr
    refine h.exists_end (List.cons_ne_nil x xs) fun v ↦ ?_
    rw [hr]
    rfl

end Sink.Serves

theorem Reception.octets_writes (r : Reception) (chunk : Bytes) :
    Write.octets (r.writes.map (chunk, ·)) = chunk.take r.taken := by
  induction r with
  | settled notes s =>
    rw [writes, List.map_singleton, Write.octets_singleton]
    cases s <;> rfl
  | interrupted notes r ih => exact ih

theorem Sink.accepted_eq (s : Sink) : s.accepted = Write.octets (writes s.past) := by
  rw [accepted, writes, Write.octets, List.flatMap_assoc]
  congr 1
  funext e
  exact (e.2.octets_writes e.1).symm

/-! ## Scripted writers -/

namespace Script

/-- What a step makes of a single write. -/
def write (step : Option SinkStep) (chunk : Bytes) : Write :=
  let note := Note.offered chunk step
  match step with
  | none => .settled [note] (.took chunk.length)
  | some (.take n) => .settled [note] (.took (min n chunk.length))
  | some .error => .settled [note] .failed
  | some (.panic p) => .settled [note] (.panicked p.message)
  | some .interrupted => .interrupted [note]

/-- The writer that follows a script, one step a write. -/
def writer (steps : List (Option SinkStep)) : Writer :=
  .ofMachine (fun left _ ↦ (takeOnce left).2) (fun left chunk ↦ write (takeOnce left).1 chunk)
    steps

theorem taken_write_le (step : Option SinkStep) (chunk : Bytes) :
    (write step chunk).taken ≤ chunk.length := by
  match step with
  | none => exact Nat.le_refl _
  | some (.take n) => exact Nat.min_le_right _ _
  | some .error | some (.panic _) | some .interrupted => exact Nat.zero_le _

theorem reached_takeOnce {α β σ : Type} (steps : List (Option σ)) (past : List (α × β)) :
    Behaviour.reached (fun left (_ : α) ↦ (takeOnce left).2) steps past =
      steps.drop past.length := by
  induction past generalizing steps with
  | nil => rfl
  | cons e past ih =>
    refine (ih (takeOnce steps).2).trans ?_
    cases steps with
    | nil => rw [List.drop_nil]; exact List.drop_nil
    | cons s rest => rfl

/-- A writer that follows a script, and the steps that it has left. -/
structure Follows (steps : List (Option SinkStep)) (w : Writer) (left : List (Option SinkStep)) :
    Prop where
  answer : w.answer = (writer steps).answer
  left : steps.drop w.past.length = left

namespace Follows

variable {steps left : List (Option SinkStep)} {w : Writer}

theorem start (steps : List (Option SinkStep)) : Follows steps (writer steps) steps := ⟨rfl, rfl⟩

theorem next (h : Follows steps w left) (chunk : Bytes) :
    w.next chunk = write (takeOnce left).1 chunk := by
  rw [Behaviour.next, h.answer, ← h.left, ← reached_takeOnce]
  rfl

theorem afterAll (h : Follows steps w left) (offers : List Bytes) :
    Follows steps (w.afterAll offers) (left.drop offers.length) where
  answer := by rw [Writer.answer_afterAll, h.answer]
  left := by rw [Writer.length_past_afterAll, ← List.drop_drop, h.left]

end Follows

theorem honest_writer (steps : List (Option SinkStep)) : (writer steps).Honest :=
  fun offers chunk ↦ by
    rw [((Follows.start steps).afterAll offers).next]
    exact taken_write_le _ _

theorem relents_writer (steps : List (Option SinkStep)) : (writer steps).Relents :=
  fun offers chunk ↦ ⟨steps.length, by
    rw [(((Follows.start steps).afterAll offers).afterAll _).next, List.drop_drop,
      List.length_replicate, List.drop_eq_nil_of_le (Nat.le_add_left _ _)]
    rfl⟩

/-- An offer to a scripted sink takes as many steps as there are writes in it. -/
theorem receive_fst (chunk : Bytes) (steps : List (Option SinkStep)) :
    (receive chunk steps).1 = steps.drop (receive chunk steps).2.writes.length := by
  fun_induction receive chunk steps with
  | case1 => rfl
  | case2 rest => rfl
  | case3 rest n => rfl
  | case4 rest => rfl
  | case5 rest p => rfl
  | case6 rest left r hr note ih =>
    rw [hr] at ih
    exact ih

/-- What becomes of an offer to a scripted writer is what becomes of one to the scripted sink. -/
theorem Follows.reception {steps left : List (Option SinkStep)} {w : Relenting}
    (h : Follows steps w.writer left) (chunk : Bytes) :
    w.reception chunk = (receive chunk left).2 := by
  fun_induction receive chunk left generalizing w with
  | case1 => exact Relenting.reception_of_settled (h.next chunk)
  | case2 rest => exact Relenting.reception_of_settled (h.next chunk)
  | case3 rest n => exact Relenting.reception_of_settled (h.next chunk)
  | case4 rest => exact Relenting.reception_of_settled (h.next chunk)
  | case5 rest p => exact Relenting.reception_of_settled (h.next chunk)
  | case6 rest left r hr note =>
    rename_i ih
    have hrest : (w.afterAll [chunk]).reception chunk = (receive chunk rest).2 :=
      ih (h.afterAll [chunk])
    rw [hr] at hrest
    rw [Relenting.reception_of_interrupted (h.next chunk), hrest]
    rfl

/-- The steps that a scripted sink has left are those that the writer has. -/
theorem follows_reached (steps : List (Option SinkStep)) (past : List (Bytes × Reception)) :
    Follows steps
      (Behaviour.reached Relenting.afterOffer ⟨writer steps, relents_writer steps⟩ past).writer
      (Behaviour.reached (fun left chunk ↦ (receive chunk left).1) steps past) := by
  induction past using List.reverseRecOn with
  | nil => exact .start steps
  | append_singleton past e ih =>
    rw [Behaviour.reached_concat, Behaviour.reached_concat, receive_fst, Relenting.afterOffer,
      ih.reception e.1]
    generalize Behaviour.reached _ steps past = left at ih ⊢
    have hafter := ih.afterAll (List.replicate (receive e.1 left).2.writes.length e.1)
    rw [List.length_replicate] at hafter
    exact hafter

theorem sink_writer (steps : List (Option SinkStep)) :
    (writer steps).sink (relents_writer steps) = sink steps := by
  rw [Writer.sink, sink, Behaviour.ofMachine, Behaviour.ofMachine]
  congr 1
  funext past chunk
  exact (follows_reached steps past).reception chunk

end Script

/-! ## A chunk that is forwarded -/

/-- A writer takes at most what it is offered and is interrupted only finitely often in a row. Then
forwarding a chunk to it comes to an end, however many writes there are on the way. Every write is
offered just what the writes before it have not taken, so the octets are taken in their order and
none of them twice. The chunk is accepted exactly if all of it was taken. If it is reported as
failed, a beginning was taken that is not the whole; and it is answered in one of these ways unless
a write itself gives up. For an empty chunk there is no write. -/
theorem forwarded_chunk_is_written_or_reported (w : Writer) (hhonest : w.Honest)
    (hrelents : w.Relents) (chunk : Bytes) :
    let reply := (WriteCallback.forward.run chunk (.writer (w.sink hrelents))).1
    ∃ (turns : Nat) (writes : List (Bytes × Write)),
      let last := Writing.turn^[turns] ⟨w, chunk, none⟩
      last.outcome = some reply.outcome ∧
      last.writer.past = w.past ++ writes ∧
      (∃ s, reply.data = .writer s ∧ s.accepted = Write.octets writes) ∧
      (∀ before e later, writes = before ++ e :: later →
        e.1 ≠ [] ∧ Write.octets before ++ e.1 = chunk) ∧
      (reply.outcome = .done true ↔ Write.octets writes = chunk) ∧
      (reply.outcome = .done false →
        Write.octets writes <+: chunk ∧ Write.octets writes ≠ chunk) ∧
      (∀ m, reply.outcome = .panicked m →
        ∃ e ∈ writes, ∃ notes, e.2 = .settled notes (.panicked m)) ∧
      (chunk = [] → writes = [] ∧ reply.outcome = .done true) := by
  intro reply
  obtain ⟨turns, w', left, hturns, hserves⟩ :=
    (Sink.Serves.start ⟨w, hrelents⟩).writeAll hhonest chunk
  obtain ⟨writes, hkeeps⟩ := Writing.Keeps.turns hhonest chunk turns
  have hlast : Writing.turn^[turns] ⟨w, chunk, none⟩ = ⟨w'.writer, left, some reply.outcome⟩ :=
    hturns
  have hpast : Sink.writes ((w.sink hrelents).writeAll chunk).sink.past = writes := by
    rw [hlast] at hkeeps
    exact List.append_cancel_left (hserves.past.symm.trans hkeeps.past)
  have hend : (Writing.turn^[turns] ⟨w, chunk, none⟩).outcome = some reply.outcome := by rw [hlast]
  have hwhole := hkeeps.eq_done_iff hend
  refine ⟨turns, writes, hend, hkeeps.past, ⟨_, rfl, ?_⟩, hkeeps.offers, hwhole,
    fun hfalse ↦ ⟨⟨_, hkeeps.split⟩, ?_⟩, ?_, fun hnil ↦ ?_⟩
  · rw [Sink.accepted_eq, hpast]
  · rw [Ne, ← hwhole, hfalse]
    exact nofun
  · intro m hm
    exact hkeeps.gaveUp m (hend.trans (congrArg some hm))
  · subst hnil
    obtain rfl := hkeeps.eq_nil
    exact ⟨rfl, hwhole.2 rfl⟩

/-- A writer that takes one octet and is interrupted before that and twice after it gets all. -/
theorem interrupted_writer_gets_all :
    let w := Script.writer
      [some .interrupted, some (.take 1), some .interrupted, some .interrupted]
    let reply := (WriteCallback.forward.run [97, 98, 99]
      (.writer (w.sink (Script.relents_writer _)))).1
    w.Honest ∧ w.Relents ∧ reply.outcome = .done true ∧
      ∃ s, reply.data = .writer s ∧ s.accepted = [97, 98, 99] := by
  intro w reply
  obtain ⟨turns, writes, -, -, ⟨s, hs, haccepted⟩, -, hiff, -⟩ :=
    forwarded_chunk_is_written_or_reported w (Script.honest_writer _) (Script.relents_writer _)
      [97, 98, 99]
  have hall : s.accepted = [97, 98, 99] := by
    change (WriteCallback.forward.run [97, 98, 99] (.writer (w.sink _))).1.data = _ at hs
    rw [Script.sink_writer] at hs
    obtain rfl := UserData.writer.inj hs
    decide +kernel
  exact ⟨Script.honest_writer _, Script.relents_writer _, hiff.2 (haccepted.symm.trans hall), s, hs,
    hall⟩

end NativeTransfer
