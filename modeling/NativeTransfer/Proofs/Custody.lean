import NativeTransfer.Proofs.Course
import NativeTransfer.Proofs.Rollback
import NativeTransfer.Proofs.Spent
import NativeTransfer.Proofs.Tending

/-!
# Custody of handles

The history of a handle shows a way by which it is out, if it is out at all, and among the wrappers
there is at most one that has it, with a way of its own. `State.Conveys` says that the two agree
before and after, and that the history in between is a course. It is what every step preserves.

A wrapper that ends asks its way to take the handle back, once. What the way makes of it is either a
call of the engine or an error, and the error is reported. So a report must not stand for itself:
`State.Vouched` has it that the cleanup of the wrapper's way was asked for the handle just before,
and has failed with the error that the report tells. Where the way takes handles back at all there
are no such reports, and every handle goes by a call.
-/

namespace NativeTransfer

open State Wrapper

/-! ## Who keeps a handle -/

namespace State

variable {s t u : State} {id : WrapperId} {g h : Nat} {c : Option Route}

/-- The way to the engine of the wrapper that has the handle, or none if no wrapper has it. -/
def KeptBy (s : State) (g : Nat) (c : Option Route) : Prop :=
  ∀ r, c = some r ↔ ∃ id, (s.wrapper id).handle = some g ∧ (s.wrapper id).api.route = r

/-- No other wrapper has the handle of this one, if it has one. -/
def Owns (s : State) (id : WrapperId) : Prop :=
  ∀ j h, (s.wrapper id).handle = some h → (s.wrapper j).handle = some h → j = id

theorem Coherent.owns (hc : s.Coherent) (id : WrapperId) : s.Owns id := fun j h hh hj ↦
  hc.apart j id h hj hh

theorem Owns.minds {V : Event → Prop} (ho : s.Owns id) (hm : Minds V s t) : t.Owns id := by
  intro j g hg hj
  rw [hm.handle] at hg hj
  exact ho j g hg hj

/-- From one state to another all goes well with every handle, from the wrapper that has it in the
one to the wrapper that has it in the other. -/
def Conveys (s t : State) : Prop :=
  ∃ vs, t.trace = s.trace ++ vs ∧ ∀ g c, s.KeptBy g c → ∃ d, Course g c vs d ∧ t.KeptBy g d

theorem KeptBy.unique {d : Option Route} (hc : s.KeptBy g c) (hd : s.KeptBy g d) : c = d :=
  Option.ext fun r ↦ (hc r).trans (hd r).symm

theorem keptBy_none_iff : s.KeptBy g none ↔ ∀ j, (s.wrapper j).handle ≠ some g := by
  constructor
  · intro hk j hj
    cases (hk _).2 ⟨j, hj, rfl⟩
  · rintro hfree r
    refine iff_of_false nofun ?_
    rintro ⟨j, hj, -⟩
    exact hfree j hj

theorem Owns.keptBy (ho : s.Owns id) (hh : (s.wrapper id).handle = some g) :
    s.KeptBy g (some (s.wrapper id).api.route) := by
  intro r
  constructor
  · rintro ⟨⟩
    exact ⟨id, hh, rfl⟩
  · rintro ⟨j, hj, rfl⟩
    rw [ho j g hh hj]

theorem KeptBy.isSome_iff (hk : s.KeptBy g c) (hn : s.ids.Nodup) :
    c.isSome = true ↔ g ∈ s.handles := by
  rw [Option.isSome_iff_exists, mem_handles hn]
  constructor
  · rintro ⟨r, hr⟩
    obtain ⟨j, hj, -⟩ := (hk r).1 hr
    exact ⟨j, hj⟩
  · rintro ⟨j, hj⟩
    exact ⟨_, (hk _).2 ⟨j, hj, rfl⟩⟩

theorem KeptBy.congr (hk : s.KeptBy g c)
    (hh : ∀ j, (t.wrapper j).handle = some g ↔ (s.wrapper j).handle = some g)
    (ha : ∀ j, (s.wrapper j).handle = some g → (t.wrapper j).api = (s.wrapper j).api) :
    t.KeptBy g c := by
  intro r
  rw [hk r]
  refine exists_congr fun j ↦ ?_
  rw [hh j]
  refine and_congr_right fun hj ↦ ?_
  rw [ha j hj]

namespace Conveys

theorem trans (h : s.Conveys t) (h' : t.Conveys u) : s.Conveys u := by
  obtain ⟨vs, ht, hvs⟩ := h
  obtain ⟨ws, hu, hws⟩ := h'
  refine ⟨vs ++ ws, by rw [hu, ht, List.append_assoc], fun g c hc ↦ ?_⟩
  obtain ⟨d, hcd, hd⟩ := hvs g c hc
  obtain ⟨e, hde, he⟩ := hws g d hd
  exact ⟨e, hcd.append hde, he⟩

theorem of_minds {V : Event → Prop} (hm : Minds V s t)
    (hV : ∀ g c, s.KeptBy g c → ∀ v, V v → v.Turns g c c) : s.Conveys t := by
  refine ⟨s.since t, hm.trace, fun g c hc ↦ ⟨c, .of_forall fun v hv ↦ ?_, ?_⟩⟩
  · exact hV g c hc v (hm.events v hv)
  · refine hc.congr (fun j ↦ ?_) fun j _ ↦ hm.api j
    rw [hm.handle]

theorem refl (s : State) : s.Conveys s :=
  of_minds (Minds.refl (V := fun _ ↦ False) s) fun _ _ _ _ hv ↦ hv.elim

theorem trace (h : s.Conveys t) : t.trace = s.trace ++ s.since t := by
  obtain ⟨vs, ht, -⟩ := h
  rw [since_of_eq ht]
  exact ht

end Conveys

/-- The report on a handle that was handed back in vain. -/
def strandedReport (h : Nat) (e : Error) : LogRecord :=
  ⟨.warn, LogRecord.unreleased, [("handle", .text (Address.handle h).text),
    ("error", .text e.message)]⟩

/-- Whatever report there is that a handle was handed back in vain, the way was asked to take the
handle back just before, and has failed to do so for the reason that is reported. -/
def Vouched (way : Option Api) (s t : State) : Prop :=
  ∀ g front v back, s.since t = front ++ v :: back → v.strands g = true →
    ∃ api e u w, way = some api ∧ u.policy = s.policy ∧
      (api.cleanup g).run.run u = (.error e, w) ∧ w.trace = s.trace ++ front ∧
        v = .log (strandedReport g e)

namespace Vouched

variable {way : Option Api}

theorem of_forall (h : ∀ v ∈ s.since t, ∀ g, v.strands g = false) : Vouched way s t := by
  intro g front v back hsince hv
  rw [hsince] at h
  rw [h v (List.mem_append_right _ List.mem_cons_self) g] at hv
  cases hv

theorem trans (h : Vouched way s t) (h' : Vouched way t u) (hp : t.policy = s.policy)
    (ht : t.trace = s.trace ++ s.since t) (hu : u.trace = t.trace ++ t.since u) :
    Vouched way s u := by
  intro g front v back hsince hv
  rw [since_of_trace ht hu] at hsince
  -- The report was made in the first part or in the second.
  have hlater {front' : List Event} (hfront : front = s.since t ++ front')
      (hback : t.since u = front' ++ v :: back) := h' g front' v back hback hv
  rcases List.append_eq_append_iff.1 hsince with ⟨mid, hfront, hback⟩ | ⟨mid, hfront, hback⟩
  · obtain ⟨api, e, u', w, hway, hu', hrun, hw, hv⟩ := hlater hfront hback
    refine ⟨api, e, u', w, hway, hu'.trans hp, hrun, ?_, hv⟩
    rw [hw, hfront, ht, List.append_assoc]
  · cases mid with
    | nil =>
      rw [List.append_nil] at hfront
      have hfront' : front = s.since t ++ [] := by rw [hfront, List.append_nil]
      obtain ⟨api, e, u', w, hway, hu', hrun, hw, hv⟩ := hlater hfront' hback.symm
      refine ⟨api, e, u', w, hway, hu'.trans hp, hrun, ?_, hv⟩
      rw [hw, ht, hfront', List.append_nil, List.append_nil]
    | cons x mid =>
      obtain ⟨rfl, -⟩ := List.cons.inj hback
      exact h g front v mid hfront hv

end Vouched

/-- All goes well with every handle, and every report is vouched for. -/
structure Surrenders (way : Option Api) (s t : State) : Prop where
  policy : t.policy = s.policy
  conveys : s.Conveys t
  vouched : Vouched way s t

theorem Surrenders.trans {way : Option Api} (h : Surrenders way s t) (h' : Surrenders way t u) :
    Surrenders way s u where
  policy := h'.policy.trans h.policy
  conveys := h.conveys.trans h'.conveys
  vouched := h.vouched.trans h'.vouched h.policy h.conveys.trace h'.conveys.trace

end State

theorem handle_text_inj {g h : Nat} (he : (Address.handle g).text = (Address.handle h).text) :
    g = h := by
  have htext : toString g = toString h := (String.append_right_inj "h").1 he
  have hdigits : Nat.toDigits 10 g = Nat.toDigits 10 h := by
    rw [Nat.toString_eq_ofList_toDigits, Nat.toString_eq_ofList_toDigits] at htext
    exact String.ofList_injective htext
  calc
    g = Nat.ofDigitChars 10 (Nat.toDigits 10 g) 0 := Nat.ofDigitChars_ten_toDigits.symm
    _ = Nat.ofDigitChars 10 (Nat.toDigits 10 h) 0 := by rw [hdigits]
    _ = h := Nat.ofDigitChars_ten_toDigits

namespace Event

variable {r : Route} {g h : Nat} {v : Event} {c : Option Route}

theorem turns_of_isAside (hv : v.isAside = true) : v.Turns g c c := by
  cases v with
  | native r x =>
    rw [isAside, Bool.and_eq_true, Option.isNone_iff_eq_none, Option.isNone_iff_eq_none] at hv
    refine .aside (decide_eq_false ?_) (decide_eq_false ?_) rfl
    · rw [hv.1]
      exact (Option.some_ne_none g).symm
    · rw [hv.2]
      exact (Option.some_ne_none g).symm
  | log x =>
    have hne : x.message ≠ LogRecord.unreleased := of_decide_eq_true hv
    exact .aside rfl rfl (decide_eq_false fun hx ↦ hne hx.1)
  | unreached | note | skipped | returned | filled => exact .aside rfl rfl rfl

/-- To make use of a handle means nothing to any other. -/
theorem About.turns (hv : About r h v) (hc : g = h → c = some r) : v.Turns g c c := by
  cases hv with
  | aside hv => exact turns_of_isAside hv
  | @use x hx =>
    obtain ⟨hh, hg, hne⟩ := NativeCall.of_used? hx
    by_cases hgh : g = h
    · obtain rfl := hc hgh
      subst hgh
      refine .used hh ?_ (hne g)
      rw [hg]
      exact nofun
    · refine .aside (decide_eq_false ?_) (decide_eq_false ?_) rfl
      · rw [hh]
        exact fun he ↦ hgh (Option.some.inj he).symm
      · rw [hg]
        exact nofun

theorem strands_of_isAside (hv : v.isAside = true) (g : Nat) : v.strands g = false := by
  cases v with
  | log x =>
    have hne : x.message ≠ LogRecord.unreleased := of_decide_eq_true hv
    exact decide_eq_false fun hx ↦ hne hx.1
  | native | unreached | note | skipped | returned | filled => rfl

theorem About.strands (hv : About r h v) (g : Nat) : v.strands g = false := by
  cases hv with
  | aside hv => exact strands_of_isAside hv g
  | use => rfl

/-- A report before which there was none is the last event. -/
theorem eq_of_strands {us front back : List Event} {l : Event}
    (hus : ∀ w ∈ us, w.strands g = false) (hv : v.strands g = true)
    (he : us ++ [l] = front ++ v :: back) : front = us ∧ v = l := by
  rcases List.append_eq_append_iff.1 he with ⟨mid, hfront, hback⟩ | ⟨mid, hfront, hback⟩
  · cases mid with
    | nil =>
      obtain ⟨rfl, -⟩ := List.cons.inj hback
      exact ⟨hfront.trans (List.append_nil us), rfl⟩
    | cons x mid =>
      have hnil := (List.cons.inj hback).2
      simp at hnil
  · cases mid with
    | nil =>
      obtain ⟨rfl, -⟩ := List.cons.inj hback
      exact ⟨(hfront.trans (List.append_nil front)).symm, rfl⟩
    | cons x mid =>
      obtain ⟨rfl, -⟩ := List.cons.inj hback
      have hmem : v ∈ us := hfront ▸ List.mem_append_right _ List.mem_cons_self
      rw [hus v hmem] at hv
      cases hv

theorem strands_iff (x : LogRecord) (hm : x.message = LogRecord.unreleased)
    (hx : x.fields.lookup "handle" = some (.text (Address.handle h).text)) :
    (log x).strands g = true ↔ g = h := by
  refine decide_eq_true_iff.trans ((and_iff_right hm).trans ?_)
  rw [hx]
  constructor
  · intro he
    exact (handle_text_inj (Field.text.inj (Option.some.inj he))).symm
  · rintro rfl
    rfl

end Event

namespace State

variable {s t u : State} {id : WrapperId} {g h : Nat} {c : Option Route}

/-- A wrapper is without the handle that it had, and that is all there is to tell about handles. -/
structure LetGo (s : State) (id : WrapperId) (t : State) : Prop where
  policy : t.policy = s.policy
  handle : ∀ j, (t.wrapper j).handle = if j = id then none else (s.wrapper j).handle
  api : ∀ j, (t.wrapper j).api = (s.wrapper j).api

theorem LetGo.of_wrappers (hlet : s.LetGo id t) (hp : u.policy = t.policy)
    (hw : u.wrappers = t.wrappers) : s.LetGo id u where
  policy := hp.trans hlet.policy
  handle j := by rw [wrapper_congr hw, hlet.handle]
  api j := by rw [wrapper_congr hw, hlet.api]

theorem LetGo.minds {V : Event → Prop} (hlet : s.LetGo id t) (hm : Minds V t u) : s.LetGo id u where
  policy := hm.policy.trans hlet.policy
  handle j := (hm.handle j).trans (hlet.handle j)
  api j := (hm.api j).trans (hlet.api j)

/-- One call has happened, and no wrapper has changed. -/
structure Called (s : State) (r : Route) (x : NativeCall) (t : State) : Prop where
  policy : t.policy = s.policy
  wrappers : t.wrappers = s.wrappers
  opened : t.opened = s.opened
  trace : t.trace = s.trace ++ [.native r x]

theorem Called.strands {r : Route} {x : NativeCall} (ht : s.Called r x t) :
    ∀ v ∈ s.since t, ∀ g, v.strands g = false := by
  rw [since_of_eq ht.trace]
  exact List.forall_mem_singleton.2 fun _ ↦ rfl

/-- If the call takes a handle, a wrapper has it by this way, and it is not handed back. -/
def Entitles (s : State) (r : Route) (x : NativeCall) : Prop :=
  ∀ g, x.handle? = some g → s.KeptBy g (some r) ∧ x ≠ .cleanup g

variable {r : Route} {x : NativeCall} {api : Api}

theorem Entitles.turns (hx : s.Entitles r x) (hc : s.KeptBy g c) (hg : x.given? ≠ some g) :
    (Event.native r x).Turns g c c := by
  by_cases hh : x.handle? = some g
  · obtain ⟨hkept, hcleanup⟩ := hx g hh
    obtain rfl := hc.unique hkept
    exact .used hh hg hcleanup
  · exact .aside (decide_eq_false hh) (decide_eq_false hg) rfl

namespace Surrenders

variable {way : Option Api}

theorem of_aside (hm : Minds (fun v ↦ v.isAside = true) s t) : Surrenders way s t where
  policy := hm.policy
  conveys := .of_minds hm fun _ _ _ _ hv ↦ Event.turns_of_isAside hv
  vouched := .of_forall fun v hv ↦ Event.strands_of_isAside (hm.events v hv)

theorem refl (s : State) : Surrenders way s s := of_aside (Minds.refl s)

theorem of_about (hh : (s.wrapper id).handle = some h)
    (hm : Minds (Event.About (s.wrapper id).api.route h) s t) : Surrenders way s t where
  policy := hm.policy
  conveys := .of_minds hm fun _ _ hc _ hv ↦ hv.turns fun hg ↦ (hc _).2 ⟨id, hg ▸ hh, rfl⟩
  vouched := .of_forall fun v hv ↦ (hm.events v hv).strands

end Surrenders

namespace Conveys

theorem of_called (ht : s.Called r x t) (hx : s.Entitles r x) (hg : x.given? = none) :
    s.Conveys t := by
  refine ⟨_, ht.trace, fun g c hc ↦ ⟨c, .single (hx.turns hc ?_), hc.congr (fun j ↦ ?_) ?_⟩⟩
  · rw [hg]
    exact nofun
  · rw [wrapper_congr ht.wrappers]
  · intro j _
    rw [wrapper_congr ht.wrappers]

end Conveys

theorem Called.wrapper_adopt (ht : s.Called r x t) (hn : s.Numbered) (h : Nat) (api : Api)
    (j : WrapperId) :
    (t.adopt h api).wrapper j =
      if j = s.opened then { handle := some h, api } else s.wrapper j := by
  have hnot : t.opened ∉ t.ids := by
    rw [ht.opened, ids, ht.wrappers]
    exact hn.notMem
  rw [State.wrapper_adopt hnot, ht.opened, wrapper_congr ht.wrappers]

theorem Called.owns_adopt (ht : s.Called r x t) (hn : s.Numbered) (api : Api)
    (hfree : ∀ j, (s.wrapper j).handle ≠ some h) : (t.adopt h api).Owns s.opened := by
  intro j g hg hj
  rw [ht.wrapper_adopt hn, if_pos rfl] at hg
  obtain rfl := Option.some.inj hg
  by_contra hne
  rw [ht.wrapper_adopt hn, if_neg hne] at hj
  exact hfree j hj

namespace Conveys

/-- A wrapper begins with a handle that has come of a call, and that no wrapper has. -/
theorem adopt (hn : s.Numbered) (ht : s.Called api.route x t) (hx : s.Entitles api.route x)
    (hg : x.given? = some h) (hfree : ∀ j, (s.wrapper j).handle ≠ some h) :
    s.Conveys (t.adopt h api) := by
  have hwrapper := ht.wrapper_adopt hn h api
  have hnew : (s.wrapper s.opened).handle = none := by rw [wrapper_of_notMem hn.notMem]
  refine ⟨[.native api.route x], ht.trace, fun g c hc ↦ ?_⟩
  by_cases hgh : g = h
  · subst hgh
    obtain rfl := hc.unique (keptBy_none_iff.2 hfree)
    refine ⟨some api.route, .single (.given (fun hh ↦ ?_) hg), ?_⟩
    · cases hc.unique (hx g hh).1
    · have hself := (hwrapper s.opened).trans (if_pos rfl)
      have hkept := (ht.owns_adopt hn api hfree).keptBy (congrArg Wrapper.handle hself)
      rw [hself] at hkept
      exact hkept
  · have hne : x.given? ≠ some g := by
      rw [hg]
      exact fun he ↦ hgh (Option.some.inj he).symm
    refine ⟨c, .single (hx.turns hc hne), hc.congr (fun j ↦ ?_) fun j hj ↦ ?_⟩
    · rw [hwrapper]
      split
      · next hj =>
        rw [hj, hnew]
        exact iff_of_false (fun he ↦ hgh (Option.some.inj he).symm) nofun
      · rfl
    · rw [hwrapper, if_neg]
      rintro rfl
      rw [hnew] at hj
      cases hj

/-- A wrapper that has a handle to itself lets it go, and it is handed back. -/
theorem handBack (ho : s.Owns id) (hh : (s.wrapper id).handle = some h) (hlet : s.LetGo id t)
    {vs : List Event} {v : Event} (ht : t.trace = s.trace ++ (vs ++ [v]))
    (hvs : ∀ w ∈ vs, w.isAside = true) (hv : v.Turns h (some (s.wrapper id).api.route) none)
    (hother : ∀ g, g ≠ h → ∀ c, v.Turns g c c) : s.Conveys t := by
  have hvs' (g : Nat) (c : Option Route) : Course g c vs c :=
    .of_forall fun w hw ↦ Event.turns_of_isAside (hvs w hw)
  refine ⟨vs ++ [v], ht, fun g c hc ↦ ?_⟩
  by_cases hgh : g = h
  · subst hgh
    obtain rfl := hc.unique (ho.keptBy hh)
    refine ⟨none, (hvs' g _).append (.single hv), keptBy_none_iff.2 fun j hj ↦ ?_⟩
    rw [hlet.handle] at hj
    split at hj
    · cases hj
    · next hne => exact hne (ho j g hh hj)
  · refine ⟨c, (hvs' g c).append (.single (hother g hgh c)), hc.congr (fun j ↦ ?_) fun j _ ↦ ?_⟩
    · rw [hlet.handle]
      split
      · next hj =>
        rw [hj, hh]
        exact iff_of_false nofun fun he ↦ hgh (Option.some.inj he).symm
      · rfl
    · exact hlet.api j

theorem remove (hnone : (s.wrapper id).handle = none) : s.Conveys (s.remove id) := by
  refine ⟨[], (List.append_nil _).symm, fun g c hc ↦ ⟨c, .nil, hc.congr (fun j ↦ ?_) fun j hj ↦ ?_⟩⟩
  · by_cases hj : j = id
    · rw [hj, wrapper_remove_self, hnone]
    · rw [wrapper_remove_of_ne s hj]
  · rw [wrapper_remove_of_ne]
    rintro rfl
    rw [hnone] at hj
    cases hj

end Conveys

end State

/-! ## Calls that give handles out and take them back -/

theorem Engine.call_answerInit (p : Policy) (e : Engine) :
    (e.answerInit p).call = .init (e.answerInit p).result := by
  rw [answerInit]
  split <;> rfl

theorem Engine.call_answerDuphandle (p : Policy) (e : Engine) (h : Nat) :
    (e.answerDuphandle p h).call = .duphandle h (e.answerDuphandle p h).result := by
  rw [answerDuphandle]
  split <;> rfl

theorem Api.leads_call_told (api : Api) {α : Type} (m : Method)
    {answer : Policy → Engine → Answered α} {f : α → NativeCall}
    (hf : ∀ p e, (answer p e).call = f (answer p e).result) (s : State) :
    Leads (api.call m answer) s (fun a t ↦ s.Called api.route (f a) t)
      fun _ t ↦ Minds (fun v ↦ v.isAside = true) s t := by
  refine (api.leads_call_answered m ?_).mono (fun _ _ ht ↦ ht) fun _ _ ht ↦ ht.1
  rintro x rfl
  rw [← hf]
  exact ⟨rfl, rfl, rfl, rfl⟩

/-! ## Wrappers that begin and end -/

namespace Wrapper

variable {s t : State} {id : WrapperId} {h : Nat}

theorem minor_empty : Minor (do discard (releaseAll id); modifySlots id fun _ ↦ {}) :=
  (minor_releaseSince 0).discard.bind fun _ ↦ minor_modifySlots _

/-- The engine gets the handle back, or it is reported that it does not. -/
theorem leads_handBack {u : State} (ho : s.Owns id) (hh : (s.wrapper id).handle = some h)
    (hlet : s.LetGo id u) (hu : u.trace = s.trace) :
    Leads ((s.wrapper id).api.cleanup h) u
      (fun _ t ↦ s.Surrenders (some (s.wrapper id).api) t ∧ s.LetGo id t) fun e t ↦
        Ends (report .warn "easy cleanup failed" [("handle", .text (Address.handle h).text),
          ("error", .text e.message)]) t fun _ t ↦
            s.Surrenders (some (s.wrapper id).api) t ∧ s.LetGo id t := by
  have hcall : Leads ((s.wrapper id).api.cleanup h) u _ _ :=
    Api.cleanup_eq _ h ▸ (s.wrapper id).api.leads_call_told .cleanup (f := fun _ ↦ .cleanup h)
      (fun _ e ↦ (rfl : (e.answerCleanup h).call = _)) u
  refine (hcall.and (leads_run _ u)).mono ?_ ?_
  · rintro _ t ⟨ht, -⟩
    have hlet' : s.LetGo id t := hlet.of_wrappers ht.policy ht.wrappers
    have htrace : t.trace = s.trace ++ [.native (s.wrapper id).api.route (.cleanup h)] := by
      rw [ht.trace, hu]
    have hnothing : ∀ v ∈ ([] : List Event), v.isAside = true := List.forall_mem_nil _
    refine ⟨⟨hlet'.policy, .handBack ho hh hlet' htrace hnothing .released fun g hg c ↦ ?_,
      .of_forall ?_⟩, hlet'⟩
    · exact .aside (decide_eq_false fun he ↦ hg (Option.some.inj he).symm) rfl rfl
    · rw [since_of_eq htrace]
      exact List.forall_mem_singleton.2 fun _ ↦ rfl
  · rintro e t ⟨hm, hrun⟩
    have hreport (g : Nat) : (Event.log (strandedReport h e)).strands g = true ↔ g = h :=
      Event.strands_iff _ rfl rfl
    have hlet' := hlet.minds hm
    have htrace : t.trace ++ [.log (strandedReport h e)] =
        s.trace ++ (u.since t ++ [.log (strandedReport h e)]) := by
      rw [← List.append_assoc, ← hu, ← hm.trace]
    refine ⟨⟨hlet'.policy, .handBack ho hh ⟨hlet'.policy, hlet'.handle, hlet'.api⟩ htrace hm.events
      (.stranded ((hreport h).2 rfl)) fun g hg c ↦ ?_, ?_⟩, hlet'.policy, hlet'.handle, hlet'.api⟩
    · exact .aside rfl rfl (Bool.eq_false_iff.2 fun hs ↦ hg ((hreport g).1 hs))
    · -- Before the report nothing was heard that is of concern to any handle.
      intro g front v back hsince hv
      have hsplit : u.since t ++ [.log (strandedReport h e)] = front ++ v :: back :=
        (since_of_eq htrace).symm.trans hsince
      have hbefore : ∀ w ∈ u.since t, w.strands g = false := fun w hw ↦
        Event.strands_of_isAside (hm.events w hw) g
      obtain ⟨rfl, rfl⟩ := Event.eq_of_strands hbefore hv hsplit
      obtain rfl := (hreport g).1 hv
      exact ⟨_, e, u, t, rfl, hlet.policy, hrun, by rw [hm.trace, hu], rfl⟩

/-- A wrapper that ends hands its handle back once, and has none afterwards. -/
theorem surrenders_cleanup (ho : s.Owns id) :
    Ends (cleanup id) s fun _ t ↦
      s.Surrenders (some (s.wrapper id).api) t ∧ (t.wrapper id).handle = none := by
  have hend {t : State} (ht : s.Surrenders (some (s.wrapper id).api) t)
      (hnone : (t.wrapper id).handle = none) :
      Ends (do discard (releaseAll id); modifySlots id fun _ ↦ {}) t fun _ u ↦
        s.Surrenders (some (s.wrapper id).api) u ∧ (u.wrapper id).handle = none :=
    (minor_empty t).mono fun _ u hu ↦ ⟨ht.trans (.of_aside hu), (hu.handle id).trans hnone⟩
  have hreported {t : State} {fields : List (String × Field)}
      (ht : s.Surrenders (some (s.wrapper id).api) t ∧ s.LetGo id t) :
      Ends (do report .debug "easy handle released" fields
               discard (releaseAll id)
               modifySlots id fun _ ↦ {}) t fun _ u ↦
        s.Surrenders (some (s.wrapper id).api) u ∧ (u.wrapper id).handle = none := by
    rw [ends_bind]
    refine (minor_report .debug fields (by decide) t).mono fun _ u hu ↦ ?_
    exact hend (ht.1.trans (.of_aside hu)) (((ht.2.minds hu).handle id).trans (if_pos rfl))
  rw [cleanup, ends_bind, ends_get]
  dsimp only
  cases hh : (s.wrapper id).handle with
  | none => exact hend (.refl s) hh
  | some h =>
    dsimp only
    rw [ends_bind, ends_modify, ends_bind, ends_modify, ends_bind, ends_run]
    -- From here on the wrapper is without a handle, and the handle is still to be handed back.
    have hlet : s.LetGo id (s.modifyWrapper id ({ · with handle := none })) := by
      refine ⟨rfl, fun j ↦ ?_, fun j ↦ proj_modifyWrapper s id j Wrapper.api fun _ ↦ rfl⟩
      rw [wrapper_modifyWrapper s (isAlive_of_handle hh)]
      split <;> rfl
    refine Leads.mono (leads_handBack ho hh ?_ ?_)
      (fun _ t ht ↦ hreported ht) fun e t ht ↦ ?_
    · exact ⟨rfl, hlet.handle, hlet.api⟩
    · rfl
    · dsimp only
      rw [ends_bind]
      exact ht.mono fun _ _ hu ↦ hreported hu

theorem surrenders_drop (ho : s.Owns id) :
    Ends (drop id) s fun _ t ↦
      s.Surrenders (some (s.wrapper id).api) t ∧ (t.wrapper id).handle = none := by
  rw [drop, ends_bind]
  refine (surrenders_cleanup ho).mono ?_
  rintro _ t ⟨ht, hnone⟩
  have hremove : t.Surrenders (some (s.wrapper id).api) (t.remove id) :=
    ⟨rfl, .remove hnone, .of_forall fun v hv ↦ by
      have hnil : t.since (t.remove id) = [] := since_of_eq (List.append_nil _).symm
      rw [hnil] at hv
      exact absurd hv List.not_mem_nil⟩
  exact ⟨ht.trans hremove, congrArg Wrapper.handle (wrapper_remove_self t id)⟩

/-- A handle that was just given out becomes a wrapper's. -/
theorem surrenders_adopt {way : Option Api} {api : Api} {x : NativeCall} {given : Option Nat}
    (hn : s.Numbered) (ht : s.Called api.route x t) (hx : s.Entitles api.route x)
    (hg : x.given? = given) (hfree : ∀ h, given = some h → ∀ j, (s.wrapper j).handle ≠ some h)
    (origin : EntryPoint) :
    Leads (adopt given api origin) t
      (fun id u ↦ s.Surrenders way u ∧ u.Owns id ∧ ∃ h, (u.wrapper id).handle = some h ∧
        (u.wrapper id).api = api)
      fun _ u ↦ s.Surrenders way u := by
  rw [adopt.eq_def]
  cases given with
  | none => exact ⟨ht.policy, .of_called ht hx hg, .of_forall ht.strands⟩
  | some h =>
    dsimp only
    rw [leads_bind, leads_get, leads_bind, leads_modify, leads_bind, leads_lift]
    refine (minor_report .debug _ (by decide) (t.adopt h api)).mono fun _ u hu ↦ ?_
    have hadopt : s.Surrenders way (t.adopt h api) :=
      ⟨ht.policy, .adopt hn ht hx hg (hfree h rfl), .of_forall ht.strands⟩
    have hself := (ht.wrapper_adopt hn h api s.opened).trans (if_pos rfl)
    refine ⟨hadopt.trans (.of_aside hu), ?_, h, ?_, ?_⟩
    · exact (ht.opened ▸ ht.owns_adopt hn api (hfree h rfl)).minds hu
    · rw [hu.handle, ht.opened, hself]
    · rw [hu.api, ht.opened, hself]

theorem surrenders_create {way : Option Api} (hc : s.Coherent) (hf : s.Fresh) (api : Api) :
    Leads (create api) s (fun _ t ↦ s.Surrenders way t) fun _ t ↦ s.Surrenders way t := by
  have hinit : Leads api.init s _ _ :=
    api.init_eq ▸ api.leads_call_told .init Engine.call_answerInit s
  rw [create, leads_bind]
  refine (hinit.and api.leads_init).mono ?_ fun _ _ ht ↦ .of_aside ht.1
  rintro given t ⟨ht, hnew⟩
  rw [leads_bind]
  refine (surrenders_adopt hc.numbered ht ?_ rfl ?_ .init).mono ?_ fun _ _ hu ↦ hu
  · intro g hg
    cases hg
  · rintro h rfl
    exact hc.handle_ne (hnew.1 hf)
  · rintro id u ⟨hu, -, h, hh, -⟩
    rw [leads_bind, leads_lift]
    exact (minds_applyBundle hh).mono fun _ v hv ↦ hu.trans (.of_about hh hv)

/-- A duplicate that cannot be taken off its source's callbacks hands its handle back at once, by
the way of its source. -/
theorem surrenders_duplicate (hc : s.Coherent) (hf : s.Fresh) {g : Nat}
    (hh : (s.wrapper id).handle = some g) :
    Leads (duplicate id) s (fun _ t ↦ s.Surrenders (some (s.wrapper id).api) t)
      fun _ t ↦ s.Surrenders (some (s.wrapper id).api) t := by
  have hduphandle : Leads ((s.wrapper id).api.duphandle g) s _ _ :=
    Api.duphandle_eq _ g ▸ (s.wrapper id).api.leads_call_told .duphandle
      (fun p e ↦ e.call_answerDuphandle p g) s
  rw [duplicate, leads_bind, leads_liveHandle hh, leads_bind, leads_getApi, leads_bind]
  refine (hduphandle.and (Api.leads_duphandle _ g)).mono ?_ fun _ _ ht ↦ .of_aside ht.1
  rintro given t ⟨ht, hnew⟩
  rw [leads_bind]
  refine (surrenders_adopt hc.numbered ht ?_ rfl ?_ .duphandle).mono ?_ fun _ _ hu ↦ hu
  · rintro g' ⟨⟩
    exact ⟨(hc.owns id).keptBy hh, NativeCall.noConfusion⟩
  · rintro h rfl
    exact hc.handle_ne (hnew.1 hf)
  · rintro copy u ⟨hu, hown, h, hcopy, hway⟩
    rw [leads_bind, leads_getLedger, leads_bind, leads_lift]
    refine (minor_recordEach _ u).mono fun _ v hv ↦ ?_
    have hcopy' : (v.wrapper copy).handle = some h := (hv.handle copy).trans hcopy
    have hsw {w : State} (hw : Minds (Event.About (v.wrapper copy).api.route h) v w) :
        s.Surrenders (some (s.wrapper id).api) w :=
      (hu.trans (.of_aside hv)).trans (.of_about hcopy' hw)
    rw [leads_bind, leads_getSlots, leads_bind, leads_orUndo]
    have htends : Tends copy (do
        let h ← liveHandle copy
        detachAll copy h (v.wrapper id).slots.installed) := tends_of_heeds fun _ _ ↦
      heeds_detachAll _
    refine (htends v h hcopy').mono (fun _ w hw ↦ hsw hw) fun e w hw ↦ ?_
    -- Whatever was detached by then, the duplicate still has its handle to itself.
    refine (surrenders_drop ((hown.minds hv).minds hw)).mono fun _ t ht ↦ (hsw hw).trans ?_
    rw [← hway, ← hv.api copy, ← hw.api copy]
    exact ht.1

end Wrapper

/-! ## Runs -/

section

variable {s : State} {x : Step} {xs : List Step}

theorem State.Coherent.surrenders_ended (hc : s.Coherent) {id : WrapperId}
    (hx : x = .cleanup id ∨ x = .drop id) :
    s.Surrenders (some (s.wrapper id).api) (x.pass s).after ∧
      ((x.pass s).after.wrapper id).handle = none := by
  refine Step.pass_of_leads (P := fun _ t ↦ s.Surrenders (some (s.wrapper id).api) t ∧
    (t.wrapper id).handle = none) ?_
  rcases hx with rfl | rfl
  · rw [Step.run, leads_bind, leads_lift]
    exact surrenders_cleanup (hc.owns id)
  · rw [Step.run, leads_bind, leads_lift]
    exact surrenders_drop (hc.owns id)

/-- The way by which a step hands a handle back, if it does. -/
def Step.way? (x : Step) (s : State) : Option Api :=
  match x with
  | .duplicate id | .cleanup id | .drop id => some (s.wrapper id).api
  | _ => none

/-- Whatever a step does, all goes well with every handle. -/
theorem State.Coherent.surrenders_pass (hc : s.Coherent) (hf : x.makes = true → s.Fresh) :
    s.Surrenders (x.way? s) (x.pass s).after := by
  have hsurrenders
      (hx : Leads x.run s (fun _ t ↦ s.Surrenders (x.way? s) t) fun _ t ↦
        s.Surrenders (x.way? s) t) : s.Surrenders (x.way? s) (x.pass s).after :=
    Step.pass_of_leads (P := fun _ t ↦ s.Surrenders (x.way? s) t) hx
  cases hneeds : x.needs? with
  | none =>
    -- The step begins a wrapper or ends one, or its ledger is cut.
    cases x with
    | create api => exact hsurrenders (surrenders_create hc (hf rfl) api)
    | release id mark =>
      refine hsurrenders ?_
      rw [Step.run, leads_bind, leads_discard, leads_lift]
      exact (minor_releaseSince mark s).mono fun _ _ ht ↦ .of_aside ht
    | cleanup => exact (hc.surrenders_ended (.inl rfl)).1
    | drop => exact (hc.surrenders_ended (.inr rfl)).1
    | duplicate | setopt | perform | pause | getinfo | send | recv | escape | unescape
    | impersonate | reset => cases hneeds
  | some id =>
    cases hh : (s.wrapper id).handle with
    | none =>
      rw [Step.pass_of_none hneeds hh]
      exact .refl s
    | some h =>
      by_cases hmakes : x.makes = true
      · cases x with
        | duplicate =>
          obtain rfl := Option.some.inj hneeds
          exact hsurrenders (surrenders_duplicate hc (hf rfl) hh)
        | create | setopt | perform | pause | getinfo | send | recv | escape | unescape
        | impersonate | reset | release | cleanup | drop => cases hmakes <;> cases hneeds
      · -- Whatever else has a handle to work with makes use of it and leaves it where it is.
        exact .of_about hh (Step.minds_of_pass hneeds (Bool.eq_false_iff.2 hmakes) hh)

theorem State.Orderly.conveys (hc : s.Coherent) (ho : s.Orderly xs) : s.Conveys (s.after xs) := by
  refine ho.preserved hc (P := s.Conveys) (Q := fun p ↦ p.before.Conveys p.after) (.refl s)
    (fun _ _ hp ih ↦ ih.trans hp) fun p hp ↦ ?_
  obtain ⟨ys, y, zs, rfl, rfl⟩ := exists_of_mem_passages hp
  exact ((ho.effect hc).1.surrenders_pass ho.fresh).conveys

/-! ### Passages -/

/-- A way that takes handles back does not fail to. -/
theorem Api.Offers.leads_cleanup {api : Api} (ho : api.Offers s.policy .cleanup) (g : Nat) :
    Leads (api.cleanup g) s (fun _ _ ↦ True) fun _ _ ↦ False := by
  rw [Api.cleanup_eq]
  exact ho.leads_call fun _ _ ↦ trivial

/-- In a passage no report on a handle stands for itself. Where the way takes handles back there is
none, and a handle goes by a call of the engine. -/
structure Passage.Honest (p : Passage) : Prop where
  vouched : Vouched (p.step.way? p.before) p.before p.after
  offered : (∀ api, p.step.way? p.before = some api → api.Offers p.before.policy .cleanup) →
    ∀ g, (p.before.since p.after).countP (·.gives g) + (if g ∈ p.before.handles then 1 else 0) =
      (p.before.since p.after).countP (·.frees g) + if g ∈ p.after.handles then 1 else 0

theorem State.Vouched.strands {way : Option Api} {t : State} (hv : Vouched way s t)
    (ho : ∀ api, way = some api → api.Offers s.policy .cleanup) {v : Event} (hm : v ∈ s.since t)
    (g : Nat) : v.strands g = false := by
  by_contra hstrands
  obtain ⟨front, back, hsince⟩ := List.append_of_mem hm
  have hv' : v.strands g = true := Bool.of_not_eq_false hstrands
  obtain ⟨api, e, u, w, hway, hp, hrun, -⟩ := hv g front v back hsince hv'
  have hleads := (hp.symm ▸ ho api hway : api.Offers u.policy .cleanup).leads_cleanup g
  rw [Leads, hrun] at hleads
  exact hleads

theorem State.Coherent.exists_keptBy (hc : s.Coherent) (g : Nat) : ∃ c, s.KeptBy g c := by
  by_cases h : ∃ id, (s.wrapper id).handle = some g
  · obtain ⟨id, hh⟩ := h
    exact ⟨_, (hc.owns id).keptBy hh⟩
  · exact ⟨none, keptBy_none_iff.2 fun j hj ↦ h ⟨j, hj⟩⟩

theorem State.Surrenders.honest {p : Passage} (hc : p.before.Coherent) (hn : p.after.Numbered)
    (hs : p.before.Surrenders (p.step.way? p.before) p.after) : p.Honest := by
  refine ⟨hs.vouched, fun hoffers g ↦ ?_⟩
  obtain ⟨c, hkept⟩ := hc.exists_keptBy g
  obtain ⟨vs, htrace, hvs⟩ := hs.conveys
  obtain ⟨d, hcourse, hkept'⟩ := hvs g c hkept
  have hcount := hcourse.count
  simp only [hkept.isSome_iff hc.numbered.nodup, hkept'.isSome_iff hn.nodup] at hcount
  rw [since_of_eq htrace, hcount]
  congr 1
  refine List.countP_congr fun v hv ↦ ?_
  rw [← since_of_eq htrace] at hv
  rw [Event.handsBack, hs.vouched.strands hoffers hv g, Bool.or_false]

end

/-- Whatever is done with any number of wrappers, and whatever the engine makes of it. The history
of every handle is a course, which comes out where the wrappers say: a handle is out by the way of
the wrapper that has it, and one that no wrapper has was handed back as often as it was given out.
To hand it back is to ask the wrapper's way to take it, and a report that this was in vain is made
only then. After it was handed back nothing is done with it, unless the engine gives it out again. A
wrapper that has no handle has nothing else either, and whatever needs the handle fails and does
nothing. And a wrapper that was ended, in either way, has no handle for good. -/
theorem handles_are_released_once (policy : Policy) (host : Host) (settled : Settled)
    (hp : policy.Fresh) (steps : List Step) {s : State}
    (hs : s = (State.start policy host settled).after steps) :
    (∀ g, ∃ c, Course g none s.trace c ∧ s.KeptBy g c) ∧
    (∀ g, s.trace.countP (·.gives g) =
      s.trace.countP (·.handsBack g) + if g ∈ s.handles then 1 else 0) ∧
    (∀ p ∈ passages (.start policy host settled) steps, p.Honest) ∧
    (∀ g front v mid w back, s.trace = front ++ v :: (mid ++ w :: back) → v.handsBack g = true →
      w.takes g = true ∨ w.handsBack g = true → ∃ u ∈ mid, u.gives g = true) ∧
    (∀ id, (s.wrapper id).handle = none → (s.wrapper id).Bare ∧
      ∀ x : Step, x.needs? = some id → x.pass s = ⟨x, s, .error .noHandle, s⟩) ∧
    ∀ id ys x zs, steps = ys ++ x :: zs → x = .cleanup id ∨ x = .drop id →
      id < ((State.start policy host settled).after ys).opened → (s.wrapper id).handle = none := by
  subst hs
  have hc := Coherent.start policy host settled
  have hr := Registered.start policy host settled
  have ho := Orderly.of_policy hc hp steps
  have hnone (g : Nat) : (State.start policy host settled).KeptBy g none :=
    keptBy_none_iff.2 fun _ hj ↦ by cases hj
  have htidy : (State.start policy host settled).Tidy := fun _ _ ↦ ⟨rfl, rfl, rfl⟩
  have hcourse (g : Nat) : ∃ c, Course g none ((State.start policy host settled).after steps).trace
      c ∧ ((State.start policy host settled).after steps).KeptBy g c := by
    obtain ⟨vs, htrace, hvs⟩ := ho.conveys hc
    rw [htrace]
    exact hvs g none (hnone g)
  refine ⟨hcourse, fun g ↦ ?_, fun p hmem ↦ ?_, ?_, fun id hid ↦ ⟨ho.tidy hc hr htidy id hid, ?_⟩,
    ?_⟩
  · obtain ⟨c, hcg, hkept⟩ := hcourse g
    have hmem := hkept.isSome_iff (ho.coherent hc).numbered.nodup
    have hcount := hcg.count
    simp only [hmem] at hcount
    exact hcount
  · obtain ⟨ys, x, zs, rfl, rfl⟩ := exists_of_mem_passages hmem
    obtain ⟨hcoh, he⟩ := ho.effect hc
    exact (hcoh.surrenders_pass ho.fresh).honest hcoh (he.numbered hcoh.numbered)
  · intro g front v mid w back htrace hv hw
    obtain ⟨c, hcg, -⟩ := hcourse g
    rw [htrace] at hcg
    exact hcg.exists_gives hv hw
  · exact fun x hx ↦ Step.pass_of_none hx hid
  · rintro id ys x zs rfl hx hid
    obtain ⟨hcoh, he⟩ := ho.effect hc
    have hr' := registered_step hcoh he (ho.of_append.registered hc hr)
    have hc' := he.coherent hcoh
    have hp' : (x.pass ((State.start policy host settled).after ys)).after.policy.Fresh := by
      rw [he.policy, hc.numbered.policy_after]
      exact hp
    have hafter : (State.start policy host settled).after (ys ++ x :: zs) =
        (x.pass ((State.start policy host settled).after ys)).after.after zs := after_append _ ys _
    rw [hafter]
    -- The number of the wrapper is used up, so none that begins later has it.
    exact (Orderly.of_policy hc' hp' zs).spent hc' hr'
      (Nat.lt_of_lt_of_le hid (he.opened_le hcoh.numbered)) (hcoh.surrenders_ended hx).2

/-- A handle is given again after it was handed back, and both its wrappers hand it back once. -/
theorem recycled_handle_is_released_twice :
    let s := (State.start (Policy.guarded { newHandle := fun _ ↦ some 0 }) .bare .bare).after
      [.create .inProcess, .cleanup 0, .cleanup 0, .create .inProcess, .duplicate 1, .drop 0,
        .drop 1]
    s.trace.countP (·.handsBack 0) = 2 ∧
      ((Step.escape 1 "").pass s).result = .error .noHandle := by
  intro s
  obtain ⟨-, hcount, -, -, hbare, -⟩ := handles_are_released_once
    (Policy.guarded { newHandle := fun _ ↦ some 0 }) .bare .bare (Policy.guarded_fresh _)
    [.create .inProcess, .cleanup 0, .cleanup 0, .create .inProcess, .duplicate 1, .drop 0, .drop 1]
    (s := s) rfl
  have hgiven : s.trace.countP (·.gives 0) = 2 := by decide +kernel
  have hnone : (s.wrapper 1).handle = none := by decide +kernel
  refine ⟨?_, ?_⟩
  · have hempty : 0 ∉ s.handles := by decide +kernel
    have hall := hcount 0
    rw [hgiven, if_neg hempty] at hall
    exact hall.symm
  · rw [(hbare 1 hnone).2 (.escape 1 "") rfl]

end NativeTransfer
