import NativeTransfer.Proofs.Setting

/-!
# What setting a callback option sets out to do

For every kind, its function option and its data option are each a table: a value either has no
place there, or has the engine told some arguments and the slots changed. The arms of the dispatcher
differ in whether the slots change before the engine is asked or after it has agreed, and in what is
taken back if it does not. So a `Plan` has two changes for the slots: one for the case that every
argument is accepted, and one for the case that some argument is not.

## What a plan is good for

A program that carries out a plan is described completely: if it succeeds all arguments were stored
and the slots changed in the one way, and if it fails those before some place were stored and the
slots changed in the other (`CarriesOut`). The dispatcher is taken apart here for the last time.
What a setting leaves behind if it is refused, if it is accepted, or if two follow one another, is
read off plans and never off programs.

A value without a place in the table has no plan, and setting it changes nothing at all.
-/

namespace NativeTransfer

/-! ## Options by their part in the wiring -/

namespace CallbackKind

/-- An option wires a callback by its function, or by its context, or not at all. -/
theorem option_cases (o : OptionCode) : (∃ k : CallbackKind, o = k.functionOption) ∨
    (∃ k : CallbackKind, o = k.dataOption) ∨
      ∀ k : CallbackKind, k.functionOption ≠ o ∧ k.dataOption ≠ o := by
  by_cases hf : ∃ k : CallbackKind, o = k.functionOption
  · exact .inl hf
  by_cases hd : ∃ k : CallbackKind, o = k.dataOption
  · exact .inr (.inl hd)
  · exact .inr (.inr fun k ↦ ⟨fun he ↦ hf ⟨k, he.symm⟩, fun he ↦ hd ⟨k, he.symm⟩⟩)

theorem ofOption?_eq_none {o : OptionCode}
    (ho : ∀ k : CallbackKind, k.functionOption ≠ o ∧ k.dataOption ≠ o) :
    ofFunctionOption? o = none ∧ ofDataOption? o = none := by
  constructor
  · cases hf : ofFunctionOption? o with
    | none => rfl
    | some k => exact absurd (functionOption_of_ofFunctionOption? hf) (ho k).1
  · cases hd : ofDataOption? o with
    | none => rfl
    | some k => exact absurd (dataOption_of_ofDataOption? hd) (ho k).2

end CallbackKind

namespace Wrapper

/-- A state in which it was reported that an option is about to be set. -/
def announced (o : OptionCode) (v : Value) (s : State) : State :=
  { s with trace := s.trace ++
    [.log ⟨.debug, "setopt", [("option", .text o.text), ("value", .text v.shown)]⟩] }

theorem drift_announced (o : OptionCode) (v : Value) (s : State) :
    State.Drift [] s (announced o v s) := ends_report _ _ _

/-- An option is set by one of three programs, as it wires the function of a callback, or its
context, or nothing. -/
theorem leads_setopt_of {s : State} {id : WrapperId} {h : Nat} {o : OptionCode} {v : Value}
    {ok : Unit → State → Prop} {err : Error → State → Prop} (hh : (s.wrapper id).handle = some h)
    (hf : ∀ k, o = CallbackKind.functionOption k →
      Leads (setCallback id h k v) (announced o v s) ok err)
    (hd : ∀ k, o = CallbackKind.dataOption k →
      Leads (setCallbackData id h k v) (announced o v s) ok err)
    (hp : (∀ k : CallbackKind, k.functionOption ≠ o ∧ k.dataOption ≠ o) →
      Leads (setPlain id h o v) (announced o v s) ok err) :
    Leads (setopt id o v) s ok err := by
  have hannounced : Ends (report .debug "setopt" [("option", .text o.text),
      ("value", .text v.shown)]) s fun _ t ↦ t = announced o v s := rfl
  rw [setopt, leads_bind, leads_liveHandle hh, leads_bind, leads_lift]
  refine hannounced.mono ?_
  rintro _ t rfl
  rcases CallbackKind.option_cases o with ⟨k, rfl⟩ | ⟨k, rfl⟩ | ho
  · rw [CallbackKind.ofFunctionOption?_functionOption]
    exact hf k rfl
  · rw [CallbackKind.ofFunctionOption?_dataOption, CallbackKind.ofDataOption?_dataOption]
    exact hd k rfl
  · obtain ⟨hfun, hdata⟩ := CallbackKind.ofOption?_eq_none ho
    rw [hfun, hdata]
    exact hp ho

end Wrapper

/-! ## Slots and streams -/

namespace Slots

@[simp] theorem clear_install (x : Slots) {c : Callback} {k : CallbackKind} (hc : c.kind = k) :
    (x.install c).clear k = x.clear k := by
  subst hc
  cases c <;> rfl

@[simp] theorem clear_setData (x : Slots) (d : UserData) (k : CallbackKind) :
    (x.setData d k).clear k = x.clear k := by
  cases k <;> rfl

end Slots

/-- The stream that a value gives to the data option of a kind. Octets go to sinks and come from
sources. -/
def Value.stream? (k : CallbackKind) : Value → Option UserData
  | .sink s => if k = .write ∨ k = .header then some (.writer s) else none
  | .source s => if k = .read then some (.reader s) else none
  | _ => none

theorem Callback.exists_forStream? {k : CallbackKind} {v : Value} {d : UserData}
    (hv : v.stream? k = some d) : ∃ c, Callback.forStream? k = some c ∧ c.kind = k := by
  cases k with
  | write => exact ⟨_, rfl, rfl⟩
  | read => exact ⟨_, rfl, rfl⟩
  | header => exact ⟨_, rfl, rfl⟩
  | progress => cases v <;> simp [Value.stream?] at hv

namespace Wrapper

open State

variable {s t : State} {id : WrapperId} {h : Nat} {k : CallbackKind} {v : Value}

/-! ## Plans -/

/-- What the engine is told, and what becomes of the slots. -/
structure Plan where
  args : List (OptionCode × Argument)
  /-- The change if every argument is accepted. -/
  kept : Slots → Slots
  /-- The change if some argument is refused. -/
  lost : Slots → Slots

/-- The table of the function option of a kind. -/
def functionPlan? (h : Nat) (k : CallbackKind) : Value → Option Plan
  | .null => some ⟨unwiring k, (·.clear k), (·.clear k)⟩
  | .function c => if c.kind = k then some ⟨wiring h k, (·.install c), fun x ↦ x⟩ else none
  | _ => none

/-- Slots with a stream, and with the callback that serves it. -/
def serve (k : CallbackKind) (d : UserData) (x : Slots) : Slots :=
  match Callback.forStream? k with
  | some c => (x.setData d k).install c
  | none => x.setData d k

/-- The plan for a stream. Where a callback is there already, it keeps the stream even if the engine
refuses to be wired to it again. -/
def streamPlan (h : Nat) (k : CallbackKind) (installed : Bool) (d : UserData) : Plan :=
  if installed then ⟨wiring h k, (·.setData d k), (·.setData d k)⟩
  else ⟨wiring h k, serve k d, (·.clear k)⟩

/-- The table of the data option of a kind, which depends on whether the kind has a callback. -/
def dataPlan? (h : Nat) (k : CallbackKind) (installed : Bool) : Value → Option Plan
  | .null =>
    some ⟨if installed then [] else [(k.dataOption, .pointer .null)], (·.setData .empty k),
      (·.setData .empty k)⟩
  | .data d =>
    some ⟨if installed then [(k.dataOption, .pointer (.handle h))] else [],
      (·.setData (.value d) k), (·.setData (.value d) k)⟩
  | v => (v.stream? k).map (streamPlan h k installed)

/-- From a state, a program carries out a plan. Without one it changes nothing, and fails in this
way. -/
def CarriesOut (id : WrapperId) (h : Nat) (x : Attempt Unit) (s : State) (mismatched : Error) :
    Option Plan → Prop
  | none => Leads x s (fun _ _ ↦ False) fun e t ↦ e = mismatched ∧ t = s
  | some p =>
    Leads x s (fun _ t ↦ Drift [] ((s.withSlots id p.kept).storeAll id h p.args) t) fun _ t ↦
      ∃ done, done <+: p.args ∧ done ≠ p.args ∧
        Drift [] ((s.withSlots id p.lost).storeAll id h done) t

/-! ## Plans are carried out -/

@[simp] theorem withSlots_self (s : State) : s.withSlots id (fun x ↦ x) = s := by
  have h : Pairs.adjust id (fun w : Wrapper ↦ { w with slots := w.slots }) s.wrappers =
      s.wrappers := by
    rw [Pairs.adjust]
    simp
  rw [withSlots, modifyWrapper, h]

theorem withSlots_withSlots (f g : Slots → Slots) :
    (s.withSlots id f).withSlots id g = s.withSlots id fun x ↦ g (f x) :=
  modifyWrapper_modifyWrapper _ _

section

variable {xs : List (OptionCode × Argument)} {x : Attempt Unit} {f : Slots → Slots} {e : Error}

/-- Slots that change before the engine is asked have changed whatever it answers. -/
theorem carriesOut_modify_first (hx : Stores id h xs x) :
    CarriesOut id h (do modifySlots id f; x) s e (some ⟨xs, f, f⟩) := by
  rw [CarriesOut, leads_bind, leads_modifySlots]
  exact hx _ _ rfl

/-- Slots that change once the engine has agreed stay as they are if it does not. -/
theorem carriesOut_modify_last (hx : Stores id h xs x) :
    CarriesOut id h (do x; modifySlots id f) s e (some ⟨xs, f, fun y ↦ y⟩) := by
  rw [CarriesOut, leads_bind]
  refine (hx _ s rfl).mono (fun _ t ht ↦ ?_) ?_
  · rw [leads_modifySlots, storeAll_withSlots]
    exact ht.modifyWrapper id _
  · rintro _ t ⟨done, hpre, hne, ht⟩
    refine ⟨done, hpre, hne, ?_⟩
    rw [withSlots_self]
    exact ht

theorem leads_orUndo_slots {g : Slots → Slots} (hx : Stores id h xs x) :
    Leads (orUndo x (modifySlots id g)) (s.withSlots id f)
      (fun _ t ↦ Drift [] ((s.withSlots id f).storeAll id h xs) t) fun _ t ↦
        ∃ done, done <+: xs ∧ done ≠ xs ∧
          Drift [] ((s.withSlots id fun y ↦ g (f y)).storeAll id h done) t := by
  rw [leads_orUndo]
  refine (hx _ _ rfl).mono (fun _ t ht ↦ ht) ?_
  rintro _ t ⟨done, hpre, hne, ht⟩
  refine ⟨done, hpre, hne, ?_⟩
  rw [← withSlots_withSlots f g, storeAll_withSlots]
  exact ht.modifyWrapper id _

end

/-- The function option of a kind does what its table says. -/
theorem carriesOut_setCallback (k : CallbackKind) (v : Value) :
    CarriesOut id h (setCallback id h k v) s (.typeMismatch k.functionOption (.function k) v.kind)
      (functionPlan? h k v) := by
  cases v with
  | null => exact carriesOut_modify_first (stores_unwire k)
  | function c =>
    rw [setCallback, functionPlan?]
    by_cases hc : c.kind = k
    · rw [if_pos hc, if_pos hc]
      exact carriesOut_modify_last (stores_wire k)
    · rw [if_neg hc, if_neg hc]
      exact ⟨rfl, rfl⟩
  | long | bool | text | bytes | list | sink | source | data | pointer => exact ⟨rfl, rfl⟩

/-- A stream is served where no callback is. -/
theorem carriesOut_setStream {c : Callback} (hc : Callback.forStream? k = some c)
    (hk : c.kind = k) (d : UserData) (e : Error) :
    CarriesOut id h (setStream id h k d) s e
      (some (streamPlan h k ((s.wrapper id).slots.isInstalled k) d)) := by
  rw [setStream, CarriesOut, leads_bind, leads_getSlots]
  cases hi : (s.wrapper id).slots.isInstalled k with
  | true => exact carriesOut_modify_first (e := e) (stores_wire k)
  | false =>
    -- The slot is filled before the engine is asked, and emptied again if it refuses.
    have hserve : serve k d = fun x ↦ (x.setData d k).install c := by
      funext x
      rw [serve, hc]
    simp only [hc, Bool.false_eq_true, if_false, streamPlan, hserve]
    rw [leads_bind, leads_modifySlots, leads_bind, leads_modifySlots, withSlots_withSlots]
    have hwire : Stores id h (wiring h k) (wire id h k) := stores_wire k
    have hundone := leads_orUndo_slots (s := s) (f := fun x ↦ (x.setData d k).install c)
      (g := fun x ↦ x.clear k) hwire
    simpa only [Slots.clear_install _ hk, Slots.clear_setData] using hundone

/-- The data option of a kind does what its table says. -/
theorem carriesOut_setCallbackData (k : CallbackKind) (v : Value) :
    CarriesOut id h (setCallbackData id h k v) s (.typeMismatch k.dataOption (.stream k) v.kind)
      (dataPlan? h k ((s.wrapper id).slots.isInstalled k) v) := by
  have hlook {y : Slots → Attempt Unit} {e : Error} {p : Option Plan}
      (hy : CarriesOut id h (y (s.wrapper id).slots) s e p) :
      CarriesOut id h (do y (← getSlots id)) s e p := by
    cases p with
    | none => exact leads_bind.2 hy
    | some p => exact leads_bind.2 hy
  rw [setCallbackData]
  refine hlook ?_
  generalize hinst : (s.wrapper id).slots.isInstalled k = installed
  cases v with
  | null =>
    cases installed with
    | true => exact carriesOut_modify_first Stores.nil
    | false => exact carriesOut_modify_first (stores_setPointer _ _)
  | data d =>
    cases installed with
    | true => exact carriesOut_modify_first (stores_setPointer _ _)
    | false => exact carriesOut_modify_first Stores.nil
  | sink x =>
    have hstream : (Value.sink x).stream? k = if k = .write ∨ k = .header then some (.writer x)
      else none := rfl
    have hplan : dataPlan? h k installed (.sink x) =
        ((Value.sink x).stream? k).map (streamPlan h k installed) := rfl
    rw [hplan, hstream]
    by_cases hk : k = .write ∨ k = .header
    · obtain ⟨c, hc, hck⟩ := Callback.exists_forStream? (hstream.trans (if_pos hk))
      rw [if_pos hk, ← hinst]
      simp only [if_pos hk]
      exact carriesOut_setStream hc hck _ _
    · simp only [if_neg hk]
      exact ⟨rfl, rfl⟩
  | source x =>
    have hstream : (Value.source x).stream? k = if k = .read then some (.reader x) else none := rfl
    have hplan : dataPlan? h k installed (.source x) =
        ((Value.source x).stream? k).map (streamPlan h k installed) := rfl
    rw [hplan, hstream]
    by_cases hk : k = .read
    · obtain ⟨c, hc, hck⟩ := Callback.exists_forStream? (hstream.trans (if_pos hk))
      rw [if_pos hk, ← hinst]
      simp only [if_pos hk]
      exact carriesOut_setStream hc hck _ _
    · simp only [if_neg hk]
      exact ⟨rfl, rfl⟩
  | long | bool | text | bytes | list | function | pointer => exact ⟨rfl, rfl⟩

end Wrapper

end NativeTransfer
