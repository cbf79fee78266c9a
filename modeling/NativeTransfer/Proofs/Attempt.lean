import NativeTransfer.State.Basic

/-!
# What an attempt leads to

An attempt that fails keeps what it had done by then, so a statement about it has two sides, and
both speak of the state that is left: `Leads x s ok err` says that from `s` the attempt `x` either
succeeds with `ok` or fails with `err`. An act has one side only. The statements take a program
apart along its binds, and what is known of a part is brought in by `Leads.mono`.

## How statements are put together

Each step of a program has an equivalence that takes the statement apart (`leads_bind`, `leads_get`,
`leads_orUndo` and so on), so a proof rewrites with them from the first step to the last and is left
with what is to be shown of states. What a callee does is one lemma about the callee. It comes in
with `Leads.mono`, which asks for an implication on either side.

`Within` is for relations between the first state and the last that go all the way, through success
and failure alike.
-/

namespace NativeTransfer

variable {α β : Type}

/-- An act that starts in a state ends with a result and a state of which this holds. -/
def Ends (x : Act α) (s : State) (post : α → State → Prop) : Prop :=
  post (x.run s).1 (x.run s).2

/-- An attempt that starts in a state succeeds so or fails so. -/
def Leads (x : Attempt α) (s : State) (ok : α → State → Prop) (err : Error → State → Prop) : Prop :=
  match x.run.run s with
  | (.ok a, t) => ok a t
  | (.error e, t) => err e t

section

variable {s : State} {post : α → State → Prop} {ok : α → State → Prop} {err : Error → State → Prop}

/-! ## Acts -/

theorem Ends.mono {x : Act α} {post' : α → State → Prop} (h : Ends x s post)
    (hp : ∀ a t, post a t → post' a t) : Ends x s post' := hp _ _ h

theorem ends_bind {x : Act β} {f : β → Act α} :
    Ends (x >>= f) s post ↔ Ends x s fun b t ↦ Ends (f b) t post := Iff.rfl

theorem ends_get {post : State → State → Prop} : Ends get s post ↔ post s s := Iff.rfl

theorem ends_modify {post : Unit → State → Prop} {f : State → State} :
    Ends (modify f) s post ↔ post () (f s) := Iff.rfl

theorem ends_discard {post : Unit → State → Prop} {x : Act α} :
    Ends (discard x) s post ↔ Ends x s fun _ t ↦ post () t := Iff.rfl

theorem ends_run {x : Attempt α} {post : Except Error α → State → Prop} :
    Ends x.run s post ↔ Leads x s (fun a t ↦ post (.ok a) t) fun e t ↦ post (.error e) t := by
  rw [Ends, Leads]
  rcases x.run.run s with ⟨_ | _, t⟩
  · rfl
  · rfl

/-! ## Attempts -/

theorem Leads.mono {x : Attempt α} {ok' : α → State → Prop} {err' : Error → State → Prop}
    (h : Leads x s ok err) (hok : ∀ a t, ok a t → ok' a t) (herr : ∀ e t, err e t → err' e t) :
    Leads x s ok' err' := by
  rw [Leads] at h ⊢
  generalize x.run.run s = r at h ⊢
  rcases r with ⟨e | a, t⟩
  · exact herr e t h
  · exact hok a t h

theorem leads_run (x : Attempt α) (s : State) :
    Leads x s (fun a t ↦ x.run.run s = (.ok a, t)) fun e t ↦ x.run.run s = (.error e, t) := by
  rw [Leads]
  generalize x.run.run s = r
  rcases r with ⟨_ | _, t⟩
  · rfl
  · rfl

theorem Leads.and {x : Attempt α} {ok' : α → State → Prop} {err' : Error → State → Prop}
    (h : Leads x s ok err) (h' : Leads x s ok' err') :
    Leads x s (fun a t ↦ ok a t ∧ ok' a t) fun e t ↦ err e t ∧ err' e t := by
  rw [Leads] at h h' ⊢
  generalize x.run.run s = r at h h' ⊢
  rcases r with ⟨e | a, t⟩
  · exact ⟨h, h'⟩
  · exact ⟨h, h'⟩

theorem Leads.exists_ok {x : Attempt α} (h : Leads x s ok fun _ _ ↦ False) :
    ∃ a t, x.run.run s = (.ok a, t) ∧ ok a t := by
  rw [Leads] at h
  generalize x.run.run s = r at h ⊢
  rcases r with ⟨_ | a, t⟩
  · exact h.elim
  · exact ⟨a, t, rfl, h⟩

theorem leads_throw (e : Error) : Leads (throw e : Attempt α) s ok err ↔ err e s := Iff.rfl

theorem leads_bind {x : Attempt β} {f : β → Attempt α} :
    Leads (x >>= f) s ok err ↔ Leads x s (fun b t ↦ Leads (f b) t ok err) err := by
  simp only [Leads, ExceptT.run_bind, StateT.run_bind]
  rcases x.run.run s with ⟨_ | _, t⟩
  · rfl
  · rfl

theorem leads_map {x : Attempt β} {f : β → α} :
    Leads (f <$> x) s ok err ↔ Leads x s (fun b t ↦ ok (f b) t) err := by
  rw [← bind_pure_comp, leads_bind]
  rfl

theorem leads_get {ok : State → State → Prop} : Leads (get : Attempt State) s ok err ↔ ok s s :=
  Iff.rfl

theorem leads_set {ok : PUnit → State → Prop} {t : State} :
    Leads (set t : Attempt PUnit) s ok err ↔ ok ⟨⟩ t := Iff.rfl

theorem leads_modify {ok : PUnit → State → Prop} {f : State → State} :
    Leads (modify f : Attempt PUnit) s ok err ↔ ok ⟨⟩ (f s) := Iff.rfl

theorem leads_lift {x : Act α} : Leads (liftM x : Attempt α) s ok err ↔ Ends x s ok := Iff.rfl

theorem leads_discard {ok : Unit → State → Prop} {x : Attempt α} :
    Leads (discard x) s ok err ↔ Leads x s (fun _ t ↦ ok () t) err := leads_map

/-- What is undone on failure comes after all that was done: nothing is rewound. -/
theorem run_orUndo (x : Attempt α) (undo : Act Unit) (s : State) :
    (orUndo x undo).run.run s =
      match x.run.run s with
      | (.ok a, t) => (.ok a, t)
      | (.error e, t) => (.error e, (undo.run t).2) := by
  simp only [orUndo, tryCatch, tryCatchThe, MonadExceptOf.tryCatch, ExceptT.tryCatch]
  rw [ExceptT.run_mk, StateT.run_bind]
  change Bind.bind (x.run.run s) _ = _
  generalize x.run.run s = r
  rcases r with ⟨_ | _, t⟩
  · rfl
  · rfl

theorem leads_orUndo {x : Attempt α} {undo : Act Unit} :
    Leads (orUndo x undo) s ok err ↔ Leads x s ok fun e t ↦ Ends undo t fun _ u ↦ err e u := by
  rw [Leads, Leads, run_orUndo]
  generalize x.run.run s = r
  rcases r with ⟨_ | _, t⟩
  · rfl
  · rfl

theorem leads_observed {x : Attempt α} {ok : Except Error α → State → Prop} :
    Leads (observed x) s ok err ↔ Leads x s (fun a t ↦ ok (.ok a) t) fun e t ↦ ok (.error e) t :=
  ends_run

end

/-! ## Relations that hold all the way -/

section

variable {R : State → State → Prop} {x : Attempt α}

/-- Whatever becomes of it, and wherever it begins, an attempt ends in a state that is so related to
the first. -/
def Within (R : State → State → Prop) (x : Attempt α) : Prop :=
  ∀ s, Leads x s (fun _ t ↦ R s t) fun _ t ↦ R s t

theorem Within.leads (htrans : ∀ s t u, R s t → R t u → R s u) (hx : Within R x) {s t : State}
    (h : R s t) : Leads x t (fun _ u ↦ R s u) fun _ u ↦ R s u :=
  (hx t).mono (fun _ _ hu ↦ htrans _ _ _ h hu) fun _ _ hu ↦ htrans _ _ _ h hu

theorem Within.bind (htrans : ∀ s t u, R s t → R t u → R s u) (hx : Within R x)
    {f : α → Attempt β} (hf : ∀ a, Within R (f a)) : Within R (x >>= f) := by
  intro s
  rw [leads_bind]
  exact (hx s).mono (fun a _ h ↦ (hf a).leads htrans h) fun _ _ h ↦ h

theorem Within.map (hx : Within R x) (f : α → β) : Within R (f <$> x) :=
  fun s ↦ leads_map.2 (hx s)

end

end NativeTransfer
