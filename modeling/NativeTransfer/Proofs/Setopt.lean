import NativeTransfer.Proofs.Plan

/-!
# Setting any option

The options that wire a callback change a slot and store a list of arguments, or the beginning of
one. Which slots go with which stored arguments is what `Rewiring` says; together with the ends of
setting any other option it is all that setting an option can come to.

## What all ends have in common

A plain option and a callback option end differently, but of either it can be said that slots were
changed, some allocations recorded and some arguments stored, in this order and nothing else
(`Touched`). The allocations that are lists were built on the way, each is recorded once, and none
was there before. Among the options that hold memory no other than the one that was set is stored.
So an invariant that looks at one of these alone is preserved with one lemma for all ends.
-/

namespace NativeTransfer

/-- An option of which the engine holds an address, and which has no part in the wiring. -/
def OptionCode.HoldsMemory (o : OptionCode) : Prop :=
  o.encoding = .object ∧ ∀ k : CallbackKind, k.dataOption ≠ o

namespace Wrapper

open State

variable {s t : State} {id : WrapperId} {h : Nat} {k : CallbackKind}

/-! ## Ends with callbacks -/

/-- What becomes of the slots when a callback option is set, with what is stored meanwhile. The slot
of the kind has a callback before or has none. -/
inductive Rewiring (h : Nat) (k : CallbackKind) (installed : Bool) :
    (Slots → Slots) → List (OptionCode × Argument) → Except Error Unit → Prop
  | clear {done r} (hr : Through (unwiring k) done r) :
      Rewiring h k installed (fun x ↦ x.clear k) done r
  | install {c} (hc : c.kind = k) :
      Rewiring h k installed (fun x ↦ x.install c) (wiring h k) (.ok ())
  | refuse {done e} (hr : Through (wiring h k) done (.error e)) :
      Rewiring h k installed (fun x ↦ x) done (.error e)
  /-- A callback that is there is wired again, as far as its new data asks for it. -/
  | feed {d xs done r} (hi : installed = true) (hxs : xs <+: wiring h k) (hr : Through xs done r) :
      Rewiring h k installed (fun x ↦ x.setData d k) done r
  | serve {d c} (hi : installed = false) (hc : c.kind = k) :
      Rewiring h k installed (fun x ↦ (x.setData d k).install c) (wiring h k) (.ok ())
  | withdraw {d c done e} (hi : installed = false) (hc : c.kind = k)
      (hr : Through (wiring h k) done (.error e)) :
      Rewiring h k installed (fun x ↦ ((x.setData d k).install c).clear k) done (.error e)
  /-- Data waits for a callback. -/
  | wait {d xs done r} (hi : installed = false)
      (hxs : xs = [] ∨ xs = [(k.dataOption, .pointer .null)]) (hr : Through xs done r) :
      Rewiring h k installed (fun x ↦ x.setData d k) done r

/-- The end of setting an option. -/
inductive AfterSetopt (s : State) (id : WrapperId) (h : Nat) (o : OptionCode) (v : Value) :
    Except Error Unit → State → Prop
  | plain {r t} (ho : ∀ k : CallbackKind, k.functionOption ≠ o ∧ k.dataOption ≠ o)
      (ha : AfterPlain s id h o v r t) : AfterSetopt s id h o v r t
  | refused {e t} (hd : Drift [] s t) : AfterSetopt s id h o v (.error e) t
  | rewired {k f done r t} (ho : o = k.functionOption ∨ o = k.dataOption) (hv : v.isKept = false)
      (hw : Rewiring h k ((s.wrapper id).slots.isInstalled k) f done r)
      (hd : Drift [] ((s.withSlots id f).storeAll id h done) t) : AfterSetopt s id h o v r t

/-! ## Plans rewire -/

/-- However far a plan is carried out, it rewires the kind. -/
structure Plan.Rewires (p : Plan) (h : Nat) (k : CallbackKind) (installed : Bool) : Prop where
  kept : Rewiring h k installed p.kept p.args (.ok ())
  lost {done e} (hr : Through p.args done (.error e)) :
    Rewiring h k installed p.lost done (.error e)

theorem rewires_of_functionPlan? {installed : Bool} {v : Value} {p : Plan}
    (hp : functionPlan? h k v = some p) : v.isKept = false ∧ p.Rewires h k installed := by
  cases v with
  | null =>
    cases hp
    exact ⟨rfl, .clear .all, .clear⟩
  | function c =>
    rw [functionPlan?] at hp
    split at hp
    · next hc =>
      cases hp
      exact ⟨rfl, .install hc, .refuse⟩
    · cases hp
  | long | bool | text | bytes | list | sink | source | data | pointer => cases hp

theorem rewires_streamPlan {v : Value} {d : UserData} (hv : v.stream? k = some d)
    (installed : Bool) : (streamPlan h k installed d).Rewires h k installed := by
  obtain ⟨c, hc, hck⟩ := Callback.exists_forStream? hv
  cases installed with
  | true => exact ⟨.feed rfl (List.prefix_refl _) .all, .feed rfl (List.prefix_refl _)⟩
  | false =>
    have hserve : serve k d = fun x ↦ (x.setData d k).install c := by
      funext x
      rw [serve, hc]
    rw [streamPlan, if_neg Bool.false_ne_true, hserve]
    refine ⟨.serve rfl hck, fun {done e} hr ↦ ?_⟩
    have hw : Rewiring h k false _ done (.error e) := .withdraw (d := d) rfl hck hr
    simpa only [Slots.clear_install _ hck, Slots.clear_setData] using hw

theorem rewires_of_dataPlan? {installed : Bool} {v : Value} {p : Plan}
    (hp : dataPlan? h k installed v = some p) : v.isKept = false ∧ p.Rewires h k installed := by
  have hstream (hp : (v.stream? k).map (streamPlan h k installed) = some p) :
      p.Rewires h k installed := by
    obtain ⟨d, hd, rfl⟩ := Option.map_eq_some_iff.1 hp
    exact rewires_streamPlan hd installed
  cases v with
  | null =>
    cases hp
    cases installed with
    | true => exact ⟨rfl, .feed rfl List.nil_prefix .all, .feed rfl List.nil_prefix⟩
    | false => exact ⟨rfl, .wait rfl (.inr rfl) .all, .wait rfl (.inr rfl)⟩
  | data d =>
    cases hp
    cases installed with
    | true =>
      exact ⟨rfl, .feed rfl (List.prefix_append [_] _) .all, .feed rfl (List.prefix_append [_] _)⟩
    | false => exact ⟨rfl, .wait rfl (.inl rfl) .all, .wait rfl (.inl rfl)⟩
  | sink | source => exact ⟨rfl, hstream hp⟩
  | long | bool | text | bytes | list | function | pointer => cases hp

/-- Whatever becomes of a plan, it is an end of setting an option of its kind. -/
theorem CarriesOut.leads {o : OptionCode} {v : Value} {x : Attempt Unit} {e : Error}
    {plan : Option Plan} (hx : CarriesOut id h x s e plan)
    (ho : o = k.functionOption ∨ o = k.dataOption)
    (hp : ∀ p, plan = some p →
      v.isKept = false ∧ p.Rewires h k ((s.wrapper id).slots.isInstalled k)) :
    Leads x s (fun _ t ↦ AfterSetopt s id h o v (.ok ()) t)
      fun e t ↦ AfterSetopt s id h o v (.error e) t := by
  cases plan with
  | none =>
    refine Leads.mono hx (fun _ _ ht ↦ ht.elim) ?_
    rintro _ t ⟨-, rfl⟩
    exact .refused (Drift.refl t)
  | some p =>
    obtain ⟨hv, hw⟩ := hp p rfl
    refine Leads.mono hx (fun _ _ ht ↦ .rewired ho hv hw.kept ht) ?_
    rintro _ t ⟨done, hpre, hne, ht⟩
    exact .rewired ho hv (hw.lost (.part hpre hne)) ht

/-! ## Options without callbacks -/

theorem leads_setPlain (hn : s.ids.Nodup) (ha : s.isAlive id = true) (o : OptionCode) (v : Value) :
    Leads (setPlain id h o v) s (fun _ t ↦ AfterPlain s id h o v (.ok ()) t)
      fun e t ↦ AfterPlain s id h o v (.error e) t := by
  have hbare {x : Argument} {p : Attempt Unit} (hp : Stores id h [(o, x)] p)
      (hv : v.isBare = true) (hx : x.isBare = true) :
      Leads p s (fun _ t ↦ AfterPlain s id h o v (.ok ()) t)
        fun e t ↦ AfterPlain s id h o v (.error e) t :=
    (hp.single s).mono (fun _ _ ht ↦ .bare hv hx ht) fun _ _ ht ↦ .refused ht
  have hmismatch : Leads (throw (mismatch o v.kind) : Attempt Unit) s
      (fun _ t ↦ AfterPlain s id h o v (.ok ()) t)
      fun e t ↦ AfterPlain s id h o v (.error e) t := .refused (Drift.refl s)
  rw [setPlain.eq_def]
  split
  · exact hbare (stores_setPointer _ _) rfl rfl
  · exact hbare (stores_setPointer _ _) rfl rfl
  · exact hbare (stores_setFunction _ _) rfl rfl
  · exact hbare (stores_setInteger _ _) rfl rfl
  · exact hbare (stores_setInteger _ _) rfl rfl
  · next he => exact leads_setText hn ha he _
  · next he => exact leads_setBytes hn ha he _
  · next he => exact leads_setList hn ha he _
  · exact hbare (stores_setPointer _ _) rfl rfl
  · exact hbare (stores_setPointer _ _) rfl rfl
  · exact hbare (stores_setFunction _ _) rfl rfl
  · exact hmismatch

/-! ## Any option -/

/-- What happens from a state that has drifted may as well have happened from where it drifted. -/
theorem AfterPlain.of_drift {o : OptionCode} {v : Value} {r : Except Error Unit} {u : State}
    (hd : Drift [] s t) (ha : AfterPlain t id h o v r u) : AfterPlain s id h o v r u := by
  cases ha with
  | refused hu => exact .refused (hd.trans hu)
  | bare hv hx hu => exact .bare hv hx ((hd.store id h o _).trans hu)
  | text he hnul hle hu =>
    exact .text he hnul (Nat.le_trans hd.serials hle)
      (((hd.modifyWrapper id _).store id h o _).trans hu)
  | bytes he hu =>
    rw [hd.wrapper] at hu
    exact .bytes he (((hd.modifyWrapper id _).storeAll id h _).trans hu)
  | strayed ho hu => exact .strayed ho ((hd.store id h o _).trans hu)
  | @list items as head n _ he hc hb hu =>
    refine .list he hc ?_ (((hd.modifyWrapper id _).store id h o _).trans hu)
    cases head with
    | none => exact hb
    | some k => exact ⟨hb.1, hd.list?_eq_none hb.2.1, hb.2.2⟩

theorem AfterSetopt.of_drift {o : OptionCode} {v : Value} {r : Except Error Unit} {u : State}
    (hd : Drift [] s t) (ha : AfterSetopt t id h o v r u) : AfterSetopt s id h o v r u := by
  cases ha with
  | plain ho ha => exact .plain ho (ha.of_drift hd)
  | refused hu => exact .refused (hd.trans hu)
  | rewired ho hv hw hu =>
    rw [hd.wrapper] at hw
    exact .rewired ho hv hw (((hd.modifyWrapper id _).storeAll id h _).trans hu)

theorem AfterPlain.drift {o : OptionCode} {v : Value} {r : Except Error Unit} {u : State}
    (ha : AfterPlain s id h o v r t) (hd : Drift [] t u) : AfterPlain s id h o v r u := by
  cases ha with
  | refused ht => exact .refused (ht.trans hd)
  | bare hv hx ht => exact .bare hv hx (ht.trans hd)
  | text he hnul hle ht => exact .text he hnul hle (ht.trans hd)
  | bytes he ht => exact .bytes he (ht.trans hd)
  | strayed ho ht => exact .strayed ho (ht.trans hd)
  | list he hc hb ht => exact .list he hc (hb.drift hd) (ht.trans hd)

theorem AfterSetopt.drift {o : OptionCode} {v : Value} {r : Except Error Unit} {u : State}
    (ha : AfterSetopt s id h o v r t) (hd : Drift [] t u) : AfterSetopt s id h o v r u := by
  cases ha with
  | plain ho ha => exact .plain ho (ha.drift hd)
  | refused ht => exact .refused (ht.trans hd)
  | rewired ho hv hw ht => exact .rewired ho hv hw (ht.trans hd)

theorem leads_setopt (hn : s.ids.Nodup) (hh : (s.wrapper id).handle = some h) (o : OptionCode)
    (v : Value) :
    Leads (setopt id o v) s (fun _ t ↦ AfterSetopt s id h o v (.ok ()) t)
      fun e t ↦ AfterSetopt s id h o v (.error e) t := by
  have hd := drift_announced o v s
  have hn' : (announced o v s).ids.Nodup := hn
  have ha : (announced o v s).isAlive id = true := isAlive_of_handle hh
  refine leads_setopt_of hh ?_ ?_ ?_
  · rintro k rfl
    exact ((carriesOut_setCallback k v).leads (.inl rfl) fun _ ↦ rewires_of_functionPlan?).mono
      (fun _ _ hu ↦ hu.of_drift hd) fun _ _ hu ↦ hu.of_drift hd
  · rintro k rfl
    exact ((carriesOut_setCallbackData k v).leads (.inr rfl) fun _ ↦ rewires_of_dataPlan?).mono
      (fun _ _ hu ↦ hu.of_drift hd) fun _ _ hu ↦ hu.of_drift hd
  · intro ho
    exact (leads_setPlain hn' ha o v).mono (fun _ _ hu ↦ .plain ho (hu.of_drift hd))
      fun _ _ hu ↦ .plain ho (hu.of_drift hd)

theorem leads_setopt_none (hh : (s.wrapper id).handle = none) (o : OptionCode) (v : Value) :
    Leads (setopt id o v) s (fun _ _ ↦ False) fun _ t ↦ t = s := by
  rw [setopt, leads_bind, leads_liveHandle_none hh]

/-! ## What all ends have in common -/

theorem mem_wiring {x : OptionCode × Argument} (hx : x ∈ wiring h k) :
    x = (k.dataOption, .pointer (.handle h)) ∨ x = (.noProgress, .integer 0) ∧ k = .progress ∨
      x = (k.functionOption, .function (.trampoline k)) := by
  rw [wiring, List.mem_cons, List.mem_append, List.mem_singleton] at hx
  rcases hx with hx | hx | hx
  · exact .inl hx
  · split at hx
    · next hk => exact .inr (.inl ⟨List.mem_singleton.1 hx, hk⟩)
    · exact absurd hx List.not_mem_nil
  · exact .inr (.inr hx)

theorem mem_unwiring {x : OptionCode × Argument} (hx : x ∈ unwiring k) :
    x = (k.functionOption, .function .null) ∨ x = (k.dataOption, .pointer .null) ∨
      x = (.noProgress, .integer 1) ∧ k = .progress := by
  rw [unwiring, List.mem_cons, List.mem_cons] at hx
  rcases hx with hx | hx | hx
  · exact .inl hx
  · exact .inr (.inl hx)
  · split at hx
    · next hk => exact .inr (.inr ⟨List.mem_singleton.1 hx, hk⟩)
    · exact absurd hx List.not_mem_nil

section

variable {installed : Bool} {f : Slots → Slots} {done : List (OptionCode × Argument)}
  {r : Except Error Unit}

/-- Whatever is stored belongs to the wiring of a callback or to taking it away. -/
theorem Rewiring.mem_cases (hw : Rewiring h k installed f done r) {x : OptionCode × Argument}
    (hx : x ∈ done) : x ∈ wiring h k ∨ x ∈ unwiring k := by
  cases hw with
  | clear hr => exact .inr (hr.isPrefix.subset hx)
  | install => exact .inl hx
  | refuse hr => exact .inl (hr.isPrefix.subset hx)
  | feed _ hxs hr => exact .inl (hxs.subset (hr.isPrefix.subset hx))
  | serve => exact .inl hx
  | withdraw _ _ hr => exact .inl (hr.isPrefix.subset hx)
  | wait _ hxs hr =>
    have hx' := hr.isPrefix.subset hx
    rcases hxs with rfl | rfl
    · exact absurd hx' List.not_mem_nil
    · rw [List.mem_singleton.1 hx']
      exact .inr (List.mem_cons_of_mem _ List.mem_cons_self)

theorem Rewiring.option_of_mem (hw : Rewiring h k installed f done r)
    {x : OptionCode × Argument} (hx : x ∈ done) :
    x.1 = k.dataOption ∨ x.1 = .noProgress ∧ k = .progress ∨ x.1 = k.functionOption := by
  rcases hw.mem_cases hx with hx | hx
  · rcases mem_wiring hx with rfl | ⟨rfl, hk⟩ | rfl
    · exact .inl rfl
    · exact .inr (.inl ⟨rfl, hk⟩)
    · exact .inr (.inr rfl)
  · rcases mem_unwiring hx with rfl | rfl | ⟨rfl, hk⟩
    · exact .inr (.inr rfl)
    · exact .inl rfl
    · exact .inr (.inl ⟨rfl, hk⟩)

end

theorem not_holdsMemory_noProgress : ¬ OptionCode.noProgress.HoldsMemory :=
  fun ho ↦ absurd ho.1 (by decide)

theorem not_holdsMemory_sizeOption (n : Nat) : ¬ (sizeOption n).HoldsMemory := by
  rintro ⟨he, -⟩
  rcases sizeOption_eq n with hn | hn
  · rw [hn] at he
    exact absurd he (by decide)
  · rw [hn] at he
    exact absurd he (by decide)

theorem not_holdsMemory_functionOption (k : CallbackKind) : ¬ k.functionOption.HoldsMemory := by
  rintro ⟨he, -⟩
  cases k with
  | write | read | header | progress => exact absurd he (by decide)

/-- Lists that were built on the way, each of which is recorded once. -/
def NewLists (s t : State) (as : List Allocation) : Prop :=
  ∀ a ∈ as, ∀ n, a.nativeList? = some n → s.engine.list? n = none ∧
    (∃ l, t.engine.list? n = some l ∧ l.freed = false) ∧
    ∀ b ∈ as, b.nativeList? = some n → b = a

theorem NewLists.of_nativeList? {as : List Allocation} (h : ∀ a ∈ as, a.nativeList? = none) :
    NewLists s t as := by
  intro a ha n hn
  rw [h a ha] at hn
  cases hn

/-- Slots are changed, allocations recorded and arguments stored, and that is all. Of the options
that hold memory only the one that is set is touched. -/
structure Touched (s : State) (id : WrapperId) (h : Nat) (o : OptionCode) (f : Slots → Slots)
    (as : List Allocation) (xs : List (OptionCode × Argument)) (t : State) : Prop where
  drift : Drift [] (((s.withSlots id f).recordAll id as).storeAll id h xs) t
  lists : NewLists s t as
  options : ∀ x ∈ xs, x.1 = o ∨ ¬ x.1.HoldsMemory

theorem Touched.of_drift {o : OptionCode} (hd : Drift [] s t) :
    Touched s id h o (fun x ↦ x) [] [] t where
  drift := by
    rw [withSlots_self, recordAll_nil]
    exact hd
  lists := NewLists.of_nativeList? nofun
  options := nofun

theorem Touched.of_store {o : OptionCode} {as : List Allocation} {x : Argument}
    (hl : NewLists s t as) (hd : Drift [] ((s.recordAll id as).store id h o x) t) :
    Touched s id h o (fun x ↦ x) as [(o, x)] t where
  drift := by
    rw [withSlots_self]
    exact hd
  lists := hl
  options y hy := .inl (by rw [List.mem_singleton.1 hy])

/-- The list that was built is the only one among what is recorded for it. -/
theorem Built.newLists {as : List Allocation} {items : List String} {head : Option Nat} (n : Nat)
    (hb : Built s t items head) (hc : Copies as items) :
    NewLists s t (as ++ head.toList.map fun m ↦ .list n (some m)) := by
  cases head with
  | none =>
    refine NewLists.of_nativeList? fun a ha ↦ nativeList?_of_copies hc a ?_
    simpa using ha
  | some m =>
    have hlast {a : Allocation} {k : Nat} (ha : a ∈ as ++ [Allocation.list n (some m)])
        (hk : a.nativeList? = some k) : a = .list n (some m) := by
      rcases List.mem_append.1 ha with ha | ha
      · rw [nativeList?_of_copies hc a ha] at hk
        cases hk
      · exact List.mem_singleton.1 ha
    intro a ha k hk
    obtain rfl := hlast ha hk
    obtain rfl := Option.some.inj hk
    exact ⟨hb.2.1, ⟨_, hb.2.2, rfl⟩, fun b hm hbk ↦ hlast hm hbk⟩

theorem AfterPlain.touched {o : OptionCode} {v : Value} {r : Except Error Unit}
    (ha : AfterPlain s id h o v r t) : ∃ as xs, Touched s id h o (fun x ↦ x) as xs t ∧
      ∀ x ∈ xs, x.1 = o ∨ ∃ n, x.1 = sizeOption n := by
  have hnil : NewLists s t [] := NewLists.of_nativeList? nofun
  have hone {x : Argument} : ∀ y ∈ [(o, x)], y.1 = o ∨ ∃ n, y.1 = sizeOption n :=
    fun y hy ↦ .inl (by rw [List.mem_singleton.1 hy])
  cases ha with
  | refused hd => exact ⟨_, _, .of_drift hd, nofun⟩
  | bare _ _ hd =>
    rw [← recordAll_nil s] at hd
    exact ⟨_, _, .of_store hnil hd, hone⟩
  | text _ _ _ hd =>
    refine ⟨_, _, .of_store (NewLists.of_nativeList? ?_) hd, hone⟩
    simp [Allocation.nativeList?]
  | @bytes b _ _ hd =>
    have hoptions : ∀ x ∈ body o b, x.1 = o ∨ ∃ n, x.1 = sizeOption n := by
      intro x hx
      rcases mem_body hx with rfl | rfl
      · exact .inl rfl
      · exact .inr ⟨_, rfl⟩
    refine ⟨lent (s.wrapper id).ledger b, body o b, ⟨?_, ?_, fun x hx ↦ ?_⟩, hoptions⟩
    · rw [withSlots_self]
      exact hd
    · exact NewLists.of_nativeList? nativeList?_of_mem_lent
    · refine (hoptions x hx).imp_right ?_
      rintro ⟨n, hn⟩
      rw [hn]
      exact not_holdsMemory_sizeOption n
  | strayed _ hd =>
    rw [← recordAll_nil s] at hd
    exact ⟨_, _, .of_store hnil hd, hone⟩
  | list _ hc hb hd => exact ⟨_, _, .of_store (hb.newLists _ hc) hd, hone⟩

theorem AfterSetopt.touched {o : OptionCode} {v : Value} {r : Except Error Unit}
    (ha : AfterSetopt s id h o v r t) : ∃ f as xs, Touched s id h o f as xs t := by
  cases ha with
  | refused hd => exact ⟨_, _, _, .of_drift hd⟩
  | plain ho ha =>
    obtain ⟨as, xs, hx, -⟩ := ha.touched
    exact ⟨_, as, xs, hx⟩
  | @rewired k f done _ _ _ _ hw hd =>
    refine ⟨f, [], done, ?_, NewLists.of_nativeList? nofun, fun x hx ↦ .inr ?_⟩
    · rw [recordAll_nil]
      exact hd
    · rcases hw.option_of_mem hx with he | ⟨he, -⟩ | he
      · rw [he]
        exact fun hm ↦ hm.2 _ rfl
      · rw [he]
        exact not_holdsMemory_noProgress
      · rw [he]
        exact not_holdsMemory_functionOption _

end Wrapper

end NativeTransfer
