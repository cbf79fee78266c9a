import NativeTransfer.Proofs.Encoding
import NativeTransfer.Proofs.KeepAlive
import NativeTransfer.Proofs.Turnover

/-!
# What was set is told again

An engine that is asked for what it holds reads it again at the address that it was given. The two
halves of the way there and back meet in what it reads: as long as a value stands for an option the
engine reads that value there, and what it reads is what the caller is told. A text comes back as it
was, since the only NUL behind its address ends it and the octets before that are those of the text.
A list comes back as a copy, which is freed before the caller has its items.

## The two halves

There: while a value stands, the octets or the nodes that the engine finds at the address which it
holds are those of the value (`octets?_of_standing`, `nodes_of_standing`). This is the invariant of
what is kept alive, and it is not proved again. Back: what an info is answered with is converted to
what the caller is told, a string up to its first NUL, a list item by item. An engine that echoes is
one that answers with what it finds, and this is the only thing that is assumed of it.

To ask changes nothing: the copy of a list that is made for the answer is freed before the answer is
given, and the number of nodes that are there is what it was.
-/

namespace NativeTransfer

open State Wrapper

/-! ## Strings that end in a NUL -/

theorem Bytes.untilNul_concat {b : Bytes} (hb : 0 ∉ b) : Bytes.untilNul (b ++ [0]) = b := by
  have hall : ∀ x ∈ b, decide (x ≠ 0) = true := fun x hx ↦ decide_eq_true fun hx0 ↦ hb (hx0 ▸ hx)
  rw [Bytes.untilNul, List.takeWhile_append_of_pos hall]
  exact List.append_nil b

namespace Text

theorem ofCString_utf8 {x : String} (hx : 0 ∉ utf8 x) : ofCString (utf8 x) = x := by
  rw [ofCString, untilNul_eq_self_iff.2 hx, forgiving_utf8]

theorem ofCString_utf8_concat {x : String} (hx : 0 ∉ utf8 x) : ofCString (utf8 x ++ [0]) = x := by
  rw [ofCString, Bytes.untilNul_concat hx, forgiving_utf8]

end Text

theorem Wrapper.texts_utf8 {items : List String} (h : ∀ x ∈ items, 0 ∉ Text.utf8 x) :
    texts (items.map fun x ↦ some (Text.utf8 x)) = items := by
  induction items with
  | nil => rfl
  | cons x items ih =>
    have hx : Text.ofCString (Text.utf8 x) = x := Text.ofCString_utf8 (h x List.mem_cons_self)
    have hrest := ih fun y hy ↦ h y (List.mem_cons_of_mem x hy)
    exact congrArg₂ List.cons hx hrest

/-! ## What the engine reads -/

namespace Engine

/-- The octets that the engine finds at the address that it holds for an option. -/
def octets? (e : Engine) (h : Nat) (o : OptionCode) : Option Bytes :=
  match e.setting? h o with
  | some (.pointer a) => a.octets?
  | _ => none

/-- The items of the list that the engine finds there. -/
def nodes (e : Engine) (h : Nat) (o : OptionCode) : List (Option Bytes) :=
  match e.setting? h o with
  | some (.pointer (.list n)) => e.items n
  | _ => []

/-- How many nodes there are in the lists that were not freed. -/
def liveNodes (e : Engine) : Nat :=
  (e.lists.map fun l ↦ if l.freed then 0 else l.items.length).sum

end Engine

/-- An engine that tells where it would go by the address that it was given, and lists the headers
that it was given. -/
structure Policy.Echoes (p : Policy) : Prop where
  url : ∀ e h, p.info e h .effectiveUrl = (0, some (.string (e.octets? h .url)))
  headers : ∀ e h, p.info e h .cookieList = (0, some (.list (e.nodes h .httpHeader)))

/-- An engine that does nothing else. -/
def Policy.echo : Policy where
  info e h i :=
    if i = .effectiveUrl then (0, some (.string (e.octets? h .url)))
    else if i = .cookieList then (0, some (.list (e.nodes h .httpHeader)))
    else (48, none)

theorem Policy.echoes_echo : echo.Echoes := by
  have hne : InfoCode.cookieList ≠ .effectiveUrl := by decide
  refine ⟨fun e h ↦ ?_, fun e h ↦ ?_⟩
  · simp only [echo, if_true]
  · simp only [echo, if_neg hne, if_true]

section

variable {s t : State} {id : WrapperId} {h : Nat}

/-- An empty list crosses as no list at all, and that abides. -/
theorem abides_no_headers (id : WrapperId) :
    Abides id .httpHeader fun s ↦ ∃ h, (s.wrapper id).handle = some h ∧
      s.engine.setting? h .httpHeader = some (.pointer .null) where
  keeps hk := by
    rintro ⟨h, hh, hset⟩
    exact ⟨h, hk.handle.trans hh, (hk.setting? hh _).trans hset⟩
  other hh hne ha := by
    rintro ⟨g, hg, hset⟩
    obtain rfl := Option.some.inj (hg.symm.trans hh)
    obtain ⟨f, as, xs, ht⟩ := ha.touched
    have hm : OptionCode.httpHeader.HoldsMemory := ⟨rfl, fun k ↦ by cases k <;> decide⟩
    refine ⟨g, ?_, (ht.setting? hne.symm hm).trans hset⟩
    rw [ht.wrapper (isAlive_of_handle hh)]
    exact hh
  released _ _ _ hd := by
    rintro ⟨h, hh, hset⟩
    have hk : Steady _ _ id := .of_cut hd
    exact ⟨h, hk.handle.trans hh, (hk.setting? hh _).trans hset⟩

theorem no_headers_of_afterSetopt (hh : (s.wrapper id).handle = some h)
    (hlive : s.engine.isLive h = true)
    (ha : AfterSetopt s id h .httpHeader (.list []) (.ok ()) t) :
    ∃ h, (t.wrapper id).handle = some h ∧
      t.engine.setting? h .httpHeader = some (.pointer .null) := by
  cases ha with
  | @rewired k _ _ _ _ ho =>
    -- The headers have no part in the wiring.
    exact absurd ho (by cases k <;> decide)
  | plain _ ha =>
    cases ha with
    | bare hv => cases hv
    | @list _ as head n _ _ _ hb hd =>
      cases head with
      | some => exact absurd rfl hb.1
      | none =>
        refine ⟨h, ?_, ?_⟩
        · rw [hd.wrapper, wrapper_store, recordAll, wrapper_modifyWrapper s (isAlive_of_handle hh),
            if_pos rfl]
          exact hh
        · rw [hd.setting?]
          refine (setting?_store _ _ _ _ _ _ ?_).trans (if_pos ⟨rfl, rfl⟩)
          exact hlive

/-! ## There -/

section

variable {xs : List Step} (hc : s.Coherent) (ho : s.Orderly xs)
  (hsafe : ∀ p ∈ passages s xs, p.IsSafe)

include hc ho hsafe

theorem octets?_of_standing {o : OptionCode} {x : String}
    (hs : standing id o (passages s xs) = some (.text x)) :
    0 ∉ Text.utf8 x ∧ ∃ h, ((s.after xs).wrapper id).handle = some h ∧
      (s.after xs).engine.octets? h o = some (Text.utf8 x ++ [0]) := by
  obtain ⟨-, h, hh, a, -, hset, hcarries⟩ := ho.backs hc hsafe rfl hs
  cases hcarries with
  | text ha hnul =>
    refine ⟨hnul, h, hh, ?_⟩
    rw [Engine.octets?, hset]
    exact ha

/-- Headers that stand are read in their order. -/
theorem nodes_of_standing {items : List String}
    (hs : standing id .httpHeader (passages s xs) = some (.list items)) :
    ∃ h, ((s.after xs).wrapper id).handle = some h ∧
      (s.after xs).engine.nodes h .httpHeader = items.map fun x ↦ some (Text.utf8 x) := by
  by_cases hitems : items = []
  · subst hitems
    obtain ⟨h, hh, hset⟩ := (abides_no_headers id).stands
      (fun _ _ _ hh hlive ha ↦ no_headers_of_afterSetopt hh hlive ha) hc ho hsafe hs
    refine ⟨h, hh, ?_⟩
    rw [Engine.nodes, hset]
    rfl
  · have hkept : (Value.list items).isKept = true := decide_eq_true hitems
    obtain ⟨-, h, hh, a, -, hset, hcarries⟩ := ho.backs hc hsafe hkept hs
    cases hcarries with
    | list ha hl =>
      refine ⟨h, hh, ?_⟩
      rw [Engine.nodes, hset, ha]
      simp only [Engine.items, hl, Option.map_some, Option.getD_some]

end

/-! ## And back -/

/-- Every wrapper has what it had, and the engine has the options, the lists and as many nodes. -/
structure State.Untouched (s t : State) : Prop where
  wrappers : t.wrappers = s.wrappers
  handles : t.engine.handles = s.engine.handles
  lists : ∀ n l, s.engine.list? n = some l → t.engine.list? n = some l
  liveNodes : t.engine.liveNodes = s.engine.liveNodes

theorem leads_check_zero {api : Api} {ok : Unit → State → Prop} {err : Error → State → Prop}
    (h : ok () s) : Leads (api.check (.ofSigned 0)) s ok err := by
  refine (calm_still.leads_check api (.ofSigned 0) (s := s)).mono ?_ ?_
  · rintro _ _ ⟨-, rfl⟩
    exact h
  · rintro _ _ ⟨hc, -⟩
    cases hc

theorem leads_getinfo_url (hp : s.policy.Echoes) (hh : (s.wrapper id).handle = some h)
    (ho : (s.wrapper id).api.Offers s.policy .getString) :
    Leads (getinfo id .effectiveUrl) s
      (fun v t ↦ v = .text ((s.engine.octets? h .url).map Text.ofCString) ∧ s.Untouched t)
      fun _ _ ↦ False := by
  have hclass : InfoCode.effectiveUrl.infoClass = .string := by decide
  rw [getinfo, leads_bind, leads_liveHandle hh, hclass]
  dsimp only
  rw [leads_bind, getScalar, leads_bind, leads_getApi, leads_bind, Api.getinfo_eq, leads_map]
  refine ho.leads_call ?_
  rintro _ rfl
  have hanswer : (Api.counted s).policy.info (Api.counted s).engine h .effectiveUrl =
      (0, some (.string (s.engine.octets? h .url))) := hp.url _ _
  rw [Engine.answerInfo, hanswer, leads_bind]
  refine leads_check_zero ⟨rfl, rfl, rfl, fun _ _ hl ↦ ?_, rfl⟩
  exact hl

/-- One list is new, with some nodes, and nothing else is. -/
structure State.Made (s : State) (nodes : List (Option Bytes)) (t : State) : Prop where
  policy : t.policy = s.policy
  wrappers : t.wrappers = s.wrappers
  handles : t.engine.handles = s.engine.handles
  lists : t.engine.lists = s.engine.lists ++ [{ items := nodes }]

/-- A list is made for the headers, unless there are none. -/
theorem leads_getList_headers {api : Api} (hp : s.policy.Echoes)
    (ho : api.Offers s.policy .getList) :
    Leads (api.getList h .cookieList) s
      (fun r t ↦ r.1 = .ofSigned 0 ∧
        if s.engine.nodes h .httpHeader = [] then r.2 = none ∧ s.Untouched t
        else r.2 = some (s.engine.lists.length + 1) ∧ s.Made (s.engine.nodes h .httpHeader) t)
      fun _ _ ↦ False := by
  rw [Api.getList_eq, leads_map]
  refine ho.leads_call ?_
  rintro _ rfl
  have hinfo : (Api.counted s).policy.info (Api.counted s).engine h .cookieList =
      (0, some (.list (s.engine.nodes h .httpHeader))) := hp.headers _ _
  rw [Engine.answerListInfo, hinfo]
  cases hnodes : s.engine.nodes h .httpHeader with
  | nil =>
    rw [if_pos rfl]
    exact ⟨rfl, rfl, rfl, rfl, fun _ _ hl ↦ hl, rfl⟩
  | cons n nodes =>
    rw [if_neg (List.cons_ne_nil n nodes)]
    exact ⟨rfl, rfl, rfl, rfl, rfl, rfl⟩

/-- With the new list freed everything is as it was. -/
theorem leads_freeList_made {api : Api} {nodes : List (Option Bytes)} (hm : s.Made nodes t)
    (ho : api.Offers t.policy .listFree) :
    Leads (api.freeList (s.engine.lists.length + 1)) t (fun _ u ↦ s.Untouched u)
      fun _ _ ↦ False := by
  rw [api.freeList_eq]
  refine ho.leads_call ?_
  rintro _ rfl
  have hlists : ((Api.counted t).engine.modifyList (s.engine.lists.length + 1)
      ({ · with freed := true })).lists = s.engine.lists ++ [{ items := nodes, freed := true }] :=
    Engine.lists_modifyList_newest (e := (Api.counted t).engine) s.engine.lists hm.lists _
  refine ⟨hm.wrappers, hm.handles, fun n l hl ↦ ?_, ?_⟩
  · refine (Engine.list?_of_concat hlists n).trans ?_
    rw [if_neg ?_, hl]
    rintro rfl
    rw [Engine.list?, List.getElem?_eq_none (Nat.le_refl _)] at hl
    cases hl
  · refine (congrArg (fun ls : List StringList ↦
      (ls.map fun l ↦ if l.freed then 0 else l.items.length).sum) hlists).trans ?_
    rw [List.map_append, List.sum_append_nat]
    rfl

theorem leads_getinfo_headers (hp : s.policy.Echoes) (hh : (s.wrapper id).handle = some h)
    (hget : (s.wrapper id).api.Offers s.policy .getList)
    (hfree : (s.wrapper id).api.Offers s.policy .listFree) :
    Leads (getinfo id .cookieList) s
      (fun v t ↦ v = .list (texts (s.engine.nodes h .httpHeader)) ∧ s.Untouched t)
      fun _ _ ↦ False := by
  have hclass : InfoCode.cookieList.infoClass = .list := by decide
  have hpointer : InfoCode.cookieList.isPointer = false := by decide
  rw [getinfo, leads_bind, leads_liveHandle hh, hclass]
  dsimp only
  rw [hpointer, if_neg Bool.false_ne_true, Wrapper.getList, leads_bind, leads_getApi, leads_bind]
  refine (leads_getList_headers hp hget).mono ?_ fun _ _ hf ↦ hf
  rintro ⟨_, list⟩ t ⟨rfl, ht⟩
  rw [leads_bind]
  refine leads_check_zero ?_
  by_cases hnodes : s.engine.nodes h .httpHeader = []
  · rw [if_pos hnodes] at ht
    obtain ⟨rfl, ht⟩ := ht
    rw [hnodes]
    exact ⟨rfl, ht⟩
  · rw [if_neg hnodes] at ht
    obtain ⟨rfl, hm⟩ := ht
    dsimp only
    rw [leads_bind, leads_get, leads_bind, leads_observed,
      Engine.items_newest s.engine.lists hm.lists]
    refine (leads_freeList_made hm (hm.policy ▸ hfree)).mono (fun _ u hu ↦ ?_) fun _ _ hf ↦ hf.elim
    exact ⟨rfl, hu⟩

end

/-! ## There and back -/

/-- Whatever else is done with any number of wrappers: as long as a text stands for the URL an
engine that echoes tells it as the URL of the transfer, and as long as a list of texts stands for
the headers it lists them, in their order. A value stands from when it is accepted until its option
is set again or its wrapper is left, and a caller who cuts a ledger leaves in it what the engine
still points to. Asking changes no wrapper, no option and no list, and leaves as many nodes as there
were. -/
theorem echo_is_what_stands (policy : Policy) (hp : policy.Echoes) (host : Host)
    (settled : Settled) (steps : List Step) (ho : (State.start policy host settled).Orderly steps)
    (hsafe : ∀ p ∈ passages (.start policy host settled) steps, p.IsSafe) (id : WrapperId) :
    let s := (State.start policy host settled).after steps
    let ps := passages (.start policy host settled) steps
    (∀ x, standing id .url ps = some (.text x) →
      (s.wrapper id).api.Offers policy .getString →
        ∃ t, (getinfo id .effectiveUrl).run.run s = (.ok (.text (some x)), t) ∧ s.Untouched t) ∧
    ∀ items, standing id .httpHeader ps = some (.list items) →
      (∀ x ∈ items, 0 ∉ Text.utf8 x) → (s.wrapper id).api.Offers policy .getList →
        (s.wrapper id).api.Offers policy .listFree →
          ∃ t, (getinfo id .cookieList).run.run s = (.ok (.list items), t) ∧ s.Untouched t := by
  intro s ps
  have hc : (State.start policy host settled).Coherent := .start policy host settled
  have hpolicy : s.policy = policy := hc.numbered.policy_after _
  have hechoes : s.policy.Echoes := hpolicy ▸ hp
  constructor
  · intro x hs hget
    obtain ⟨hnul, h, hh, hoctets⟩ := octets?_of_standing hc ho hsafe hs
    obtain ⟨v, t, hrun, rfl, ht⟩ :=
      (leads_getinfo_url hechoes hh (hpolicy.symm ▸ hget)).exists_ok
    refine ⟨t, ?_, ht⟩
    rw [hrun, hoctets, Option.map_some, Text.ofCString_utf8_concat hnul]
  · intro items hs hnul hget hfree
    obtain ⟨h, hh, hnodes⟩ := nodes_of_standing hc ho hsafe hs
    obtain ⟨v, t, hrun, rfl, ht⟩ :=
      (leads_getinfo_headers hechoes hh (hpolicy.symm ▸ hget) (hpolicy.symm ▸ hfree)).exists_ok
    refine ⟨t, ?_, ht⟩
    rw [hrun, hnodes, texts_utf8 hnul]

/-- A text beyond ASCII, and a list with an empty item. -/
theorem echo_is_what_stands_beyond_ascii :
    let s := (State.start .echo .bare .bare).after ([.create .inProcess] ++
      [.setopt 0 .url (.text "höh")] ++ [.setopt 0 .httpHeader (.list ["é: è", ""])])
    (∃ t, (getinfo 0 .effectiveUrl).run.run s = (.ok (.text (some "höh")), t) ∧ s.Untouched t) ∧
      ∃ t, (getinfo 0 .cookieList).run.run s = (.ok (.list ["é: è", ""]), t) ∧ s.Untouched t := by
  intro s
  have ho : (State.start .echo .bare .bare).Orderly ([.create .inProcess] ++
      [.setopt 0 .url (.text "höh")] ++ [.setopt 0 .httpHeader (.list ["é: è", ""])]) :=
    Orderly.single .echo .bare .bare (.create .inProcess) (by decide)
  have hin : (s.wrapper 0).api.isInProcess = true := by decide +kernel
  have hoffers (m : Method) : (s.wrapper 0).api.Offers .echo m := by
    generalize (s.wrapper 0).api = api at hin ⊢
    cases api with
    | inProcess => exact ⟨rfl, fun _ _ ↦ rfl⟩
    | linked | dynamic => cases hin
  have h := echo_is_what_stands .echo Policy.echoes_echo .bare .bare _ ho
    (isSafe_of_forall (by decide)) 0
  refine ⟨h.1 "höh" ?_ (hoffers _), h.2 ["é: è", ""] ?_ (by decide) (hoffers _) (hoffers _)⟩
  · rw [standing_setopt_of_ne (by decide)]
    exact standing_setopt (by decide +kernel)
  · exact standing_setopt (by decide +kernel)

end NativeTransfer
