import Mathlib.Data.List.Nodup
import NativeTransfer.Proofs.Coherent

/-!
# Who is registered

All that the engine hands back is an address, so the registry decides whom a call reaches. A wrapper
is entered when it begins and taken out when it ends, each time before the engine can be asked for
anything else, and the address of a handle that was let go may be given to another wrapper at once.
The invariant is that the entries and the live handles are the same: each entry leads from the
address of a live handle to its wrapper, and none is left over. That an ending wrapper takes out no
entry but its own is due to handles being apart.

## Recycled addresses

An address may have been the address of several wrappers in the course of a run. Each time its entry
was taken out before the handle was let go, and another was made when the handle was given out anew.
So an entry is never older than the wrapper that it leads to, and to end a wrapper a second time
takes nothing out, since it has no handle by then. Both are cases of one lemma: what counts for the
registry is who has which handle, and nothing else about a wrapper (`Registered.congr`).
-/

namespace NativeTransfer

open State Wrapper

/-! ## Addresses that are entered -/

theorem Registry.mem_addresses {α : Type} {r : Registry α} {a : Address} :
    a ∈ r.entries.map Prod.fst ↔ ∃ w, r.get? a = some w := by
  rw [← Option.isSome_iff_exists, get?, List.lookup_isSome_iff, List.mem_map]
  refine exists_congr fun x ↦ and_congr_right fun _ ↦ ?_
  rw [beq_iff_eq]
  exact eq_comm

namespace State

/-- The registry has one entry for each live handle and no others. -/
structure Registered (s : State) : Prop where
  nodup : (s.registry.entries.map Prod.fst).Nodup
  get?_iff : ∀ a id, s.registry.get? a = some id ↔
    ∃ h, a = .handle h ∧ (s.wrapper id).handle = some h

namespace Registered

variable {s t : State} {id : WrapperId} {h : Nat}

theorem congr (hr : s.Registered) (hreg : t.registry = s.registry)
    (hh : ∀ j, (t.wrapper j).handle = (s.wrapper j).handle) : t.Registered where
  nodup := by
    rw [hreg]
    exact hr.nodup
  get?_iff a j := by
    rw [hreg, hr.get?_iff, hh]

theorem drift (hr : s.Registered) {loose : List Nat} (hd : Drift loose s t) : t.Registered :=
  hr.congr hd.registry fun j ↦ by rw [hd.wrapper]

/-- A wrapper without a handle takes over one that is nobody's. -/
theorem enter (hr : s.Registered) (id : WrapperId)
    (hreg : t.registry = s.registry.register (.handle h) id)
    (hid : (t.wrapper id).handle = some h) (hnone : (s.wrapper id).handle = none)
    (hh : ∀ j, j ≠ id → (t.wrapper j).handle = (s.wrapper j).handle)
    (hnew : ∀ j, (s.wrapper j).handle ≠ some h) : t.Registered where
  nodup := by
    rw [hreg]
    exact Pairs.nodup_put hr.nodup _ _
  get?_iff a j := by
    rw [hreg, Registry.get?_register]
    by_cases hj : j = id
    · subst hj
      rw [hid]
      by_cases ha : a = .handle h
      · rw [if_pos ha]
        exact iff_of_true rfl ⟨h, ha, rfl⟩
      · rw [if_neg ha, hr.get?_iff, hnone]
        refine iff_of_false (by simp) ?_
        rintro ⟨g, rfl, hg⟩
        exact ha (by rw [Option.some.inj hg])
    · rw [hh j hj, ← hr.get?_iff]
      by_cases ha : a = .handle h
      · -- The address is new, so nobody is found under it but the one that is entered.
        rw [if_pos ha, ha]
        refine iff_of_false (fun he ↦ hj (Option.some.inj he).symm) fun he ↦ ?_
        obtain ⟨g, hg, hg'⟩ := (hr.get?_iff _ _).1 he
        rw [Address.handle.inj hg] at hnew
        exact hnew j hg'
      · rw [if_neg ha]

/-- A wrapper gives up its handle, which is nobody else's. -/
theorem leave (hr : s.Registered) (hreg : t.registry = s.registry.unregister (.handle h))
    (hid : (s.wrapper id).handle = some h) (hnone : (t.wrapper id).handle = none)
    (hh : ∀ j, j ≠ id → (t.wrapper j).handle = (s.wrapper j).handle)
    (hown : ∀ j, (s.wrapper j).handle = some h → j = id) : t.Registered where
  nodup := by
    rw [hreg]
    exact Pairs.nodup_without hr.nodup _
  get?_iff a j := by
    rw [hreg, Registry.get?_unregister]
    by_cases hj : j = id
    · subst hj
      rw [hnone]
      refine iff_of_false (fun he ↦ ?_) (by simp)
      by_cases ha : a = .handle h
      · rw [if_pos ha] at he
        cases he
      · rw [if_neg ha, hr.get?_iff] at he
        obtain ⟨g, hg, hg'⟩ := he
        rw [Option.some.inj (hid.symm.trans hg')] at ha
        exact ha hg
    · rw [hh j hj, ← hr.get?_iff]
      by_cases ha : a = .handle h
      · rw [if_pos ha, ha]
        refine iff_of_false nofun fun he ↦ hj (hown j ?_)
        obtain ⟨g, hg, hg'⟩ := (hr.get?_iff _ _).1 he
        rw [Address.handle.inj hg]
        exact hg'
      · rw [if_neg ha]

/-! ## Wrappers that begin and end -/

theorem make (hr : s.Registered) (hc : s.Coherent) (hnew : s.engine.settings? h = none)
    (api : Api) : (s.make h api).Registered := by
  refine hr.enter s.opened rfl ?_ ?_ (fun j hj ↦ ?_) (hc.handle_ne hnew)
  · rw [wrapper_make hc.numbered]
  · rw [wrapper_of_notMem hc.numbered.notMem]
  · exact (hc.keeps_make hnew api hj).handle

theorem twin (hr : s.Registered) (hc : s.Coherent) (hnew : s.engine.settings? h = none)
    (id : WrapperId) (g : Nat) : (s.twin id g h).Registered := by
  refine hr.enter s.opened rfl ?_ ?_ (fun j hj ↦ ?_) (hc.handle_ne hnew)
  · rw [wrapper_twin hc.numbered]
  · rw [wrapper_of_notMem hc.numbered.notMem]
  · exact (hc.keeps_twin hnew id g hj).handle

theorem storeAll (hr : s.Registered) (id : WrapperId) (h : Nat)
    (xs : List (OptionCode × Argument)) : (s.storeAll id h xs).Registered :=
  hr.congr (proj_storeAll s id h xs (·.registry) fun _ _ _ ↦ rfl) fun j ↦ by rw [wrapper_storeAll]

theorem ended (hr : s.Registered) (hc : s.Coherent) (hu : s.Ended id t) : t.Registered := by
  have hk (j : WrapperId) (hj : j ≠ id) : (t.wrapper j).handle = (s.wrapper j).handle :=
    (hu.keeps hc hj).handle
  have hnone := hu.spec.1
  cases hu with
  | unserved hh =>
    refine hr.congr rfl fun j ↦ ?_
    by_cases hj : j = id
    · rw [hj, hnone, hh]
    · exact hk j hj
  | @served h closed hh =>
    refine hr.leave ?_ hh hnone hk fun j hj ↦ hc.apart j id h hj hh
    cases closed with
    | false => rfl
    | true => rfl

theorem remove (hr : s.Registered) (hnone : (s.wrapper id).handle = none) :
    (s.remove id).Registered := by
  refine hr.congr rfl fun j ↦ ?_
  by_cases hj : j = id
  · rw [hj, wrapper_remove_self, hnone]
  · exact (Keeps.remove hj).handle

theorem touched (hr : s.Registered) {o : OptionCode} {f : Slots → Slots} {as : List Allocation}
    {xs : List (OptionCode × Argument)} (ht : Touched s id h o f as xs t) : t.Registered := by
  have hw (j : WrapperId) : (((s.withSlots id f).recordAll id as).wrapper j).handle =
      (s.wrapper j).handle := by
    refine (proj_modifyWrapper (s.withSlots id f) id j Wrapper.handle ?_).trans
      (proj_modifyWrapper s id j Wrapper.handle ?_)
    · exact fun _ ↦ rfl
    · exact fun _ ↦ rfl
  have hr' : ((s.withSlots id f).recordAll id as).Registered := hr.congr rfl hw
  exact (hr'.storeAll id h xs).drift ht.drift

end Registered

/-! ## As many entries as handles -/

/-- The live handles, in the order of their wrappers. -/
def handles (s : State) : List Nat := s.wrappers.filterMap (·.2.handle)

section

variable {s : State}

theorem mem_handles (hn : s.ids.Nodup) {h : Nat} :
    h ∈ s.handles ↔ ∃ id, (s.wrapper id).handle = some h := by
  rw [handles, List.mem_filterMap]
  constructor
  · rintro ⟨x, hx, hh⟩
    rw [← wrapper_of_mem hn hx] at hh
    exact ⟨x.1, hh⟩
  · rintro ⟨id, hh⟩
    obtain ⟨x, hx, rfl⟩ := List.mem_map.1 (mem_ids_of_handle hh)
    rw [wrapper_of_mem hn hx] at hh
    exact ⟨x, hx, hh⟩

theorem Coherent.nodup_handles (hc : s.Coherent) : s.handles.Nodup := by
  have hids : s.wrappers.Pairwise fun x y ↦ x.1 ≠ y.1 := List.pairwise_map.1 hc.numbered.nodup
  refine List.pairwise_filterMap.2 (hids.imp_of_mem ?_)
  rintro x y hx hy hne h hh _ hh' rfl
  rw [← wrapper_of_mem hc.numbered.nodup hx] at hh
  rw [← wrapper_of_mem hc.numbered.nodup hy] at hh'
  exact hne (hc.apart _ _ h hh hh')

/-- The entries and the live handles are two lists of the same addresses. -/
theorem Registered.size_eq (hr : s.Registered) (hc : s.Coherent) :
    s.registry.size = s.handles.length := by
  have hnodup : (s.handles.map Address.handle).Nodup :=
    hc.nodup_handles.map fun _ _ ↦ Address.handle.inj
  have hperm : (s.registry.entries.map Prod.fst).Perm (s.handles.map Address.handle) := by
    refine (List.perm_ext_iff_of_nodup hr.nodup hnodup).2 fun a ↦ ?_
    rw [Registry.mem_addresses, List.mem_map]
    constructor
    · rintro ⟨id, hid⟩
      obtain ⟨h, rfl, hh⟩ := (hr.get?_iff _ _).1 hid
      exact ⟨h, (mem_handles hc.numbered.nodup).2 ⟨id, hh⟩, rfl⟩
    · rintro ⟨h, hm, rfl⟩
      obtain ⟨id, hh⟩ := (mem_handles hc.numbered.nodup).1 hm
      exact ⟨id, (hr.get?_iff _ _).2 ⟨h, rfl, hh⟩⟩
  have hlength := hperm.length_eq
  rw [List.length_map, List.length_map] at hlength
  exact hlength

end

end State

/-! ## Runs -/

section

variable {s t : State} {x : Step} {r : Except Error WrapperId}

/-- Every step keeps the registry and the live handles in step. -/
theorem registered_step (hc : s.Coherent) (he : Effect s x r t) (hr : s.Registered) :
    t.Registered := by
  cases he with
  | request _ hd =>
    refine hr.congr hd.drift.registry fun j ↦ ?_
    obtain ⟨slots, -, hw⟩ := hd.wrapper j
    rw [hw]
  | failed hd => exact hr.drift hd
  | set _ ha =>
    obtain ⟨f, as, xs, ht⟩ := ha.touched
    exact hr.touched ht
  | made hnew hd => exact (hr.make hc hnew _).drift hd
  | bundled hnew ha =>
    obtain ⟨f, as, xs, ht⟩ := ha.touched
    exact (hr.make hc hnew _).touched ht
  | twinned _ hnew hd => exact ((hr.twin hc hnew _ _).storeAll _ _ _).drift hd
  | @undone id g h loose done closed _ _ hh hnew _ _ hd =>
    -- The duplicate is entered and taken out again, as any wrapper is that ends.
    have hc' := (hc.twin hnew (g := g) (mem_ids_of_handle hh)).storeAll s.opened h done
    have hhandle : (((s.twin id g h).storeAll s.opened h done).wrapper s.opened).handle =
        some h := by rw [wrapper_storeAll, wrapper_twin hc.numbered]
    have hu := Ended.served closed hhandle
    have hr' := ((hr.twin hc hnew id g).storeAll s.opened h done).ended hc' hu
    exact (hr'.remove hu.spec.1).drift hd
  | @wiped id h _ _ _ _ hd =>
    have hr' : ((s.clear (s.wrapper id).api.route h).empty id).Registered :=
      hr.congr rfl fun j ↦ handle_empty (s.clear _ h) id j
    exact hr'.drift hd
  | released _ hd => exact hr.congr hd.registry fun j ↦ (Steady.of_cut hd).handle
  | cleaned hu _ hd => exact (hr.ended hc hu).drift hd
  | dropped hu _ hd => exact ((hr.ended hc hu).remove hu.spec.1).drift hd

theorem State.Orderly.registered (hc : s.Coherent) (hr : s.Registered) {xs : List Step}
    (ho : s.Orderly xs) : (s.after xs).Registered :=
  ho.preserved hc (P := State.Registered) (Q := fun _ ↦ True) hr (fun hcoh he _ ih ↦
    registered_step hcoh he ih) fun _ _ ↦ trivial

end

/-- Whatever is done with any number of wrappers, and whichever handles the engine gives again that
it has let go: an address leads to a wrapper exactly if it is that of the wrapper's live handle, and
there are no other entries. -/
theorem registry_holds_live_wrappers (policy : Policy) (host : Host) (settled : Settled)
    (hp : policy.Fresh) (steps : List Step) :
    (∀ a id, ((State.start policy host settled).after steps).served a = some id ↔
      ∃ h, a = .handle h ∧
        (((State.start policy host settled).after steps).wrapper id).handle = some h) ∧
    ((State.start policy host settled).after steps).registry.size =
      ((State.start policy host settled).after steps).wrappers.countP (·.2.handle.isSome) := by
  have hc := Coherent.start policy host settled
  have hstart : (State.start policy host settled).Registered := by
    refine ⟨List.nodup_nil, fun a id ↦ iff_of_false nofun ?_⟩
    rintro ⟨h, -, hh⟩
    cases hh
  have ho := Orderly.of_policy hc hp steps
  have hr := ho.registered hc hstart
  constructor
  · intro a id
    rw [served, Registry.lookup, Option.filter_eq_some_iff, hr.get?_iff]
    refine and_iff_left_of_imp ?_
    rintro ⟨h, -, hh⟩
    exact isAlive_of_handle hh
  · rw [hr.size_eq (ho.coherent hc), handles, List.length_filterMap_eq_countP]

/-- A handle that is given again leads to the new wrapper, and goes on doing so when the old one
ends once more. -/
theorem recycled_handle_leads_to_new_wrapper :
    ((State.start (Policy.guarded { newHandle := fun _ ↦ some 0 }) .bare .bare).after
      [.create .inProcess, .duplicate 0, .cleanup 0, .create .inProcess, .cleanup 0,
        .drop 0]).served (.handle 0) = some 1 :=
  ((registry_holds_live_wrappers (Policy.guarded { newHandle := fun _ ↦ some 0 }) .bare .bare
    (Policy.guarded_fresh _) [.create .inProcess, .duplicate 0, .cleanup 0, .create .inProcess,
      .cleanup 0, .drop 0]).1 (.handle 0) 1).2 ⟨0, rfl, by decide +kernel⟩

end NativeTransfer
