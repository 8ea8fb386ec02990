import ObjectBridge.Proofs.Lifetime.Natives
import ObjectBridge.Proofs.Lifetime.Ownership
import ObjectBridge.Proofs.Run.Flags
import ObjectBridge.Proofs.Run.Success

/-!
# Copies of objects

To copy an object means to run its deferred constructor, if it is deferred, and to register an object with
the same native state.  The copying itself changes no object that was there.

* `State.Extends` — a state that differs from another one by further objects alone, which hold nothing new.
* `State.Owned` — a handle that is not const and the only one of a managed object.
* `Lifetime.Copied` and `exists_of_outcome_dup` — what copying does.
-/

namespace ObjectBridge

namespace State

/-- A state differs from another one by further objects alone, and these hold nothing that was not held. -/
structure Extends (s t : State) : Prop where
  eq_withArena : t = { s with arena := t.arena }
  constProxies_eq : t.arena.constProxies = s.arena.constProxies
  get?_eq : ∀ r i, s.arena.get? r = some i → t.arena.get? r = some i
  mem_heldValues : ∀ v ∈ t.arena.heldValues, v ∈ s.arena.heldValues

/-- A handle is not const, and it is the only one of a managed object. -/
structure Owned (s : State) (hand : List Value) (k : Handle) : Prop where
  mutable : s.isConst k = false
  managed : s.Managed k.target
  anchor_ne : ∀ p ∈ (s.custody hand).proxies, p.anchor ≠ k.proxy.anchor

variable {s t u : State} {hand : List Value}

theorem Extends.refl (s : State) : s.Extends s := ⟨rfl, rfl, fun _ _ hi => hi, fun _ hv => hv⟩

theorem Extends.trans (hst : s.Extends t) (htu : t.Extends u) : s.Extends u := by
  refine ⟨?_, htu.constProxies_eq.trans hst.constProxies_eq,
    fun r i hi => htu.get?_eq r i (hst.get?_eq r i hi), fun v hv => hst.mem_heldValues v (htu.mem_heldValues v hv)⟩
  have hu := htu.eq_withArena
  rw [hst.eq_withArena] at hu
  exact hu

theorem Extends.roots_eq (h : s.Extends t) : t.roots = s.roots := by
  rw [h.eq_withArena]
  rfl

theorem Extends.cells_eq (h : s.Extends t) : t.cells = s.cells := by
  rw [h.eq_withArena]

theorem Extends.classes_eq (h : s.Extends t) : t.classes = s.classes := by
  rw [h.eq_withArena]

theorem Extends.mem_inUse_iff (h : s.Extends t) {v : Value} :
    v ∈ t.inUse hand ↔ v ∈ s.inUse hand := by
  have harena : v ∈ t.arena.heldValues ↔ v ∈ s.arena.heldValues := by
    refine ⟨h.mem_heldValues v, fun hv => ?_⟩
    obtain ⟨r, i, hi, hv⟩ := Arena.exists_get?_of_mem_heldValues hv
    exact Arena.mem_heldValues_of_get? (h.get?_eq r i hi) hv
  simp only [State.mem_inUse_iff, h.roots_eq, World.heldValues, List.mem_append, h.classes_eq, harena]

/-- The same handles exist. -/
theorem Extends.proxies_eq (h : s.Extends t) : (t.custody hand).proxies = (s.custody hand).proxies :=
  Set.Subset.antisymm (proxies_subset h.cells_eq.symm fun _ hv => h.mem_inUse_iff.mp hv)
    (proxies_subset h.cells_eq fun _ hv => h.mem_inUse_iff.mpr hv)

/-- A handle stays the only one of its object. -/
theorem Owned.of_extends {k : Handle} (howned : s.Owned hand k) (h : s.Extends t) :
    t.Owned hand k := by
  obtain ⟨i, hi, hkeep⟩ := howned.managed
  obtain ⟨hview, hflag⟩ := Arena.isConst_eq_false_iff.mp howned.mutable
  refine ⟨Arena.isConst_eq_false_iff.mpr ⟨hview, h.constProxies_eq ▸ hflag⟩,
    ⟨i, h.get?_eq _ i hi, hkeep⟩, ?_⟩
  rw [h.proxies_eq]
  exact howned.anchor_ne

/-- With fewer values in use a handle stays the only one of its object. -/
theorem Owned.of_subset {hand' : List Value} {k : Handle} (howned : s.Owned hand k)
    (harena : t.arena = s.arena) (hcells : s.cells = t.cells)
    (hsub : ∀ v ∈ t.inUse hand', v ∈ s.inUse hand) : t.Owned hand' k := by
  obtain ⟨hmut, ⟨i, hi, hkeep⟩, hne⟩ := howned
  refine ⟨?_, ⟨i, harena ▸ hi, hkeep⟩, fun p hp => hne p (proxies_subset hcells hsub hp)⟩
  rw [World.isConst, harena]
  exact hmut

end State

namespace Lifetime

open Run

/-- The object of a handle was copied, and the first handle of the copy is another one. -/
def Copied (s : State) (h : Handle) (t : State) (k : Handle) : Prop :=
  ∃ i state c arena, s.arena.get? h.target = some i ∧ i.native = some state ∧
    s.arena.register {
      cls := ClassInfo.id c, className := c.name, kind := c.kind, native := some state,
      keep := .managed, overrides := i.overrides } = .ok (k, arena) ∧
    t = { s with arena := arena }

variable {exec : Exec} {s t : State} {hand : List Value} {h k : Handle}

/-- Nothing runs for an object that is gone. -/
theorem outcome_materialize_of_gone (hgone : s.arena.get? h.target = none) (exec : Exec) (operation : String) :
    (materialize exec h operation).outcome s = (.error (.raised (Arena.useAfterFree h operation)), s) :=
  outcome_bind_of_error (outcome_resolve_of_none hgone operation) _

/-- Nothing runs for an object that has its native state. -/
theorem outcome_materialize {i : Instance} (hi : s.arena.get? h.target = some i)
    (hmat : i.isMaterialized = true) (operation : String) :
    (materialize exec h operation).outcome s = (.ok (), s) := by
  rw [materialize, outcome_bind, outcome_resolve_of_some hi operation]
  simp only [hmat, if_true]
  rfl

theorem outcome_materialize_of_native {i : Instance} {x : NativeState} (exec : Exec)
    (hi : s.arena.get? h.target = some i) (hx : i.native = some x) (operation : String) :
    (materialize exec h operation).outcome s = (.ok (), s) :=
  outcome_materialize hi (by rw [Instance.isMaterialized, hx]; rfl) operation

/-- A copy is made after the deferred constructor of the object has run. -/
theorem exists_of_outcome_dup (hrun : (dup exec h).outcome s = (.ok k, t)) :
    ∃ u, (materialize exec h "dup").outcome s = (.ok (), u) ∧ Copied u h t k := by
  obtain ⟨_, u, hmat, hrun⟩ := exists_of_outcome_bind hrun
  obtain ⟨i, u₁, hresolve, hrun⟩ := exists_of_outcome_bind hrun
  obtain ⟨hi, rfl⟩ := eq_of_outcome_ofExcept hresolve
  obtain ⟨copy, u₂, hcopy, hrun⟩ := exists_of_outcome_bind hrun
  obtain ⟨hsome, rfl⟩ := eq_of_outcome_orFail hcopy
  rw [outcome_get_bind] at hrun
  obtain ⟨c, u₃, hclass, hrun⟩ := exists_of_outcome_bind hrun
  obtain ⟨-, rfl⟩ := eq_of_outcome_ofExcept hclass
  rw [registerAs, register, outcome_get_bind] at hrun
  obtain ⟨⟨k', arena⟩, u₄, hregister, hrun⟩ := exists_of_outcome_bind hrun
  obtain ⟨hreg, rfl⟩ := eq_of_outcome_ofExcept hregister
  obtain ⟨_, u₅, hset, hrun⟩ := exists_of_outcome_bind hrun
  obtain ⟨rfl, rfl⟩ := eq_of_outcome_pure hrun
  exact ⟨_, hmat, i, copy, c, arena, Arena.resolve_eq_ok_iff.mp hi, Instance.native_eq_of_copy? hsome, hreg,
    (Prod.mk.inj hset).2.symm⟩

/-- The copy holds what the original holds. -/
theorem Copied.mem_heldValues (hcopied : Copied s h t k) {v : Value} (hv : v ∈ t.arena.heldValues) :
    v ∈ s.arena.heldValues := by
  obtain ⟨i, state, c, arena, hi, hstate, hreg, rfl⟩ := hcopied
  rcases Arena.mem_heldValues_register hreg hv with hv | hv
  · exact Arena.mem_heldValues_of_get? hi (Instance.mem_heldValues_of_new hstate.symm rfl hv)
  · exact hv

theorem Copied.extends (hcopied : Copied s h t k) (hbal : s.arena.Balanced) : s.Extends t := by
  have hheld : ∀ v ∈ t.arena.heldValues, v ∈ s.arena.heldValues := fun _ hv => hcopied.mem_heldValues hv
  obtain ⟨i, state, c, arena, hi, hstate, hreg, rfl⟩ := hcopied
  refine ⟨rfl, (Arena.constProxies_register hreg).1, ?_, hheld⟩
  intro r j hj
  rw [Arena.get?_register hbal hreg]
  split
  · rename_i hr
    have hocc := (Arena.get?_eq_some_iff_slotAt.mp hj).2
    rw [hr] at hocc
    exact absurd (Arena.occupied_iff_slotAt.mpr ⟨j, hocc⟩) (hbal.not_occupied_of_register hreg)
  · exact hj

/-- The copy has the native state of the original. -/
theorem Copied.native_eq (hcopied : Copied s h t k) :
    ∃ i j, s.arena.get? h.target = some i ∧ t.arena.get? k.target = some j ∧
      j.native = i.native ∧ j.native.isSome = true ∧ j.keep = .managed := by
  obtain ⟨i, state, c, arena, hi, hstate, hreg, rfl⟩ := hcopied
  exact ⟨i, _, hi, Arena.get?_of_register hreg, hstate.symm, rfl, rfl⟩

/-- The handle of the copy is the only one. -/
theorem Copied.owned (hcopied : Copied s h t k) (hs : s.Arises hand) : t.Owned hand k := by
  have hextends := hcopied.extends hs.balanced
  obtain ⟨-, j, -, hj, -, -, hkeep⟩ := hcopied.native_eq
  obtain ⟨i, state, c, arena, hi, hstate, hreg, rfl⟩ := hcopied
  obtain ⟨hflags, -, hserial⟩ := Arena.constProxies_register hreg
  obtain ⟨-, hanchor⟩ := Arena.nextAnchor_register hreg
  refine ⟨?_, ⟨j, hj, hkeep⟩, ?_⟩
  · obtain ⟨slot, base, entry, -, -, rfl, -⟩ := Arena.register_cases hreg
    refine Arena.isConst_eq_false_iff.mpr ⟨rfl, ?_⟩
    show _ ∉ arena.constProxies
    rw [hflags, hserial]
    exact fun hmem => Nat.lt_irrefl _ (hs.flag_lt _ hmem)
  · -- The copy has the next anchor, and those that are held have smaller ones.
    intro p hp heq
    rw [hextends.proxies_eq] at hp
    have hlt := hs.anchor_lt hp
    rw [heq, hanchor] at hlt
    exact Nat.lt_irrefl _ hlt

/-- To copy an object that has its native state registers the copy, and does nothing else. -/
theorem extends_of_dup (hs : s.Arises hand) {i : Instance} (hi : s.arena.get? h.target = some i)
    (hmat : i.isMaterialized = true) (hrun : (dup exec h).outcome s = (.ok k, t)) :
    s.Extends t ∧ t.Owned hand k := by
  obtain ⟨u, hnothing, hcopied⟩ := exists_of_outcome_dup hrun
  have hsame : (materialize exec h "dup").outcome s = (.ok (), s) := outcome_materialize hi hmat "dup"
  obtain rfl := (Prod.mk.inj (hsame.symm.trans hnothing)).2
  exact ⟨hcopied.extends hs.balanced, hcopied.owned hs⟩

end Lifetime

end ObjectBridge
