import Mathlib.Data.Option.Basic
import ObjectBridge.Proofs.Arena.Generations

/-!
# Arenas that differ in native states

Two arenas hold the same objects in the same slots, apart from the native states of the objects.  Whatever the arena is
asked about handles, slots and generations has the same answer in both, and every operation is done to both.

* `Matched` — computations that fail alike, or have related results.
* `Arena.Twin` — the arenas, given how the native states of two objects are related.
* `Twin.bare_eq` — nothing but native states and counts is different.
* `Twin.register`, `Twin.destroy?`, `Twin.issue` and their companions — one lemma for each operation.
* `Twin.materialized` and `Twin.materialized_second` — an object gets its native state in one arena alone.
* `SameProxies` — handles in use that are the same up to const views.
* `Arena.Spares` — a step of an arena that removes nothing.
-/

namespace ObjectBridge

/-- Two computations fail with the same error, or have results that are related. -/
inductive Matched {α β : Type} (R : α → β → Prop) : Except Error α → Except Error β → Prop
  | ok {x : α} {y : β} (h : R x y) : Matched R (.ok x) (.ok y)
  | error (e : Error) : Matched R (.error e) (.error e)

/-- Computations that go on in the same way. -/
theorem Matched.bind {α β γ δ : Type} {R : α → β → Prop} {S : γ → δ → Prop} {r : Except Error α}
    {r' : Except Error β} {f : α → Except Error γ} {g : β → Except Error δ} (h : Matched R r r')
    (hf : ∀ x y, r = .ok x → R x y → Matched S (f x) (g y)) : Matched S (r >>= f) (r' >>= g) := by
  cases h with
  | ok hxy => exact hf _ _ rfl hxy
  | error e => exact .error e

/-- A relation between the native states of two objects of a class. -/
abbrev NativeRel := ClassId → Option NativeState → Option NativeState → Prop

/-- The objects of a class have the same native states. -/
def NativeRel.Settles (N : NativeRel) (cls : ClassId) : Prop :=
  ∀ x y, N cls x y → y = x

/-- Two objects that differ in their native states, which are related. -/
structure Instance.Twin (N : NativeRel) (i i' : Instance) : Prop where
  eq : i' = { i with native := i'.native }
  native : N i.cls i.native i'.native

/-- Two slots with such objects. -/
structure Slot.Twin (N : NativeRel) (s s' : Slot) : Prop where
  generation_eq : s'.generation = s.generation
  removals_eq : s'.removals = s.removals
  occupant : Option.Rel (Instance.Twin N) s.occupant s'.occupant

namespace Instance

variable {N : NativeRel} {i i' : Instance}

theorem Twin.cls_eq (h : i.Twin N i') : i'.cls = i.cls := by rw [h.eq]

theorem Twin.kind_eq (h : i.Twin N i') : i'.kind = i.kind := by rw [h.eq]

theorem Twin.keep_eq (h : i.Twin N i') : i'.keep = i.keep := by rw [h.eq]

theorem Twin.anchor_eq (h : i.Twin N i') : i'.anchor = i.anchor := by rw [h.eq]

theorem Twin.proxy_eq (h : i.Twin N i') : i'.proxy = i.proxy := by rw [h.eq]

theorem Twin.overrides_eq (h : i.Twin N i') : i'.overrides = i.overrides := by rw [h.eq]

theorem Twin.handlers?_eq (h : i.Twin N i') (event : String) : i'.handlers? event = i.handlers? event := by
  rw [h.eq, handlers?, handlers?]

/-- Objects of a class whose states are the same are the same. -/
theorem Twin.eq_of_settles (h : i.Twin N i') (hsettles : N.Settles i.cls) : i' = i := by
  have hsame := hsettles _ _ h.native
  rw [h.eq, hsame]

/-- A change that leaves the native state and the class alone is made to both objects. -/
theorem Twin.map (h : i.Twin N i') {f : Instance → Instance} (hcls : ∀ j, (f j).cls = j.cls)
    (hnative : ∀ j, (f j).native = j.native)
    (hrest : ∀ j x, f { j with native := x } = { f j with native := x }) : (f i).Twin N (f i') where
  eq := by
    rw [hnative i']
    exact (congrArg f h.eq).trans (hrest i i'.native)
  native := by
    rw [hcls, hnative, hnative]
    exact h.native

theorem twin_refl {i : Instance} (hN : N i.cls i.native i.native) : i.Twin N i := ⟨rfl, hN⟩

/-- An object without its native state. -/
def bare (i : Instance) : Instance :=
  { i with native := none }

theorem Twin.bare_eq (h : i.Twin N i') : i'.bare = i.bare := by
  rw [bare, h.eq]
  rfl

end Instance

namespace Slot

/-- A slot without the native state of its object. -/
def bare (s : Slot) : Slot :=
  { s with occupant := s.occupant.map Instance.bare }

theorem Twin.bare_eq {N : NativeRel} {s s' : Slot} (h : s.Twin N s') : s'.bare = s.bare := by
  have hoccupant : s'.occupant.map Instance.bare = s.occupant.map Instance.bare := by
    have hrel := h.occupant
    generalize s.occupant = o, s'.occupant = o' at hrel ⊢
    cases hrel with
    | none => rfl
    | some hi => exact congrArg some hi.bare_eq
  rw [bare, bare, h.generation_eq, h.removals_eq, hoccupant]

end Slot

namespace Arena

variable {N : NativeRel}

/-- Two arenas with the same objects, apart from native states that are related. Classes whose objects have the same
states are counted alike, and if this is so for all classes, the counts are the same. -/
structure Twin (N : NativeRel) (a a' : Arena) : Prop where
  slots : ∀ k : Nat, Option.Rel (Slot.Twin N) a.slots[k]? a'.slots[k]?
  free_eq : a'.free = a.free
  live_eq : a'.live = a.live
  nextAnchor_eq : a'.nextAnchor = a.nextAnchor
  nextProxy_eq : a'.nextProxy = a.nextProxy
  constProxies_eq : a'.constProxies = a.constProxies
  count_eq : ∀ cls, N.Settles cls → a'.instanceCount cls = a.instanceCount cls
  counts_eq : (∀ cls, N.Settles cls) → a'.counts = a.counts

variable {a a' : Arena} {r : Reference} {h : Handle}

theorem twin_refl (hN : ∀ s ∈ a.slots, ∀ i ∈ s.occupant, N i.cls i.native i.native) : a.Twin N a where
  slots k := by
    cases hs : a.slots[k]? with
    | none => exact .none
    | some s =>
        refine .some ⟨rfl, rfl, ?_⟩
        cases hi : s.occupant with
        | none => exact .none
        | some i => exact .some (Instance.twin_refl (hN s (Array.mem_of_getElem? hs) i hi))
  free_eq := rfl
  live_eq := rfl
  nextAnchor_eq := rfl
  nextProxy_eq := rfl
  constProxies_eq := rfl
  count_eq _ _ := rfl
  counts_eq _ := rfl

/-- The relation between native states may be widened. -/
theorem Twin.mono {M : NativeRel} (ht : a.Twin N a') (hsub : ∀ c x y, N c x y → M c x y) : a.Twin M a' where
  slots k := by
    have hslot := ht.slots k
    generalize a.slots[k]? = s, a'.slots[k]? = s' at hslot ⊢
    cases hslot with
    | none => exact .none
    | @some s s' hs =>
        refine .some ⟨hs.generation_eq, hs.removals_eq, ?_⟩
        have hoccupant := hs.occupant
        generalize s.occupant = o, s'.occupant = o' at hoccupant ⊢
        cases hoccupant with
        | none => exact .none
        | some hi => exact .some ⟨hi.eq, hsub _ _ _ hi.native⟩
  free_eq := ht.free_eq
  live_eq := ht.live_eq
  nextAnchor_eq := ht.nextAnchor_eq
  nextProxy_eq := ht.nextProxy_eq
  constProxies_eq := ht.constProxies_eq
  count_eq cls hsettles := ht.count_eq cls fun x y hxy => hsettles x y (hsub _ _ _ hxy)
  counts_eq hsettles := ht.counts_eq fun cls x y hxy => hsettles cls x y (hsub _ _ _ hxy)

/-- The second arena differs from the first one as the first one does from the second one. -/
theorem Twin.symm (ht : a.Twin N a') : a'.Twin (fun c x y => N c y x) a where
  slots k := by
    have hslot := ht.slots k
    generalize a.slots[k]? = s, a'.slots[k]? = s' at hslot ⊢
    cases hslot with
    | none => exact .none
    | @some s s' hs =>
        refine .some ⟨hs.generation_eq.symm, hs.removals_eq.symm, ?_⟩
        have hoccupant := hs.occupant
        generalize s.occupant = o, s'.occupant = o' at hoccupant ⊢
        cases hoccupant with
        | none => exact .none
        | some hi =>
            refine .some ⟨by rw [hi.eq], ?_⟩
            rw [hi.cls_eq]
            exact hi.native
  free_eq := ht.free_eq.symm
  live_eq := ht.live_eq.symm
  nextAnchor_eq := ht.nextAnchor_eq.symm
  nextProxy_eq := ht.nextProxy_eq.symm
  constProxies_eq := ht.constProxies_eq.symm
  count_eq cls hsettles := (ht.count_eq cls fun x y hxy => (hsettles y x hxy).symm).symm
  counts_eq hsettles := (ht.counts_eq fun cls x y hxy => (hsettles cls y x hxy).symm).symm

/-! ## Apart from native states -/

/-- An arena without the native states and the counts. -/
def bare (a : Arena) : Arena :=
  { a with slots := a.slots.map Slot.bare, counts := [] }

theorem Twin.bare_eq (ht : a.Twin N a') : a'.bare = a.bare := by
  have hslots : a'.slots.map Slot.bare = a.slots.map Slot.bare := by
    refine Array.ext_getElem? fun k => ?_
    have hslot := ht.slots k
    rw [Array.getElem?_map, Array.getElem?_map]
    generalize a.slots[k]? = s, a'.slots[k]? = s' at hslot ⊢
    cases hslot with
    | none => rfl
    | some hs => exact congrArg some hs.bare_eq
  rw [bare, bare, hslots, ht.free_eq, ht.live_eq, ht.nextAnchor_eq, ht.nextProxy_eq, ht.constProxies_eq]

/-! ## Reading -/

theorem Twin.size_eq (ht : a.Twin N a') : a'.slots.size = a.slots.size := by
  have hiff (k : Nat) : a'.slots.size ≤ k ↔ a.slots.size ≤ k := by
    rw [← Array.getElem?_eq_none_iff, ← Array.getElem?_eq_none_iff]
    have hslot := ht.slots k
    generalize a.slots[k]? = s, a'.slots[k]? = s' at hslot
    cases hslot <;> simp
  exact Nat.le_antisymm ((hiff _).mpr (Nat.le_refl _)) ((hiff _).mp (Nat.le_refl _))

theorem Twin.get? (ht : a.Twin N a') (r : Reference) : Option.Rel (Instance.Twin N) (a.get? r) (a'.get? r) := by
  have hslot := ht.slots r.slot
  unfold Arena.get?
  generalize a.slots[r.slot]? = s, a'.slots[r.slot]? = s' at hslot
  cases hslot with
  | none => exact .none
  | some hs =>
      simp only [hs.generation_eq]
      split
      · exact hs.occupant
      · exact .none

/-- Several classes whose objects have the same native states are counted alike. -/
theorem Twin.foldl_instanceCount_eq (ht : a.Twin N a') {ids : List ClassId} (hids : ∀ cls ∈ ids, N.Settles cls)
    (total : Nat) : ids.foldl (fun total cls => total + a'.instanceCount cls) total =
      ids.foldl (fun total cls => total + a.instanceCount cls) total := by
  induction ids generalizing total with
  | nil => rfl
  | cons cls rest ih =>
      rw [List.foldl_cons, List.foldl_cons, ht.count_eq cls (hids cls List.mem_cons_self)]
      exact ih (fun other hother => hids other (List.mem_cons_of_mem cls hother)) _

/-- An object that is there in the first arena is there in the second one. -/
theorem Twin.exists_get? (ht : a.Twin N a') {i : Instance} (hi : a.get? r = some i) :
    ∃ i', a'.get? r = some i' ∧ i.Twin N i' := by
  have hget := ht.get? r
  rw [hi] at hget
  generalize hi' : a'.get? r = o at hget
  cases hget with
  | some htwin => exact ⟨_, rfl, htwin⟩

theorem Twin.get?_eq_none (ht : a.Twin N a') (hi : a.get? r = none) : a'.get? r = none := by
  have hget := ht.get? r
  rw [hi] at hget
  generalize a'.get? r = o at hget ⊢
  cases hget
  rfl

/-- As many objects were removed from a slot of either arena. -/
theorem Twin.removals_eq (ht : a.Twin N a') (slot : Nat) :
    (a'.slotAt slot).removals = (a.slotAt slot).removals := by
  have hslot := ht.slots slot
  unfold slotAt
  generalize a.slots[slot]? = s, a'.slots[slot]? = s' at hslot ⊢
  cases hslot with
  | none => rfl
  | some hs => exact hs.removals_eq

theorem Twin.isLive_eq (ht : a.Twin N a') (r : Reference) : a'.isLive r = a.isLive r := by
  have hget := ht.get? r
  unfold isLive
  generalize a.get? r = o, a'.get? r = o' at hget
  cases hget <;> rfl

theorem Twin.isDestroyed_eq (ht : a.Twin N a') (h : Handle) : a'.isDestroyed h = a.isDestroyed h := by
  rw [isDestroyed, isDestroyed, ht.isLive_eq]

theorem Twin.isConst_eq (ht : a.Twin N a') (h : Handle) : a'.isConst h = a.isConst h := by
  rw [isConst, isConst, ht.constProxies_eq]

theorem Twin.handleState_eq (ht : a.Twin N a') (h : Handle) : a'.handleState h = a.handleState h := by
  cases hi : a.get? h.target with
  | none => rw [handleState, handleState, hi, ht.get?_eq_none hi]
  | some i =>
      obtain ⟨i', hi', htwin⟩ := ht.exists_get? hi
      simp only [handleState, hi, hi', ht.isConst_eq, htwin.keep_eq]

theorem Twin.resolve (ht : a.Twin N a') (h : Handle) (operation : String) :
    Matched (Instance.Twin N) (a.resolve h operation) (a'.resolve h operation) := by
  have hget := ht.get? h.target
  unfold Arena.resolve
  generalize a.get? h.target = o, a'.get? h.target = o' at hget
  cases hget with
  | none => exact .error _
  | some htwin => exact .ok htwin

theorem Twin.forall₂_slots (ht : a.Twin N a') : List.Forall₂ (Slot.Twin N) a.slots.toList a'.slots.toList := by
  refine List.forall₂_iff_get.mpr ⟨?_, fun k hk hk' => ?_⟩
  · simpa using ht.size_eq.symm
  · have hslot := ht.slots k
    rw [Array.getElem?_eq_getElem (by simpa using hk), Array.getElem?_eq_getElem (by simpa using hk')] at hslot
    cases hslot with
    | some hs => exact hs

/-- Arenas whose objects all have the same native states are the same. -/
theorem Twin.eq_of_settles (ht : a.Twin N a') (hsettles : ∀ cls, N.Settles cls) : a' = a := by
  have hslots : a'.slots = a.slots := by
    refine Array.ext_getElem? fun k => ?_
    have hslot := ht.slots k
    generalize a.slots[k]? = s, a'.slots[k]? = s' at hslot
    cases hslot with
    | none => rfl
    | @some s s' hs =>
        have hoccupant : s'.occupant = s.occupant := by
          have hrel := hs.occupant
          generalize s.occupant = o, s'.occupant = o' at hrel
          cases hrel with
          | none => rfl
          | some hi => exact congrArg some (hi.eq_of_settles (hsettles _))
        obtain ⟨generation, occupant, removals⟩ := s
        obtain ⟨generation', occupant', removals'⟩ := s'
        obtain rfl : generation' = generation := hs.generation_eq
        obtain rfl : removals' = removals := hs.removals_eq
        obtain rfl : occupant' = occupant := hoccupant
        rfl
  obtain ⟨slots, free, counts, live, nextAnchor, nextProxy, constProxies⟩ := a
  obtain ⟨slots', free', counts', live', nextAnchor', nextProxy', constProxies'⟩ := a'
  obtain rfl : slots' = slots := hslots
  obtain rfl : free' = free := ht.free_eq
  obtain rfl : counts' = counts := ht.counts_eq hsettles
  obtain rfl : live' = live := ht.live_eq
  obtain rfl : nextAnchor' = nextAnchor := ht.nextAnchor_eq
  obtain rfl : nextProxy' = nextProxy := ht.nextProxy_eq
  obtain rfl : constProxies' = constProxies := ht.constProxies_eq
  rfl

/-- What an object holds is held by its counterpart, or it is a native state. -/
theorem Twin.mem_heldValues (ht : a.Twin N a') {v : Value} (hv : v ∈ a'.heldValues) :
    v ∈ a.heldValues ∨ ∃ cls x state, N cls x (some state) ∧ (x ≠ some state) ∧ v = .map state.fields := by
  have hslots := ht.forall₂_slots
  unfold heldValues at hv ⊢
  generalize a.slots.toList = ss, a'.slots.toList = ss' at hslots hv
  induction hslots with
  | nil => exact absurd hv List.not_mem_nil
  | @cons s s' ss ss' hs _ ih =>
      rw [List.flatMap_cons, List.mem_append] at hv
      rw [List.flatMap_cons, List.mem_append]
      rcases hv with hv | hv
      · have hoccupant := hs.occupant
        generalize s.occupant = o, s'.occupant = o' at hoccupant hv
        cases hoccupant with
        | none => exact absurd hv List.not_mem_nil
        | @some i i' hi =>
            have hoverrides := hi.overrides_eq
            have hevents : i'.events = i.events := by rw [hi.eq]
            simp only [Instance.heldValues, List.mem_append, hoverrides, hevents] at hv ⊢
            rcases hv with (hv | hv) | hv
            · obtain ⟨state, hstate, rfl⟩ := Option.map_eq_some_iff.mp (Option.mem_toList.mp hv)
              by_cases hsame : i.native = some state
              · exact Or.inl (Or.inl (Or.inl (Or.inl (by rw [hsame]; exact List.mem_singleton_self _))))
              · exact Or.inr ⟨_, _, state, hstate ▸ hi.native, hsame, rfl⟩
            · exact Or.inl (Or.inl (Or.inl (Or.inr hv)))
            · exact Or.inl (Or.inl (Or.inr hv))
      · exact (ih hv).imp_left Or.inr

/-! ## Changes of an object -/

theorem instanceCount_congr {b : Arena} (hcounts : b.counts = a.counts) (cls : ClassId) :
    b.instanceCount cls = a.instanceCount cls := by
  rw [instanceCount, instanceCount, hcounts]

theorem Twin.setOccupant (ht : a.Twin N a') {i i' : Instance} (hi : i.Twin N i') (slot : Nat) :
    (a.setOccupant slot i).Twin N (a'.setOccupant slot i') where
  slots k := by
    have hslot := ht.slots k
    simp only [slots_setOccupant, Array.getElem?_modify]
    split
    · generalize a.slots[k]? = s, a'.slots[k]? = s' at hslot
      cases hslot with
      | none => exact .none
      | some hs => exact .some ⟨hs.generation_eq, hs.removals_eq, .some hi⟩
    · exact hslot
  free_eq := ht.free_eq
  live_eq := ht.live_eq
  nextAnchor_eq := ht.nextAnchor_eq
  nextProxy_eq := ht.nextProxy_eq
  constProxies_eq := ht.constProxies_eq
  count_eq := ht.count_eq
  counts_eq := ht.counts_eq

theorem Twin.modify (ht : a.Twin N a') (r : Reference) {f f' : Instance → Instance}
    (hf : ∀ i i', a.get? r = some i → i.Twin N i' → (f i).Twin N (f' i')) :
    (a.modify r f).Twin N (a'.modify r f') := by
  cases hi : a.get? r with
  | none =>
      rw [Arena.modify, Arena.modify, hi, ht.get?_eq_none hi]
      exact ht
  | some i =>
      obtain ⟨i', hi', htwin⟩ := ht.exists_get? hi
      rw [Arena.modify, Arena.modify, hi, hi']
      exact ht.setOccupant (hf i i' hi htwin) r.slot

theorem Twin.setNative (hN : ∀ c x, N c (some x) (some x)) (ht : a.Twin N a') (r : Reference) (state : NativeState) :
    (a.setNative r state).Twin N (a'.setNative r state) := by
  refine ht.modify r fun i i' _ htwin => ⟨?_, hN _ _⟩
  rw [htwin.eq]

theorem Twin.setConst (ht : a.Twin N a') (p : Proxy) (isConst : Bool) :
    (a.setConst p isConst).Twin N (a'.setConst p isConst) where
  slots := ht.slots
  free_eq := ht.free_eq
  live_eq := ht.live_eq
  nextAnchor_eq := ht.nextAnchor_eq
  nextProxy_eq := ht.nextProxy_eq
  constProxies_eq := by simp only [Arena.setConst, ht.constProxies_eq]
  count_eq := ht.count_eq
  counts_eq := ht.counts_eq

theorem Twin.setKeep (ht : a.Twin N a') (h : Handle) (keep : Keep) (operation : String) :
    Matched (Twin N) (a.setKeep h keep operation) (a'.setKeep h keep operation) := by
  refine (ht.resolve h operation).bind fun i i' _ hi => .ok (ht.setOccupant ?_ _)
  exact hi.map (f := fun i => { i with keep := keep }) (fun _ => rfl) (fun _ => rfl) fun _ _ => rfl

theorem Twin.setHandlers (ht : a.Twin N a') (r : Reference) (event : String) (hs : Handlers) :
    (a.modify r fun i => i.setHandlers event hs).Twin N (a'.modify r fun i => i.setHandlers event hs) :=
  ht.modify r fun _ _ _ hi =>
    hi.map (f := fun i => i.setHandlers event hs) (fun _ => rfl) (fun _ => rfl) fun _ _ => rfl

/-! ## New objects -/

theorem Twin.takeSlot (ht : a.Twin N a') :
    Matched (fun taken taken' => taken'.1 = taken.1 ∧ taken.2.Twin N taken'.2) a.takeSlot a'.takeSlot := by
  unfold Arena.takeSlot
  rw [ht.free_eq, ht.size_eq]
  split
  · exact .ok ⟨rfl, { ht with free_eq := rfl }⟩
  · dsimp only
    split
    · refine .ok ⟨rfl, { ht with free_eq := rfl, slots := fun k => ?_ }⟩
      rw [Array.getElem?_push, Array.getElem?_push, ht.size_eq]
      split
      · exact .some ⟨rfl, rfl, .none⟩
      · exact ht.slots k
    · exact .error _

/-- A class is counted alike after an object that both arenas gained. -/
theorem instanceCount_of_gained {b : Arena} {cls : ClassId} {made : Bool}
    (hcounts : b.counts = if made then a.countUp cls else a.counts) (other : ClassId) :
    b.instanceCount other = a.instanceCount other + (if made && cls == other then 1 else 0) := by
  cases made with
  | false => exact instanceCount_congr hcounts other
  | true =>
      rw [instanceCount_countUp hcounts]
      simp

/-- A class is counted alike after an object that both arenas lost. -/
theorem instanceCount_of_lost {b : Arena} {cls : ClassId} {made : Bool}
    (hcounts : b.counts = if made then a.countDown cls else a.counts) (other : ClassId) :
    b.instanceCount other = a.instanceCount other - (if made && cls == other then 1 else 0) := by
  cases made with
  | false => exact instanceCount_congr hcounts other
  | true =>
      rw [instanceCount_countDown hcounts]
      simp

/-- Objects of a class that is compared are counted alike. -/
theorem isSome_and_eq {cls other : ClassId} (hsettles : N.Settles other) {x y : Option NativeState}
    (hxy : N cls x y) : (y.isSome && cls == other) = (x.isSome && cls == other) := by
  by_cases hsame : cls = other
  · rw [hsettles x y (hsame ▸ hxy)]
  · rw [beq_eq_false_iff_ne.mpr hsame, Bool.and_false, Bool.and_false]

/-- Objects that differ in their native states are stored alike, under the same handle. -/
theorem Twin.register (ht : a.Twin N a') {new new' : NewInstance}
    (hsame : new' = { new with native := new'.native }) (hnative : N new.cls new.native new'.native) :
    Matched (fun stored stored' => stored'.1 = stored.1 ∧ stored.2.Twin N stored'.2)
      (a.register new) (a'.register new') := by
  have hcls : new'.cls = new.cls := by rw [hsame]
  refine ht.takeSlot.bind ?_
  rintro ⟨slot, b⟩ ⟨slot', b'⟩ - ⟨hslots, hb⟩
  obtain rfl : slot' = slot := hslots
  have hslot := hb.slots slot'
  dsimp only at hb ⊢
  generalize b.slots[slot']? = s, b'.slots[slot']? = s' at hslot
  cases hslot with
  | none => exact .error _
  | @some entry entry' hs =>
      have hhandle : b'.firstHandle new' ⟨slot', entry'.generation⟩ = b.firstHandle new ⟨slot', entry.generation⟩ := by
        rw [hsame, hs.generation_eq, firstHandle, firstHandle, hb.nextProxy_eq, hb.nextAnchor_eq]
      have hstored : (new.stored (b.firstHandle new ⟨slot', entry.generation⟩).proxy).Twin N
          (new'.stored (b'.firstHandle new' ⟨slot', entry'.generation⟩).proxy) := by
        rw [hhandle]
        refine ⟨?_, hnative⟩
        rw [hsame]
        rfl
      refine .ok ⟨hhandle, { hb.setOccupant hstored slot' with
        live_eq := congrArg (· + 1) hb.live_eq
        nextAnchor_eq := congrArg (· + 1) hb.nextAnchor_eq
        nextProxy_eq := congrArg (· + 1) hb.nextProxy_eq
        count_eq := fun cls hsettles => ?_
        counts_eq := fun hsettles => ?_ }⟩
      · refine Eq.trans (instanceCount_of_gained (a := b') rfl cls) ?_
        refine Eq.trans ?_ (instanceCount_of_gained (a := b) rfl cls).symm
        rw [hcls, isSome_and_eq hsettles hnative, hb.count_eq cls hsettles]
      · show (if new'.native.isSome then b'.countUp new'.cls else b'.counts) =
          if new.native.isSome then b.countUp new.cls else b.counts
        rw [hcls, hsettles _ _ _ hnative, countUp, countUp, instanceCount_congr (hb.counts_eq hsettles),
          hb.counts_eq hsettles]

/-! ## Native states -/

/-- Objects that both are without a native state get the same one. -/
theorem Twin.materialize (hN : ∀ c x, N c (some x) (some x)) (ht : a.Twin N a')
    (hmade : ∀ i i', a.get? r = some i → a'.get? r = some i' → i'.isMaterialized = i.isMaterialized)
    (state : NativeState) : Matched (Twin N) (a.materialize r state) (a'.materialize r state) := by
  unfold Arena.materialize
  cases hi : a.get? r with
  | none =>
      rw [ht.get?_eq_none hi]
      exact .error _
  | some i =>
      obtain ⟨i', hi', htwin⟩ := ht.exists_get? hi
      rw [hi']
      dsimp only
      rw [hmade i i' hi hi']
      split
      · exact .ok ht
      · have hstate : ({ i with native := some state } : Instance).Twin N { i' with native := some state } := by
          refine ⟨?_, hN _ _⟩
          rw [htwin.eq]
        -- Both sides count the same class up by one.
        refine .ok { ht.setOccupant hstate r.slot with
          count_eq := fun cls hsettles => ?_
          counts_eq := fun hsettles => ?_ }
        · refine Eq.trans (instanceCount_countUp (a := a') rfl cls) ?_
          refine Eq.trans ?_ (instanceCount_countUp (a := a) rfl cls).symm
          rw [htwin.cls_eq, ht.count_eq cls hsettles]
        · show a'.countUp i'.cls = a.countUp i.cls
          rw [htwin.cls_eq, countUp, countUp, instanceCount_congr (ht.counts_eq hsettles), ht.counts_eq hsettles]

/-- To write an object where it is changes nothing. -/
theorem setOccupant_self {i : Instance} (hi : a.get? r = some i) : a.setOccupant r.slot i = a := by
  obtain ⟨s, hs, -, hoccupant⟩ := get?_eq_some_iff.mp hi
  have hslots : (a.slots.modify r.slot fun s => { s with occupant := some i }) = a.slots := by
    refine Array.ext_getElem? fun k => ?_
    rw [Array.getElem?_modify]
    split
    · rename_i hk
      rw [← hk, hs, Option.map_some, ← hoccupant]
    · rfl
  rw [setOccupant, hslots]

/-- The native state that an object gets in the first arena is the one that it has in the second one. -/
theorem Twin.materialized (hN : ∀ c x, N c (some x) (some x)) (ht : a.Twin N a') {i i' : Instance}
    {state : NativeState} {b : Arena}
    (hi : a.get? r = some i) (hnone : i.native = none) (hi' : a'.get? r = some i') (hstate : i'.native = some state)
    (hmat : a.materialize r state = .ok b) : b.Twin N a' := by
  obtain ⟨j, hj, ⟨hmade, -⟩ | ⟨-, rfl⟩⟩ := materialize_cases hmat
  · obtain rfl := Option.some.inj (hi.symm.trans hj)
    simp [Instance.isMaterialized, hnone] at hmade
  · obtain rfl := Option.some.inj (hi.symm.trans hj)
    obtain ⟨k, hk, htwin⟩ := ht.exists_get? hi
    obtain rfl := Option.some.inj (hi'.symm.trans hk)
    have hobject : ({ i with native := some state } : Instance).Twin N i' := by
      refine ⟨?_, ?_⟩
      · rw [htwin.eq, hstate]
      · rw [hstate]
        exact hN _ _
    have hset := ht.setOccupant hobject r.slot
    rw [setOccupant_self hi'] at hset
    -- One side had no state where the other has one, so the counts of the class need not agree.
    have hunsettled : ¬N.Settles i.cls := fun hsettles => by
      have hsame := hsettles _ _ htwin.native
      rw [hnone, hstate] at hsame
      cases hsame
    refine { hset with
      count_eq := fun cls hsettles => ?_
      counts_eq := fun hsettles => absurd (hsettles _) hunsettled }
    have hother : i.cls ≠ cls := by
      rintro rfl
      exact hunsettled hsettles
    refine Eq.trans (ht.count_eq cls hsettles) ?_
    refine Eq.trans ?_ (instanceCount_countUp (a := a) rfl cls).symm
    rw [if_neg hother, Nat.add_zero]

/-- The native state that an object gets in the second arena is the one that it has in the first one. -/
theorem Twin.materialized_second (hN : ∀ c x, N c (some x) (some x)) (ht : a.Twin N a') {i i' : Instance}
    {state : NativeState} {b : Arena}
    (hi : a.get? r = some i) (hstate : i.native = some state) (hi' : a'.get? r = some i') (hnone : i'.native = none)
    (hmat : a'.materialize r state = .ok b) : a.Twin N b := by
  have hback : b.Twin (fun c x y => N c y x) a := by
    refine Twin.materialized ?_ ht.symm hi' hnone hi hstate hmat
    exact hN
  exact hback.symm

/-! ## Removals -/

theorem Twin.destroy? (ht : a.Twin N a') (r : Reference) :
    Option.Rel (fun removed removed' => removed.1.Twin N removed'.1 ∧ removed.2.Twin N removed'.2)
      (a.destroy? r) (a'.destroy? r) := by
  unfold Arena.destroy?
  cases hi : a.get? r with
  | none =>
      rw [ht.get?_eq_none hi]
      exact .none
  | some i =>
      obtain ⟨i', hi', htwin⟩ := ht.exists_get? hi
      rw [hi']
      refine .some ⟨htwin, {
        slots := fun k => ?_
        free_eq := congrArg (r.slot :: ·) ht.free_eq
        live_eq := congrArg (· - 1) ht.live_eq
        nextAnchor_eq := ht.nextAnchor_eq
        nextProxy_eq := ht.nextProxy_eq
        constProxies_eq := ht.constProxies_eq
        count_eq := fun cls hsettles => ?_
        counts_eq := fun hsettles => ?_ }⟩
      · -- The same slot is emptied on both sides.
        have hslot := ht.slots k
        simp only [Array.getElem?_modify]
        split
        · generalize a.slots[k]? = s, a'.slots[k]? = s' at hslot
          cases hslot with
          | none => exact .none
          | some hs =>
              exact .some ⟨congrArg (· + 1) hs.generation_eq, congrArg (· + 1) hs.removals_eq, .none⟩
        · exact hslot
      · refine Eq.trans (instanceCount_of_lost (a := a') rfl cls) ?_
        refine Eq.trans ?_ (instanceCount_of_lost (a := a) rfl cls).symm
        rw [htwin.cls_eq, Instance.isMaterialized, Instance.isMaterialized, isSome_and_eq hsettles htwin.native,
          ht.count_eq cls hsettles]
      · obtain rfl : i' = i := htwin.eq_of_settles (hsettles _)
        show (if i'.isMaterialized then a'.countDown i'.cls else a'.counts) =
          if i'.isMaterialized then a.countDown i'.cls else a.counts
        rw [countDown, countDown, instanceCount_congr (ht.counts_eq hsettles), ht.counts_eq hsettles]

theorem Twin.destroy (ht : a.Twin N a') (h : Handle) :
    Matched (fun removed removed' => removed.2.Twin N removed'.2) (a.destroy h) (a'.destroy h) := by
  have hgone := ht.destroy? h.target
  unfold Arena.destroy
  generalize a.destroy? h.target = o, a'.destroy? h.target = o' at hgone
  cases hgone with
  | none => exact .error _
  | some hremoved => exact .ok hremoved.2

/-! ## Handles -/

theorem Twin.issueFresh (ht : a.Twin N a') (held : List Handle) (r : Reference) {i i' : Instance} (hi : i.Twin N i')
    (isConst : Bool) : (a'.issueFresh held r i' isConst).1 = (a.issueFresh held r i isConst).1 ∧
      (a.issueFresh held r i isConst).2.Twin N (a'.issueFresh held r i' isConst).2 := by
  obtain ⟨heq, hnative⟩ := hi
  generalize i'.native = x at heq hnative
  subst heq
  simp only [Arena.issueFresh, ht.nextAnchor_eq, ht.nextProxy_eq]
  generalize anchorHeld held i.anchor = inUse
  refine ⟨trivial, ?_⟩
  generalize (if inUse then i.anchor else ⟨a.nextAnchor, r⟩ : Anchor) = anchor
  generalize hproxy : (if i.kind = .object then ⟨a.nextProxy, anchor, i.cls, i.className⟩ else i.proxy : Proxy) = proxy
  have hobject : ({ i with anchor := anchor, proxy := proxy } : Instance).Twin N
      { i with native := x, anchor := anchor, proxy := proxy } := ⟨rfl, hnative⟩
  have hstored : ({ a.setOccupant r.slot { i with anchor := anchor, proxy := proxy } with
        nextAnchor := if inUse then a.nextAnchor else a.nextAnchor + 1
        nextProxy := a.nextProxy + 1 } : Arena).Twin N
      { a'.setOccupant r.slot { i with native := x, anchor := anchor, proxy := proxy } with
        nextAnchor := if inUse then a.nextAnchor else a.nextAnchor + 1
        nextProxy := a.nextProxy + 1 } :=
    { ht.setOccupant hobject r.slot with nextAnchor_eq := rfl, nextProxy_eq := rfl }
  split
  · exact hstored.setConst _ true
  · exact hstored

theorem Twin.issue (ht : a.Twin N a') (held : List Handle) (r : Reference) (c : Constness) :
    Option.Rel (fun issued issued' => issued'.1 = issued.1 ∧ issued.2.Twin N issued'.2)
      (a.issue held r c) (a'.issue held r c) := by
  unfold Arena.issue
  cases hi : a.get? r with
  | none =>
      rw [ht.get?_eq_none hi]
      exact .none
  | some i =>
      obtain ⟨i', hi', htwin⟩ := ht.exists_get? hi
      rw [hi']
      simp only [htwin.kind_eq, htwin.proxy_eq, ht.isConst_eq]
      split
      · cases c with
        | const => exact .some ⟨rfl, ht⟩
        | nonConst => exact .some ⟨rfl, ht.setConst _ _⟩
        | keep => exact .some ⟨rfl, ht⟩
      · exact .some (ht.issueFresh held r htwin _)

theorem Twin.collectable_eq (ht : a.Twin N a') (held : List Handle) : a'.collectable held = a.collectable held := by
  have hslots := ht.forall₂_slots
  unfold collectable
  generalize a.slots.toList = ss, a'.slots.toList = ss' at hslots
  generalize 0 = number
  induction hslots generalizing number with
  | nil => rfl
  | @cons s s' ss ss' hs _ ih =>
      have hoccupant := hs.occupant
      have hgeneration := hs.generation_eq
      unfold collectableFrom
      generalize s.occupant = o, s'.occupant = o' at hoccupant
      cases hoccupant with
      | none => exact ih _
      | some hi => simp only [hi.keep_eq, hi.anchor_eq, hgeneration, ih]

/-! ## Handles in use -/

/-- Two lists of handles with the same proxies. -/
def SameProxies (held held' : List Handle) : Prop :=
  ∀ p : Proxy, (∃ h ∈ held', h.proxy = p) ↔ ∃ h ∈ held, h.proxy = p

section Held

variable {held held' : List Handle}

theorem SameProxies.append_left (hsame : SameProxies held held') (others : List Handle) :
    SameProxies (others ++ held) (others ++ held') := by
  intro p
  simp only [List.mem_append, or_and_right, exists_or, hsame p]

theorem SameProxies.any_eq (hsame : SameProxies held held') (f : Proxy → Bool) :
    (held'.any fun h => f h.proxy) = held.any fun h => f h.proxy := by
  rw [Bool.eq_iff_iff, List.any_eq_true, List.any_eq_true]
  constructor
  · rintro ⟨h, hh, hf⟩
    obtain ⟨k, hk, hkh⟩ := (hsame h.proxy).mp ⟨h, hh, rfl⟩
    exact ⟨k, hk, hkh ▸ hf⟩
  · rintro ⟨h, hh, hf⟩
    obtain ⟨k, hk, hkh⟩ := (hsame h.proxy).mpr ⟨h, hh, rfl⟩
    exact ⟨k, hk, hkh ▸ hf⟩

theorem SameProxies.anchorHeld_eq (hsame : SameProxies held held') : anchorHeld held' = anchorHeld held :=
  funext fun anchor => hsame.any_eq fun p => p.anchor.serial == anchor.serial

theorem SameProxies.proxyHeld_eq (hsame : SameProxies held held') : proxyHeld held' = proxyHeld held :=
  funext fun p => hsame.any_eq fun q => q.serial == p.serial

/-- Which handle is issued depends on the proxies in use. -/
theorem SameProxies.issue_eq (hsame : SameProxies held held') (a : Arena) : a.issue held' = a.issue held := by
  funext r c
  simp only [issue, issueFresh, hsame.anchorHeld_eq, hsame.proxyHeld_eq]

/-- Which objects are swept depends on the proxies in use. -/
theorem SameProxies.collectable_eq (hsame : SameProxies held held') (a : Arena) :
    a.collectable held' = a.collectable held := by
  unfold collectable
  generalize a.slots.toList = ss
  generalize 0 = number
  induction ss generalizing number with
  | nil => rfl
  | cons s rest ih => simp only [collectableFrom, hsame.anchorHeld_eq, ih]

end Held

/-! ## Steps that remove nothing -/

/-- A step of an arena that removes no object. -/
structure Spares (a b : Arena) : Prop where
  step : Step a b
  removals_eq : ∀ slot, (b.slotAt slot).removals = (a.slotAt slot).removals

variable {b : Arena}

theorem Spares.refl (a : Arena) : a.Spares a :=
  ⟨.contents rfl, fun _ => rfl⟩

theorem spares_register {new : NewInstance} (hreg : a.register new = .ok (h, b)) : a.Spares b :=
  ⟨.register new h hreg, removals_register hreg⟩

theorem spares_materialize {state : NativeState} (hmat : a.materialize r state = .ok b) : a.Spares b :=
  ⟨.materialize r state hmat, removals_materialize hmat⟩

theorem spares_setKeep {keep : Keep} {operation : String} (hkeep : a.setKeep h keep operation = .ok b) :
    a.Spares b :=
  ⟨.keep h keep operation hkeep, removals_setKeep hkeep⟩

theorem spares_issue {held : List Handle} {c : Constness} (hissue : a.issue held r c = some (h, b)) :
    a.Spares b :=
  ⟨.issue held r c h hissue, removals_issue hissue⟩

theorem spares_setConst (a : Arena) (p : Proxy) (isConst : Bool) : a.Spares (a.setConst p isConst) :=
  ⟨.flag p isConst, fun _ => rfl⟩

theorem spares_modify {f : Instance → Instance} (hf : ∀ i, a.get? r = some i → (f i).outline = i.outline) :
    a.Spares (a.modify r f) :=
  ⟨.contents (outline_modify hf), removals_modify a r f⟩

/-- Where nothing is removed, objects stay. -/
theorem Spares.isLive (hspares : a.Spares b) (hbal : a.Balanced) (hlive : a.isLive r = true) :
    b.isLive r = true := by
  obtain ⟨i, hi⟩ := isLive_iff.mp hlive
  obtain ⟨hgeneration, hoccupant⟩ := get?_eq_some_iff_slotAt.mp hi
  have hslot := hspares.step.slotStep hbal r.slot
  have hremovals := hspares.removals_eq r.slot
  -- No removal more is counted for the slot, so it is not emptied.
  have hleft : ∃ j, (b.slotAt r.slot).generation = r.generation ∧ (b.slotAt r.slot).occupant = some j := by
    generalize a.slotAt r.slot = s at hgeneration hoccupant hslot hremovals
    generalize b.slotAt r.slot = s' at hslot hremovals ⊢
    cases hslot with
    | same => exact ⟨i, hgeneration, hoccupant⟩
    | filled j hempty =>
        rw [hempty] at hoccupant
        cases hoccupant
    | changed _ j _ => exact ⟨j, hgeneration, rfl⟩
    | emptied j _ => exact absurd hremovals (Nat.succ_ne_self _)
  obtain ⟨j, hj⟩ := hleft
  exact isLive_iff.mpr ⟨j, get?_eq_some_iff_slotAt.mpr hj⟩

end Arena

end ObjectBridge
