import ObjectBridge.Proofs.Arena.Contents
import ObjectBridge.Proofs.Class.Renumber

/-!
# Objects with other numbers for boxes

Objects mention boxes in their native states, in their overrides and in their handlers.  Other numbers for these boxes
change nothing about the slots of the objects and the handles for them.

* `Arena.renumber` — the arena with other numbers for its boxes.
* `Arena.get?_renumber`, `register_renumber`, `materialize_renumber` and `issue_renumber` — every step does to the
  arena what it does to the one with other numbers.
* `Arena.renumber_eq_self` — an arena whose boxes keep their numbers.
-/

namespace ObjectBridge

variable {f : BoxId → BoxId}

/-- A native state with other numbers for its boxes. -/
def NativeState.renumber (f : BoxId → BoxId) (state : NativeState) : NativeState :=
  { state with fields := state.fields.map (Value.renumberEntry f) }

theorem NativeState.copy?_renumber (state : NativeState) :
    (state.renumber f).copy? = state.copy?.map (NativeState.renumber f) := by
  rw [copy?, copy?, renumber]
  split <;> rfl

namespace Instance

/-- An object with other numbers for its boxes. -/
def renumber (f : BoxId → BoxId) (i : Instance) : Instance :=
  { i with
    native := i.native.map (NativeState.renumber f)
    overrides := i.overrides.map (Overrides.renumber f)
    events := i.events.map fun e => (e.1, e.2.map (Callable.renumber f)) }

theorem isMaterialized_renumber (i : Instance) : (i.renumber f).isMaterialized = i.isMaterialized := by
  rw [isMaterialized, isMaterialized, renumber]
  exact Option.isSome_map

theorem copy?_renumber (i : Instance) :
    (i.renumber f).native.bind NativeState.copy? =
      (i.native.bind NativeState.copy?).map (NativeState.renumber f) := by
  rw [renumber]
  cases i.native with
  | none => rfl
  | some state => exact NativeState.copy?_renumber state

theorem heldValues_renumber (f : BoxId → BoxId) (i : Instance) :
    (i.renumber f).heldValues = i.heldValues.map (Value.renumber f) := by
  have hnative : ((i.native.map (NativeState.renumber f)).map fun state => Value.map state.fields).toList =
      (i.native.map fun state => Value.map state.fields).toList.map (Value.renumber f) := by
    cases i.native with
    | none => rfl
    | some state => simp [NativeState.renumber]
  have hoverrides : ((i.overrides.map (Overrides.renumber f)).map Overrides.values).getD [] =
      ((i.overrides.map Overrides.values).getD []).map (Value.renumber f) := by
    cases i.overrides with
    | none => rfl
    | some o => exact Overrides.values_renumber f o
  simp only [renumber, heldValues, hnative, hoverrides, List.map_append, List.flatMap_map, List.map_flatMap,
    Handlers.values, Callable.values_renumber]

theorem renumber_eq_self {i : Instance} (h : ∀ v ∈ i.heldValues, v.renumber f = v) : i.renumber f = i := by
  simp only [heldValues, List.mem_append, or_imp, forall_and] at h
  obtain ⟨⟨hnative, hoverrides⟩, hevents⟩ := h
  have hnative' : i.native.map (NativeState.renumber f) = i.native := by
    cases hfound : i.native with
    | none => rfl
    | some state =>
        have hfields := hnative (.map state.fields) (by simp [hfound])
        rw [Value.renumber_map, Value.map.injEq] at hfields
        rw [Option.map_some, NativeState.renumber, hfields]
  have hoverrides' : i.overrides.map (Overrides.renumber f) = i.overrides := by
    cases hfound : i.overrides with
    | none => rfl
    | some o => exact congrArg some (Overrides.renumber_eq_self fun v hv => hoverrides v (by simpa [hfound] using hv))
  have hevents' : (i.events.map fun e => (e.1, e.2.map (Callable.renumber f))) = i.events := by
    refine Value.map_eq_self fun e he => Prod.ext rfl (Value.map_eq_self fun g hg => ?_)
    refine Callable.renumber_eq_self fun v hv => hevents v (List.mem_flatMap.mpr ⟨e, he, ?_⟩)
    exact List.mem_flatMap.mpr ⟨g, hg, hv⟩
  rw [renumber, hnative', hoverrides', hevents']

end Instance

/-- A new object with other numbers for its boxes. -/
def NewInstance.renumber (f : BoxId → BoxId) (new : NewInstance) : NewInstance :=
  { new with
    native := new.native.map (NativeState.renumber f)
    overrides := new.overrides.map (Overrides.renumber f) }

/-- A slot with other numbers for the boxes of its occupant. -/
def Slot.renumber (f : BoxId → BoxId) (s : Slot) : Slot :=
  { s with occupant := s.occupant.map (Instance.renumber f) }

namespace Arena

/-- The arena with other numbers for its boxes. -/
def renumber (f : BoxId → BoxId) (a : Arena) : Arena :=
  { a with slots := a.slots.map (Slot.renumber f) }

variable {a : Arena} {r : Reference} {h : Handle}

theorem heldValues_renumber (f : BoxId → BoxId) (a : Arena) :
    (a.renumber f).heldValues = a.heldValues.map (Value.renumber f) := by
  rw [heldValues, heldValues, renumber, Array.toList_map, List.flatMap_map, List.map_flatMap]
  congr 1
  funext s
  cases hs : s.occupant with
  | none => simp [Slot.renumber, hs]
  | some i => simp [Slot.renumber, hs, Instance.heldValues_renumber]

theorem renumber_eq_self (hkept : ∀ v ∈ a.heldValues, v.renumber f = v) : a.renumber f = a := by
  have hslots : a.slots.map (Slot.renumber f) = a.slots := by
    refine Array.toList_inj.mp ?_
    rw [Array.toList_map]
    refine Value.map_eq_self fun s hs => ?_
    cases hfound : s.occupant with
    | none => rw [Slot.renumber, hfound, Option.map_none, ← hfound]
    | some i =>
        have hi : i.renumber f = i := by
          refine Instance.renumber_eq_self fun v hv => hkept v (List.mem_flatMap.mpr ⟨s, hs, ?_⟩)
          simpa only [hfound] using hv
        rw [Slot.renumber, hfound, Option.map_some, hi, ← hfound]
  rw [renumber, hslots]

theorem get?_renumber (r : Reference) : (a.renumber f).get? r = (a.get? r).map (Instance.renumber f) := by
  simp only [get?, renumber, Array.getElem?_map]
  cases a.slots[r.slot]? with
  | none => rfl
  | some s =>
      simp only [Option.map_some, Slot.renumber]
      split <;> rfl

theorem isDestroyed_renumber : (a.renumber f).isDestroyed h = a.isDestroyed h := by
  rw [isDestroyed, isDestroyed, isLive, isLive, get?_renumber, Option.isSome_map]

theorem resolve_renumber (operation : String) :
    (a.renumber f).resolve h operation = (a.resolve h operation).map (Instance.renumber f) := by
  rw [resolve, resolve, get?_renumber]
  cases a.get? h.target <;> rfl

theorem setOccupant_renumber (slot : Nat) (i : Instance) :
    (a.renumber f).setOccupant slot (i.renumber f) = (a.setOccupant slot i).renumber f := by
  simp only [setOccupant, renumber, Arena.mk.injEq, and_true]
  refine Array.ext_getElem? fun k => ?_
  simp only [Array.getElem?_modify, Array.getElem?_map]
  split <;> cases a.slots[k]? <;> rfl

theorem setConst_renumber (p : Proxy) (isConst : Bool) :
    (a.renumber f).setConst p isConst = (a.setConst p isConst).renumber f := rfl

theorem takeSlot_renumber :
    (a.renumber f).takeSlot = a.takeSlot.map fun taken => (taken.1, taken.2.renumber f) := by
  simp only [takeSlot, renumber, Array.size_map]
  split
  · rfl
  · split
    · simp [Except.map, Array.map_push, Slot.renumber]
    · rfl

/-- An object with other numbers is stored like the object itself. -/
theorem register_renumber (new : NewInstance) :
    (a.renumber f).register (new.renumber f) =
      (a.register new).map fun stored => (stored.1, stored.2.renumber f) := by
  rw [register, register, takeSlot_renumber]
  cases a.takeSlot with
  | error e => rfl
  | ok taken =>
      obtain ⟨slot, b⟩ := taken
      simp only [Except.map, bind, Except.bind]
      simp only [renumber, Array.getElem?_map]
      cases hslot : b.slots[slot]? with
      | none => rfl
      | some entry =>
          have hmade : (new.renumber f).native.isSome = new.native.isSome := Option.isSome_map
          have hstored := setOccupant_renumber (f := f) (a := b) slot
            (new.stored (b.firstHandle new ⟨slot, entry.generation⟩).proxy)
          rw [Option.map_some]
          simp only [hmade]
          exact congrArg (fun c : Arena => Except.ok (b.firstHandle new ⟨slot, entry.generation⟩,
            { c with
              counts := if new.native.isSome then b.countUp new.cls else b.counts, live := b.live + 1
              nextAnchor := b.nextAnchor + 1, nextProxy := b.nextProxy + 1 })) hstored

/-- A deferred object gets its native state with other numbers like the state itself. -/
theorem materialize_renumber (state : NativeState) :
    (a.renumber f).materialize r (state.renumber f) = (a.materialize r state).map (renumber f) := by
  rw [materialize, materialize, get?_renumber]
  cases a.get? r with
  | none => rfl
  | some i =>
      simp only [Option.map_some, Instance.isMaterialized_renumber]
      split
      · rfl
      · have hmade := setOccupant_renumber (f := f) (a := a) r.slot { i with native := some state }
        exact congrArg (fun c : Arena => Except.ok { c with counts := a.countUp i.cls }) hmade

/-! ## Handles -/

variable {held held' : List Handle}

theorem anchorHeld_congr (hheld : ∀ k, k ∈ held' ↔ k ∈ held) (anchor : Anchor) :
    anchorHeld held' anchor = anchorHeld held anchor := by
  refine Bool.eq_iff_iff.mpr ?_
  simp only [anchorHeld, List.any_eq_true, hheld]

theorem proxyHeld_congr (hheld : ∀ k, k ∈ held' ↔ k ∈ held) (p : Proxy) :
    proxyHeld held' p = proxyHeld held p := by
  refine Bool.eq_iff_iff.mpr ?_
  simp only [proxyHeld, List.any_eq_true, hheld]

theorem issueFresh_renumber (hheld : ∀ k, k ∈ held' ↔ k ∈ held) (i : Instance) (isConst : Bool) :
    (a.renumber f).issueFresh held' r (i.renumber f) isConst =
      ((a.issueFresh held r i isConst).1, (a.issueFresh held r i isConst).2.renumber f) := by
  have hanchor : anchorHeld held' (i.renumber f).anchor = anchorHeld held i.anchor := anchorHeld_congr hheld _
  simp only [issueFresh, hanchor]
  generalize hused : anchorHeld held i.anchor = inUse
  let anchor := if inUse then i.anchor else ⟨a.nextAnchor, r⟩
  let proxy : Proxy := ⟨a.nextProxy, anchor, i.cls, i.className⟩
  have hstored := congrArg
    (fun c : Arena => { c with
      nextAnchor := if inUse then a.nextAnchor else a.nextAnchor + 1, nextProxy := a.nextProxy + 1 })
    (setOccupant_renumber (f := f) (a := a) r.slot
      { i with anchor := anchor, proxy := if i.kind = .object then proxy else i.proxy })
  refine Prod.ext rfl ?_
  cases isConst with
  | true => exact congrArg (fun c : Arena => c.setConst proxy true) hstored
  | false => exact hstored

/-- A handle is issued for an object, whatever the numbers of boxes are. -/
theorem issue_renumber (hheld : ∀ k, k ∈ held' ↔ k ∈ held) (c : Constness) :
    (a.renumber f).issue held' r c = (a.issue held r c).map fun issued => (issued.1, issued.2.renumber f) := by
  rw [issue, issue, get?_renumber]
  cases a.get? r with
  | none => rfl
  | some i =>
      have hproxy : proxyHeld held' (i.renumber f).proxy = proxyHeld held i.proxy := proxyHeld_congr hheld _
      simp only [Option.map_some, hproxy]
      by_cases hsame : i.kind = .object ∧ proxyHeld held i.proxy = true
      · rw [if_pos hsame, if_pos (show (i.renumber f).kind = .object ∧ _ from hsame)]
        cases c <;> rfl
      · rw [if_neg hsame, if_neg (show ¬((i.renumber f).kind = .object ∧ _) from hsame), issueFresh_renumber hheld]
        rfl

end Arena

end ObjectBridge
