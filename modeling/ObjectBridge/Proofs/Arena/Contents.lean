import ObjectBridge.Proofs.Arena.Generations

/-!
# What the objects of an arena hold

The values that an arena holds are those of its objects.  An operation adds the values of the object or
the native state that it stores, and no others.

* `mem_heldValues_iff` — a value is held by the arena if an object in some slot holds it.
* `mem_heldValues_register` and its companions — what is held after an operation.
-/

namespace ObjectBridge

/-- The values that a new object brings along. -/
def NewInstance.values (new : NewInstance) : List Value :=
  (new.native.map fun state => Value.map state.fields).toList ++
    (new.overrides.map Overrides.values).getD []

theorem Instance.mem_heldValues_iff {i : Instance} {v : Value} :
    v ∈ i.heldValues ↔
      (∃ state, i.native = some state ∧ v = .map state.fields) ∨
        (∃ o, i.overrides = some o ∧ v ∈ o.values) ∨
          ∃ event hs, (event, hs) ∈ i.events ∧ v ∈ hs.values := by
  cases hnative : i.native <;> cases hoverrides : i.overrides <;>
    simp [Instance.heldValues, hnative, hoverrides]

/-- The copy of a native state is that state. -/
theorem Instance.native_eq_of_copy? {i : Instance} {copy : NativeState}
    (h : i.native.bind NativeState.copy? = some copy) : i.native = some copy := by
  obtain ⟨state, hstate, hcopy⟩ := Option.bind_eq_some_iff.mp h
  unfold NativeState.copy? at hcopy
  split at hcopy
  · exact hstate.trans hcopy
  · cases hcopy

/-- A new object with the native state and the overrides of another one brings nothing else along. -/
theorem Instance.mem_heldValues_of_new {i : Instance} {new : NewInstance} {v : Value}
    (hnative : new.native = i.native) (hoverrides : new.overrides = i.overrides) (hv : v ∈ new.values) :
    v ∈ i.heldValues := by
  rw [NewInstance.values, hnative, hoverrides] at hv
  exact List.mem_append_left _ hv

/-- Setting handlers adds what they captured. -/
theorem Instance.mem_heldValues_setHandlers {i : Instance} {event : String} {hs : Handlers}
    {v : Value} (hv : v ∈ (i.setHandlers event hs).heldValues) :
    v ∈ hs.values ∨ v ∈ i.heldValues := by
  rcases mem_heldValues_iff.mp hv with hv | hv | ⟨event', hs', hentry, hv⟩
  · exact Or.inr (mem_heldValues_iff.mpr (Or.inl hv))
  · exact Or.inr (mem_heldValues_iff.mpr (Or.inr (Or.inl hv)))
  · rcases mem_put hentry with hnew | hentry
    · rw [show hs' = hs from hnew] at hv
      exact Or.inl hv
    · exact Or.inr (mem_heldValues_iff.mpr (Or.inr (Or.inr ⟨event', hs', hentry, hv⟩)))

namespace Arena

theorem mem_heldValues_iff {a : Arena} {v : Value} :
    v ∈ a.heldValues ↔ ∃ slot i, (a.slotAt slot).occupant = some i ∧ v ∈ i.heldValues := by
  rw [heldValues, List.mem_flatMap]
  constructor
  · rintro ⟨s, hs, hv⟩
    obtain ⟨slot, hslot⟩ := List.mem_iff_getElem?.mp hs
    rw [Array.getElem?_toList] at hslot
    cases hocc : s.occupant with
    | none => simp [hocc] at hv
    | some i =>
        refine ⟨slot, i, by rw [slotAt_eq hslot, hocc], ?_⟩
        simpa [hocc] using hv
  · rintro ⟨slot, i, hocc, hv⟩
    cases hslot : a.slots[slot]? with
    | none => simp [slotAt, hslot] at hocc
    | some s =>
        rw [slotAt_eq hslot] at hocc
        refine ⟨s, ?_, by simpa [hocc] using hv⟩
        rw [← Array.getElem?_toList] at hslot
        exact List.mem_of_getElem? hslot

/-- An object that is there holds its values in the arena. -/
theorem mem_heldValues_of_get? {a : Arena} {r : Reference} {i : Instance} (hi : a.get? r = some i)
    {v : Value} (hv : v ∈ i.heldValues) : v ∈ a.heldValues :=
  mem_heldValues_iff.mpr ⟨r.slot, i, (get?_eq_some_iff_slotAt.mp hi).2, hv⟩

/-- What the arena holds is held by an object that is there. -/
theorem exists_get?_of_mem_heldValues {a : Arena} {v : Value} (hv : v ∈ a.heldValues) :
    ∃ r i, a.get? r = some i ∧ v ∈ i.heldValues := by
  obtain ⟨slot, i, hocc, hv⟩ := mem_heldValues_iff.mp hv
  exact ⟨⟨slot, (a.slotAt slot).generation⟩, i, get?_eq_some_iff_slotAt.mpr ⟨rfl, hocc⟩, hv⟩

theorem mem_heldValues_setOccupant {a b : Arena} {r : Reference} {i j : Instance}
    (hi : a.get? r = some i) (hslots : b.slots = (a.setOccupant r.slot j).slots) {v : Value}
    (hv : v ∈ b.heldValues) : v ∈ j.heldValues ∨ v ∈ a.heldValues := by
  obtain ⟨slot, k, hocc, hv⟩ := mem_heldValues_iff.mp hv
  have hsame : b.slotAt slot = (a.setOccupant r.slot j).slotAt slot := by
    rw [slotAt, slotAt, hslots]
  rw [hsame, slotAt_setOccupant hi] at hocc
  by_cases hslot : r.slot = slot
  · simp only [hslot, if_true, Option.some.injEq] at hocc
    subst hocc
    exact Or.inl hv
  · rw [if_neg hslot] at hocc
    exact Or.inr (mem_heldValues_iff.mpr ⟨slot, k, hocc, hv⟩)

theorem mem_heldValues_register {a a' : Arena} {new : NewInstance} {h : Handle}
    (hreg : a.register new = .ok (h, a')) {v : Value} (hv : v ∈ a'.heldValues) :
    v ∈ new.values ∨ v ∈ a.heldValues := by
  obtain ⟨taken, base, entry, htake, hentry, -, rfl⟩ := register_cases hreg
  obtain ⟨slot, k, hocc, hv⟩ := mem_heldValues_iff.mp hv
  rw [slotAt_admitted hentry, slotAt_takeSlot htake] at hocc
  by_cases hslot : taken = slot
  · simp only [hslot, if_true, Option.some.injEq] at hocc
    subst hocc
    refine Or.inl ?_
    simpa [Instance.heldValues, NewInstance.stored, NewInstance.values] using hv
  · rw [if_neg hslot] at hocc
    exact Or.inr (mem_heldValues_iff.mpr ⟨slot, k, hocc, hv⟩)

theorem mem_heldValues_materialize {a a' : Arena} {r : Reference} {state : NativeState}
    (hmat : a.materialize r state = .ok a') {v : Value} (hv : v ∈ a'.heldValues) :
    v = .map state.fields ∨ v ∈ a.heldValues := by
  obtain ⟨i, hi, ⟨-, rfl⟩ | ⟨-, rfl⟩⟩ := materialize_cases hmat
  · exact Or.inr hv
  · rcases mem_heldValues_setOccupant hi rfl hv with hv | hv
    · rw [Instance.mem_heldValues_iff] at hv
      rcases hv with ⟨state', hstate, rfl⟩ | hv
      · rw [Option.some.injEq] at hstate
        exact Or.inl (by rw [hstate])
      · exact Or.inr (mem_heldValues_of_get? hi (Instance.mem_heldValues_iff.mpr (Or.inr hv)))
    · exact Or.inr hv

theorem mem_heldValues_destroy? {a a' : Arena} {r : Reference} {i : Instance}
    (hdes : a.destroy? r = some (i, a')) {v : Value} (hv : v ∈ a'.heldValues) :
    v ∈ a.heldValues := by
  obtain ⟨slot, k, hocc, hv⟩ := mem_heldValues_iff.mp hv
  rw [slotAt_destroy? hdes] at hocc
  by_cases hslot : r.slot = slot
  · simp [hslot] at hocc
  · rw [if_neg hslot] at hocc
    exact mem_heldValues_iff.mpr ⟨slot, k, hocc, hv⟩

theorem mem_heldValues_setKeep {a a' : Arena} {h : Handle} {keep : Keep} {operation : String}
    (hkeep : a.setKeep h keep operation = .ok a') {v : Value} (hv : v ∈ a'.heldValues) :
    v ∈ a.heldValues := by
  obtain ⟨i, hi, rfl⟩ := setKeep_cases hkeep
  rcases mem_heldValues_setOccupant hi rfl hv with hv | hv
  · exact mem_heldValues_of_get? hi hv
  · exact hv

theorem mem_heldValues_issue {a a' : Arena} {held : List Handle} {r : Reference} {c : Constness}
    {h : Handle} (hissue : a.issue held r c = some (h, a')) {v : Value} (hv : v ∈ a'.heldValues) :
    v ∈ a.heldValues := by
  obtain ⟨i, hi, ⟨-, -, -, serials, rfl⟩ | ⟨-, hfresh⟩⟩ := issue_cases hissue
  · exact hv
  · obtain ⟨anchor, next, serials, -, -, rfl⟩ := issueFresh_cases hfresh
    rcases mem_heldValues_setOccupant hi rfl hv with hv | hv
    · exact mem_heldValues_of_get? hi hv
    · exact hv

theorem mem_heldValues_modify {a : Arena} {r : Reference} {f : Instance → Instance} {v : Value}
    (hv : v ∈ (a.modify r f).heldValues) :
    (∃ i, a.get? r = some i ∧ v ∈ (f i).heldValues) ∨ v ∈ a.heldValues := by
  rcases modify_eq a r f with ⟨i, hi, heq⟩ | ⟨-, heq⟩
  · rw [heq] at hv
    rcases mem_heldValues_setOccupant hi rfl hv with hv | hv
    · exact Or.inl ⟨i, hi, hv⟩
    · exact Or.inr hv
  · rw [heq] at hv
    exact Or.inr hv

theorem mem_heldValues_setNative {a : Arena} {r : Reference} {state : NativeState} {v : Value}
    (hv : v ∈ (a.setNative r state).heldValues) : v = .map state.fields ∨ v ∈ a.heldValues := by
  rcases mem_heldValues_modify hv with ⟨i, hi, hv⟩ | hv
  · rcases Instance.mem_heldValues_iff.mp hv with ⟨state', hstate, rfl⟩ | hv
    · rw [Option.some.injEq] at hstate
      exact Or.inl (by rw [hstate])
    · exact Or.inr (mem_heldValues_of_get? hi (Instance.mem_heldValues_iff.mpr (Or.inr hv)))
  · exact Or.inr hv

end Arena

end ObjectBridge
