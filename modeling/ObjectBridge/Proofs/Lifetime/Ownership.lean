import ObjectBridge.Proofs.Arena.Sharing
import ObjectBridge.Proofs.Lifetime.Passes
import ObjectBridge.Proofs.Run.Conserves
import ObjectBridge.Proofs.Value.Coverage

/-!
# Objects that hold handles of other objects

When objects are removed, the handles go that nothing else holds.  These were held by what the objects alone
held: their native states and handlers.  Their overrides stay in use with the classes.

* `State.Owns` — an object holds a handle of another one.
* `State.exists_owner` — a handle that goes with some objects was held by one of them.
* `State.Chain` — managed objects each of which owns the next one.
-/

namespace ObjectBridge

/-- The values that the native state of an object and its handlers hold. -/
def Instance.ownValues (i : Instance) : List Value :=
  (i.native.map fun state => Value.map state.fields).toList ++
    i.events.flatMap fun entry => entry.2.values

theorem Instance.mem_heldValues_iff_own {i : Instance} {v : Value} :
    v ∈ i.heldValues ↔ v ∈ i.ownValues ∨ ∃ o, i.overrides = some o ∧ v ∈ o.values := by
  cases hoverrides : i.overrides with
  | none => simp [heldValues, ownValues, hoverrides]
  | some o =>
      simp only [heldValues, ownValues, hoverrides, Option.map_some, Option.getD_some,
        List.mem_append, Option.some.injEq, exists_eq_left']
      tauto

namespace State

/-- An object is there, and sweeps may remove it. -/
def Managed (s : State) (r : Reference) : Prop :=
  ∃ i, s.arena.get? r = some i ∧ i.keep = .managed

/-- The native state or a handler of an object leads to a value. -/
def Holds (s : State) (q : Reference) (v : Value) : Prop :=
  ∃ i, s.arena.get? q = some i ∧ s.cells.Leads i.ownValues v

/-- An object holds a handle of another one. -/
def Owns (s : State) (q r : Reference) : Prop :=
  ∃ h, s.Holds q (.object h) ∧ h.target = r

/-- A chain of managed objects each of which owns the next one, with its length and its last object. -/
inductive Chain (s : State) : Nat → Reference → Prop
  | single {r : Reference} (hr : s.Managed r) : Chain s 1 r
  | snoc {n : Nat} {q r : Reference} (hq : Chain s n q) (howns : s.Owns q r) (hr : s.Managed r) :
      Chain s (n + 1) r

variable {s : State} {rs : List Reference} {q r : Reference} {h : Handle}

/-! ## Fewer objects -/

theorem managed_without_iff : (s.without rs).Managed r ↔ r ∉ rs ∧ s.Managed r := by
  constructor
  · rintro ⟨i, hi, hkeep⟩
    obtain ⟨hr, hi⟩ := Arena.get?_without_eq_some_iff.mp hi
    exact ⟨hr, i, hi, hkeep⟩
  · rintro ⟨hr, i, hi, hkeep⟩
    exact ⟨i, Arena.get?_without_eq_some_iff.mpr ⟨hr, hi⟩, hkeep⟩

theorem holds_without_iff {v : Value} : (s.without rs).Holds q v ↔ q ∉ rs ∧ s.Holds q v := by
  constructor
  · rintro ⟨i, hi, hleads⟩
    obtain ⟨hq, hi⟩ := Arena.get?_without_eq_some_iff.mp hi
    exact ⟨hq, i, hi, hleads⟩
  · rintro ⟨hq, i, hi, hleads⟩
    exact ⟨i, Arena.get?_without_eq_some_iff.mpr ⟨hq, hi⟩, hleads⟩

theorem owns_without_iff : (s.without rs).Owns q r ↔ q ∉ rs ∧ s.Owns q r := by
  simp only [Owns, holds_without_iff]
  constructor
  · rintro ⟨h, ⟨hq, hholds⟩, htarget⟩
    exact ⟨hq, h, hholds, htarget⟩
  · rintro ⟨hq, h, hholds, htarget⟩
    exact ⟨h, ⟨hq, hholds⟩, htarget⟩

theorem mem_inUse_of_without {v : Value} (hv : v ∈ (s.without rs).inUse []) : v ∈ s.inUse [] := by
  rcases mem_inUse_iff.mp hv with hv | hv | hv
  · exact absurd hv List.not_mem_nil
  · exact mem_inUse_of_mem_roots (s := s) hv []
  · refine mem_inUse_of_mem_heldValues (s := s) ?_ []
    rcases List.mem_append.mp hv with hv | hv
    · exact List.mem_append_left _ hv
    · exact List.mem_append_right _ (Arena.mem_heldValues_without hv)

/-- With objects handles may go, but none comes up. -/
theorem mem_handles_of_without (hh : h ∈ (s.without rs).handles) : h ∈ s.handles :=
  Cells.mem_handlesInUse_mono (fun _ hv => mem_inUse_of_without hv) hh

/-! ## Owners -/

/-- What an object leads to is in use. -/
theorem Owns.exists_handle (howns : s.Owns q r) : ∃ k ∈ s.handles, k.target = r := by
  obtain ⟨h, ⟨i, hi, hleads⟩, rfl⟩ := howns
  have hsub : ∀ v ∈ i.ownValues, v ∈ s.inUse [] := by
    intro v hv
    exact mem_inUse_of_mem_heldValues (List.mem_append_right _ (Arena.mem_heldValues_of_get? hi
      (Instance.mem_heldValues_iff_own.mpr (Or.inl hv)))) []
  obtain ⟨k, hk, hproxy⟩ := Cells.covers_object_iff.mp (hleads.covers hsub)
  exact ⟨k, hk, congrArg (fun p : Proxy => p.anchor.target) hproxy⟩

/-- The values in use are in use without some objects, or they are the own ones of these. -/
theorem mem_inUse_without_or_own (hshared : (s.custody []).Shared) {v : Value}
    (hv : v ∈ s.inUse []) :
    v ∈ (s.without rs).inUse [] ∨ ∃ q ∈ rs, ∃ i, s.arena.get? q = some i ∧ v ∈ i.ownValues := by
  rcases mem_inUse_iff.mp hv with hv | hv | hv
  · exact absurd hv List.not_mem_nil
  · exact Or.inl (mem_inUse_of_mem_roots (s := s.without rs) hv [])
  · rcases List.mem_append.mp hv with hv | hv
    · exact Or.inl (mem_inUse_of_mem_heldValues (s := s.without rs) (List.mem_append_left _ hv) [])
    · obtain ⟨q, i, hi, hv⟩ := Arena.exists_get?_of_mem_heldValues hv
      by_cases hq : q ∈ rs
      · rcases Instance.mem_heldValues_iff_own.mp hv with hv | ⟨o, ho, hv⟩
        · exact Or.inr ⟨q, hq, i, hi, hv⟩
        · -- The class still has the overrides.
          have hclass := ClassTable.mem_heldValues_of_mem_allOverrides (hshared q i o hi ho) hv
          exact Or.inl (mem_inUse_of_mem_heldValues (s := s.without rs)
            (List.mem_append_left _ hclass) [])
      · have hi' := Arena.get?_without_eq_some_iff.mpr ⟨hq, hi⟩
        exact Or.inl (mem_inUse_of_mem_heldValues (s := s.without rs)
          (List.mem_append_right _ (Arena.mem_heldValues_of_get? hi' hv)) [])

/-- A handle that goes with some objects was held by one of them. -/
theorem exists_owner (hshared : (s.custody []).Shared) (hh : h ∈ s.handles)
    (hgone : h ∉ (s.without rs).handles) : ∃ q ∈ rs, s.Holds q (.object h) := by
  -- What was in use is in use still, or one of the removed objects held it.
  have hsplit : ∀ v ∈ s.inUse [], v ∈ (s.without rs).inUse [] ∨
      v ∈ (rs.flatMap fun q => ((s.arena.get? q).map Instance.ownValues).getD []) := by
    intro v hv
    rcases mem_inUse_without_or_own hshared hv with hv | ⟨q, hq, i, hi, hv⟩
    · exact Or.inl hv
    · exact Or.inr (List.mem_flatMap.mpr ⟨q, hq, by simpa [hi] using hv⟩)
  rcases Cells.mem_handles_or_leads hsplit hh with hkept | hleads
  · exact absurd hkept hgone
  · obtain ⟨u, hu, hleads⟩ := hleads.exists_mem
    obtain ⟨q, hq, hu⟩ := List.mem_flatMap.mp hu
    cases hi : s.arena.get? q with
    | none => simp [hi] at hu
    | some i =>
        refine ⟨q, hq, i, hi, hleads.mono ?_⟩
        intro w hw
        obtain rfl := List.mem_singleton.mp hw
        simpa [hi] using hu

/-! ## What is held by objects alone -/

/-- A state without its objects. -/
def outside (s : State) : State :=
  { s with arena := {} }

/-- References to all objects. -/
def population (s : State) : List Reference :=
  (List.range s.arena.slots.size).map fun slot => ⟨slot, (s.arena.slotAt slot).generation⟩

theorem mem_population {i : Instance} (hi : s.arena.get? r = some i) : r ∈ s.population := by
  obtain ⟨entry, hentry, hgen, -⟩ := Arena.get?_eq_some_iff.mp hi
  obtain ⟨hlt, -⟩ := Array.getElem?_eq_some_iff.mp hentry
  refine List.mem_map.mpr ⟨r.slot, List.mem_range.mpr hlt, ?_⟩
  rw [Arena.slotAt_eq hentry, hgen]

/-- If no handle is held outside of the objects, an object holds each. -/
theorem exists_owner_of_outside (hshared : (s.custody []).Shared)
    (hout : ∀ h, h ∉ s.outside.handles) (hh : h ∈ s.handles) : ∃ q, s.Holds q (.object h) := by
  have hgone : h ∉ (s.without s.population).handles := by
    intro hkept
    -- When every object is gone, only what is outside of the objects is in use.
    have hsub : ∀ v ∈ (s.without s.population).inUse [], v ∈ s.outside.inUse [] := by
      intro v hv
      rcases mem_inUse_iff.mp hv with hv | hv | hv
      · exact absurd hv List.not_mem_nil
      · exact mem_inUse_of_mem_roots (s := s.outside) hv []
      rcases List.mem_append.mp hv with hv | hv
      · exact mem_inUse_of_mem_heldValues (s := s.outside) (List.mem_append_left _ hv) []
      · obtain ⟨q, i, hi, -⟩ := Arena.exists_get?_of_mem_heldValues hv
        obtain ⟨hq, hi⟩ := Arena.get?_without_eq_some_iff.mp hi
        exact absurd (mem_population hi) hq
    exact hout h (Cells.mem_handlesInUse_mono hsub hkept)
  obtain ⟨q, -, hholds⟩ := exists_owner hshared hh hgone
  exact ⟨q, hholds⟩

end State

end ObjectBridge
