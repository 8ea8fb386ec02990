import ObjectBridge.Proofs.Arena.Steps

/-!
# The books of the arena balance

The arena keeps four records of what it holds: the slots themselves, the list of free slots, the number
of objects, and the number of objects with a native state of each class.  Every operation updates some of
them, and a deferred object enters the last one only when it gets its native state.

`Arena.Balanced` says that the other three records agree with the slots.  Every step preserves it
(`Balanced.step`), and it is what makes the subtractions and the lookup of a slot safe.
-/

namespace ObjectBridge

namespace Arena

/-- The test for objects of exactly a class that have a native state. -/
def counted (cls : ClassId) (i : Instance) : Bool :=
  i.cls == cls && i.isMaterialized

/-- The free list, the number of objects and the counts by class agree with the slots. -/
structure Balanced (a : Arena) : Prop where
  /-- No slot is listed as free twice. -/
  free_nodup : a.free.Nodup
  /-- The free slots are exactly the ones without an object. -/
  mem_free_iff : ∀ slot, slot ∈ a.free ↔ a.Vacant slot
  /-- The number of objects is the number of slots that hold one. -/
  live_eq : a.live = a.tally fun _ => true
  /-- The count of a class is the number of its objects with a native state. -/
  instanceCount_eq : ∀ cls, a.instanceCount cls = a.tally (counted cls)

/-- The arena without slots is balanced. -/
theorem balanced_empty : Balanced {} where
  free_nodup := List.nodup_nil
  mem_free_iff := by simp [Vacant]
  live_eq := rfl
  instanceCount_eq := fun _ => rfl

/-! ## Tallies -/

/-- The tally counts a slot that changes anew. -/
theorem tally_modify_add {a a' : Arena} {slot : Nat} {s : Slot} {f : Slot → Slot}
    (p : Instance → Bool) (hs : a.slots[slot]? = some s)
    (hslots : a'.slots = a.slots.modify slot f) :
    a'.tally p + (if s.occupant.any p then 1 else 0) =
      a.tally p + (if (f s).occupant.any p then 1 else 0) := by
  have hcount := countP_modify_add (fun t : Slot => t.occupant.any p) f a.slots.toList slot s
    (by simpa using hs)
  simpa only [tally, hslots, Array.toList_modify] using hcount

/-- A new empty slot is not counted. -/
theorem tally_push (a : Arena) (p : Instance → Bool) :
    ({ a with slots := a.slots.push {} } : Arena).tally p = a.tally p := by
  simp [tally, List.countP_append]

/-- A tally that looks at the outline alone is the same in every arena of the same outline. -/
theorem tally_of_outline_eq {a a' : Arena} (hsame : a'.outline = a.outline) {p : Instance → Bool}
    (hp : ∀ i, p i.outline = p i) : a'.tally p = a.tally p := by
  have houtline (b : Arena) : b.outline.tally p = b.tally p := by
    simp only [tally, outline, Array.toList_map, List.countP_map]
    apply List.countP_congr
    intro s _
    cases hocc : s.occupant <;> simp [Slot.outline, hocc, hp]
  rw [← houtline a', ← houtline a, hsame]

/-- An object that passes a test makes the tally positive. -/
theorem tally_pos {a : Arena} {r : Reference} {i : Instance} {p : Instance → Bool}
    (hi : a.get? r = some i) (hp : p i = true) : 0 < a.tally p := by
  obtain ⟨s, hs, -, hocc⟩ := get?_eq_some_iff.mp hi
  refine List.countP_pos_iff.mpr ⟨s, ?_, by simp [hocc, hp]⟩
  exact List.mem_of_getElem? (i := r.slot) (by simpa using hs)

/-! ## Counts by class -/

theorem instanceCount_countUp {a a' : Arena} {cls : ClassId} (hcounts : a'.counts = a.countUp cls)
    (other : ClassId) :
    a'.instanceCount other = a.instanceCount other + (if cls = other then 1 else 0) := by
  unfold instanceCount
  rw [hcounts]
  by_cases hcls : cls = other
  · subst hcls
    simp [countUp, lookup_put_self, instanceCount]
  · simp [countUp, lookup_put_of_ne (Ne.symm hcls), hcls]

theorem instanceCount_countDown {a a' : Arena} {cls : ClassId}
    (hcounts : a'.counts = a.countDown cls) (other : ClassId) :
    a'.instanceCount other = a.instanceCount other - (if cls = other then 1 else 0) := by
  unfold instanceCount
  rw [hcounts]
  by_cases hcls : cls = other
  · subst hcls
    simp [countDown, lookup_put_self, instanceCount]
  · simp [countDown, lookup_put_of_ne (Ne.symm hcls), hcls]

/-! ## Every step keeps the books balanced -/

/-- The slot that is taken for a new object is empty, and no longer listed as free. -/
theorem Balanced.takeSlot {a base : Arena} {slot : Nat} (hbal : a.Balanced)
    (htake : a.takeSlot = .ok (slot, base)) :
    base.Vacant slot ∧ base.free.Nodup ∧
      (∀ other, other ∈ base.free ↔ base.Vacant other ∧ other ≠ slot) ∧
      base.live = a.live ∧ base.counts = a.counts ∧ ∀ p, base.tally p = a.tally p := by
  rcases takeSlot_cases htake with ⟨rest, hfree, rfl⟩ | ⟨hfree, rfl, -, rfl⟩
  · -- The first free slot is taken.
    have hnodup : (slot :: rest).Nodup := hfree ▸ hbal.free_nodup
    have hmem (other : Nat) : other ∈ slot :: rest ↔ a.Vacant other := by
      rw [← hfree]
      exact hbal.mem_free_iff other
    obtain ⟨hnotMem, hnodupRest⟩ := List.nodup_cons.mp hnodup
    have hrest (other : Nat) : other ∈ rest ↔ a.Vacant other ∧ other ≠ slot := by
      rw [← hmem, List.mem_cons]
      constructor
      · intro hother
        exact ⟨Or.inr hother, fun heq => hnotMem (heq ▸ hother)⟩
      · rintro ⟨heq | hother, hne⟩
        · exact absurd heq hne
        · exact hother
    exact ⟨(hmem slot).mp List.mem_cons_self, hnodupRest, hrest, rfl, rfl, fun _ => rfl⟩
  · -- No slot is free, so an empty one is added and taken at once.
    have hfull (other : Nat) (hvacant : a.Vacant other) : False := by
      have hmem := (hbal.mem_free_iff other).mpr hvacant
      rw [hfree] at hmem
      cases hmem
    have honly (other : Nat) (hvacant : ({ a with slots := a.slots.push {} } : Arena).Vacant other) :
        other = a.slots.size := by
      obtain ⟨s, hs, hempty⟩ := hvacant
      rw [Array.getElem?_push] at hs
      split at hs
      · assumption
      · exact absurd ⟨s, hs, hempty⟩ (hfull other)
    have hmem (other : Nat) : other ∈ a.free ↔
        ({ a with slots := a.slots.push {} } : Arena).Vacant other ∧ other ≠ a.slots.size := by
      rw [hfree]
      constructor
      · intro hother
        cases hother
      · rintro ⟨hvacant, hne⟩
        exact absurd (honly other hvacant) hne
    exact ⟨⟨{}, by simp, rfl⟩, hbal.free_nodup, hmem, rfl, rfl, tally_push a⟩

theorem Balanced.register {a a' : Arena} {new : NewInstance} {h : Handle} (hbal : a.Balanced)
    (hreg : a.register new = .ok (h, a')) : a'.Balanced := by
  obtain ⟨slot, base, entry, htake, hentry, rfl, rfl⟩ := register_cases hreg
  obtain ⟨⟨s, hs, hempty⟩, hnodup, hmem, hlive, hcounts, htally⟩ := hbal.takeSlot htake
  obtain rfl : entry = s := Option.some.inj (hentry.symm.trans hs)
  have hslots : (base.admitted new ⟨slot, entry.generation⟩).slots =
      base.slots.modify slot fun s => { s with
        occupant := some (new.stored (base.firstHandle new ⟨slot, entry.generation⟩).proxy) } := rfl
  have hstored (p : Instance → Bool) := tally_modify_add p hentry hslots
  simp only [hempty, Option.any_none, Bool.false_eq_true, if_false, Nat.add_zero,
    Option.any_some, htally] at hstored
  have hvacant (other : Nat) : other ∈ base.free ↔
      (base.admitted new ⟨slot, entry.generation⟩).Vacant other := by
    rw [hmem]
    simp only [Vacant, admitted, slots_setOccupant, Array.getElem?_modify]
    by_cases hslot : slot = other
    · subst hslot
      simp [hentry]
    · simp [hslot, Ne.symm hslot]
  have hall : base.live + 1 =
      (base.admitted new ⟨slot, entry.generation⟩).tally fun _ => true := by
    rw [hstored, hlive, hbal.live_eq]
    rfl
  have hcls (cls : ClassId) : (base.admitted new ⟨slot, entry.generation⟩).instanceCount cls =
      (base.admitted new ⟨slot, entry.generation⟩).tally (counted cls) := by
    rw [hstored, ← hbal.instanceCount_eq cls]
    have hbase : base.instanceCount cls = a.instanceCount cls := by
      unfold instanceCount
      rw [hcounts]
    -- A deferred object is counted when it gets its native state, not now.
    cases hnative : new.native with
    | none =>
        have hsame : (base.admitted new ⟨slot, entry.generation⟩).counts = base.counts := by
          simp [admitted, hnative]
        have hcount : (base.admitted new ⟨slot, entry.generation⟩).instanceCount cls =
            base.instanceCount cls := by
          unfold instanceCount
          rw [hsame]
        simp [hcount, hbase, counted, NewInstance.stored, Instance.isMaterialized, hnative]
    | some state =>
        have hup : (base.admitted new ⟨slot, entry.generation⟩).counts = base.countUp new.cls := by
          simp [admitted, hnative]
        rw [instanceCount_countUp hup, hbase]
        simp [counted, NewInstance.stored, Instance.isMaterialized, hnative]
  exact ⟨hnodup, hvacant, hall, hcls⟩

/-- Replacing an object by another one of the same class keeps the free list and the number of
objects balanced, and the counts as far as they are adjusted. -/
theorem Balanced.setOccupant {a a' : Arena} {r : Reference} {i j : Instance} (hbal : a.Balanced)
    (hi : a.get? r = some i)
    (hslots : a'.slots = a.slots.modify r.slot fun s => { s with occupant := some j })
    (hfree : a'.free = a.free) (hlive : a'.live = a.live)
    (hcounts : ∀ cls, a'.instanceCount cls + (if counted cls i then 1 else 0) =
      a.instanceCount cls + (if counted cls j then 1 else 0)) : a'.Balanced := by
  obtain ⟨s, hs, -, hocc⟩ := get?_eq_some_iff.mp hi
  have hstored (p : Instance → Bool) := tally_modify_add p hs hslots
  simp only [hocc, Option.any_some] at hstored
  -- The slot stays occupied, so no slot becomes vacant or stops being so.
  have hvacant (slot : Nat) : slot ∈ a'.free ↔ a'.Vacant slot := by
    rw [hfree, hbal.mem_free_iff]
    simp only [Vacant, hslots, Array.getElem?_modify]
    by_cases hslot : r.slot = slot
    · subst hslot
      simp [hs, hocc]
    · simp [hslot]
  have hall : a'.live = a'.tally fun _ => true := by
    have hsame := hstored fun _ => true
    simp only [if_true, Nat.add_right_cancel_iff] at hsame
    rw [hlive, hbal.live_eq, hsame]
  have hcls (cls : ClassId) : a'.instanceCount cls = a'.tally (counted cls) := by
    have htally := hstored (counted cls)
    have hold := hbal.instanceCount_eq cls
    have hnew := hcounts cls
    omega
  exact ⟨hfree ▸ hbal.free_nodup, hvacant, hall, hcls⟩

theorem Balanced.materialize {a a' : Arena} {r : Reference} {state : NativeState}
    (hbal : a.Balanced) (hmat : a.materialize r state = .ok a') : a'.Balanced := by
  obtain ⟨i, hi, ⟨-, rfl⟩ | ⟨hdeferred, rfl⟩⟩ := materialize_cases hmat
  · exact hbal
  · refine hbal.setOccupant (j := { i with native := some state }) hi rfl rfl rfl fun cls => ?_
    have hbefore : counted cls i = false := by simp [counted, hdeferred]
    rw [instanceCount_countUp (a := a) rfl, hbefore]
    simp [counted, Instance.isMaterialized]

theorem Balanced.destroy {a a' : Arena} {r : Reference} {i : Instance} (hbal : a.Balanced)
    (hdes : a.destroy? r = some (i, a')) : a'.Balanced := by
  obtain ⟨hi, ha'⟩ := destroy?_cases hdes
  obtain ⟨s, hs, -, hocc⟩ := get?_eq_some_iff.mp hi
  have hfree : a'.free = r.slot :: a.free := by rw [ha']
  have hslots : a'.slots =
      a.slots.modify r.slot fun s => ⟨s.generation + 1, none, s.removals + 1⟩ := by rw [ha']
  have hstored (p : Instance → Bool) := tally_modify_add p hs hslots
  simp only [hocc, Option.any_some, Option.any_none, Bool.false_eq_true, if_false, Nat.add_zero]
    at hstored
  -- The slot was in use, so it was not in the list.
  have hnotFree : r.slot ∉ a.free := by
    rw [hbal.mem_free_iff]
    rintro ⟨t, ht, hempty⟩
    obtain rfl : t = s := Option.some.inj (ht.symm.trans hs)
    simp [hocc] at hempty
  have hnodup : a'.free.Nodup := by
    rw [hfree]
    exact List.nodup_cons.mpr ⟨hnotFree, hbal.free_nodup⟩
  have hvacant (slot : Nat) : slot ∈ a'.free ↔ a'.Vacant slot := by
    rw [hfree, List.mem_cons, hbal.mem_free_iff]
    simp only [Vacant, hslots, Array.getElem?_modify]
    by_cases hslot : r.slot = slot
    · subst hslot
      simp [hs]
    · simp [hslot, Ne.symm hslot]
  have hall : a'.live = a'.tally fun _ => true := by
    have hone := hstored fun _ => true
    simp only [if_true] at hone
    have hlive : a'.live = a.live - 1 := by rw [ha']
    rw [hlive, hbal.live_eq]
    omega
  have hcls (cls : ClassId) : a'.instanceCount cls = a'.tally (counted cls) := by
    have htally := hstored (counted cls)
    have hold := hbal.instanceCount_eq cls
    have hnew : a'.instanceCount cls =
        a.instanceCount cls - (if counted cls i then 1 else 0) := by
      cases hmat : i.isMaterialized with
      | true =>
          have hdown : a'.counts = a.countDown i.cls := by simp [ha', hmat]
          rw [instanceCount_countDown hdown]
          simp [counted, hmat]
      | false =>
          have hsame : a'.counts = a.counts := by simp [ha', hmat]
          simp [instanceCount, hsame, counted, hmat]
    omega
  exact ⟨hnodup, hvacant, hall, hcls⟩

theorem Balanced.issue {a a' : Arena} {held : List Handle} {r : Reference} {c : Constness}
    {h : Handle} (hbal : a.Balanced) (hissue : a.issue held r c = some (h, a')) : a'.Balanced := by
  obtain ⟨i, hi, ⟨-, -, -, serials, rfl⟩ | ⟨-, hfresh⟩⟩ := issue_cases hissue
  · exact ⟨hbal.free_nodup, hbal.mem_free_iff, hbal.live_eq, hbal.instanceCount_eq⟩
  · obtain ⟨anchor, next, serials, -, -, rfl⟩ := issueFresh_cases hfresh
    exact hbal.setOccupant hi rfl rfl rfl fun cls => rfl

theorem Balanced.of_outline_eq {a a' : Arena} (hbal : a.Balanced) (hsame : a'.outline = a.outline) :
    a'.Balanced := by
  obtain ⟨hfree, hcounts, hlive, -, -, -⟩ := fields_of_outline_eq hsame
  have hvacant (slot : Nat) : slot ∈ a'.free ↔ a'.Vacant slot := by
    rw [hfree, hbal.mem_free_iff]
    exact (vacant_iff_of_outline_eq hsame slot).symm
  have hall : a'.live = a'.tally fun _ => true := by
    rw [hlive, hbal.live_eq, tally_of_outline_eq hsame fun _ => rfl]
  have hcls (cls : ClassId) : a'.instanceCount cls = a'.tally (counted cls) := by
    rw [tally_of_outline_eq hsame fun i => by simp [counted], ← hbal.instanceCount_eq]
    simp [instanceCount, hcounts]
  exact ⟨hfree ▸ hbal.free_nodup, hvacant, hall, hcls⟩

/-- Every step keeps the books balanced. -/
theorem Balanced.step {a a' : Arena} (hstep : Step a a') (hbal : a.Balanced) : a'.Balanced := by
  cases hstep with
  | register new h hreg => exact hbal.register hreg
  | materialize r state hmat => exact hbal.materialize hmat
  | destroy r i hdes => exact hbal.destroy hdes
  | keep h keep operation hkeep =>
      obtain ⟨i, hi, rfl⟩ := setKeep_cases hkeep
      exact hbal.setOccupant (j := { i with keep := keep }) hi rfl rfl rfl fun cls => rfl
  | issue held r c h hissue => exact hbal.issue hissue
  | flag p isConst =>
      exact ⟨hbal.free_nodup, hbal.mem_free_iff, hbal.live_eq, hbal.instanceCount_eq⟩
  | contents hsame => exact hbal.of_outline_eq hsame

/-- The books stay balanced along any number of steps. -/
theorem Balanced.path {a a' : Arena} (hpath : Path a a') (hbal : a.Balanced) : a'.Balanced :=
  hpath.preserves (fun _ _ hstep hold => hold.step hstep) hbal

/-! ## What balanced books are good for -/

theorem Balanced.live_pos {a : Arena} {r : Reference} {i : Instance} (hbal : a.Balanced)
    (hi : a.get? r = some i) : 0 < a.live := by
  rw [hbal.live_eq]
  exact tally_pos hi rfl

theorem Balanced.instanceCount_pos {a : Arena} {r : Reference} {i : Instance} (hbal : a.Balanced)
    (hi : a.get? r = some i) (hmat : i.isMaterialized = true) : 0 < a.instanceCount i.cls := by
  rw [hbal.instanceCount_eq]
  exact tally_pos hi (by simp [counted, hmat])

/-- The counts add up to the number of objects at most. -/
theorem Balanced.instanceCount_le {a : Arena} (hbal : a.Balanced) (cls : ClassId) :
    a.instanceCount cls ≤ a.live := by
  rw [hbal.instanceCount_eq, hbal.live_eq]
  refine List.countP_mono_left ?_
  intro s _ hs
  cases hocc : s.occupant with
  | none => simp [hocc] at hs
  | some i => rfl

/-- Where the number of objects is not zero, there is an object. -/
theorem Balanced.exists_get? {a : Arena} (hbal : a.Balanced) (hlive : a.live ≠ 0) :
    ∃ r i, a.get? r = some i := by
  rw [hbal.live_eq] at hlive
  obtain ⟨s, hs, hocc⟩ := List.countP_pos_iff.mp (Nat.pos_of_ne_zero hlive)
  obtain ⟨i, hi, -⟩ := (Option.any_eq_true _ _).mp hocc
  obtain ⟨slot, hslot⟩ := List.mem_iff_getElem?.mp hs
  rw [Array.getElem?_toList] at hslot
  exact ⟨⟨slot, s.generation⟩, i, get?_eq_some_iff.mpr ⟨s, hslot, rfl, hi⟩⟩

/-- A registration finds the slot that it took. -/
theorem Balanced.register_ne_outOfRange {a : Arena} (hbal : a.Balanced) (new : NewInstance) :
    a.register new ≠ .error (.native "instance slot out of range") := by
  unfold Arena.register
  cases htake : a.takeSlot with
  | error e =>
      -- Where no slot can be taken, the registration fails with another error.
      have hoverflow : e = .native "instance table overflow" := by
        unfold Arena.takeSlot at htake
        split at htake
        · simp at htake
        · simp only at htake
          split at htake <;> simp at htake
          exact htake.symm
      simp [hoverflow, bind, Except.bind]
  | ok taken =>
      obtain ⟨slot, base⟩ := taken
      obtain ⟨⟨s, hs, -⟩, -⟩ := hbal.takeSlot htake
      simp [bind, Except.bind, pure, Except.pure, hs]

/-- A registration takes a slot that is not in use. -/
theorem Balanced.not_occupied_of_register {a a' : Arena} {new : NewInstance} {h : Handle}
    (hbal : a.Balanced) (hreg : a.register new = .ok (h, a')) : ¬a.Occupied h.target.slot := by
  obtain ⟨slot, base, entry, htake, -, rfl, -⟩ := register_cases hreg
  rintro ⟨s, i, hs, hocc⟩
  rcases takeSlot_cases htake with ⟨rest, hfree, -⟩ | ⟨-, hsize, -, -⟩
  · obtain ⟨t, ht, hempty⟩ := (hbal.mem_free_iff slot).mp (by simp [hfree])
    obtain rfl : s = t := Option.some.inj (hs.symm.trans ht)
    simp [hocc] at hempty
  · obtain ⟨hlt, -⟩ := Array.getElem?_eq_some_iff.mp hs
    exact absurd hlt (by simp [firstHandle, Handle.target, hsize])

end Arena

end ObjectBridge
