import ObjectBridge.Proofs.Lifetime.Sweep
import ObjectBridge.Proofs.Run.Occurrence
import ObjectBridge.Proofs.Session.Reachable

/-!
# Sweeps spare what is held, and leave little else

At every moment of a session the list of the arena names the managed objects to which no handle exists, and
a sweep removes an object only if all its handles went with objects that it removed before.  A sweep goes on for a
limited number of passes.  What it leaves although nothing holds it any more hangs on a chain of objects that is
longer than that.

* `Lifetime.Swept` — what a sweep may do.
* `Session.Reachable.collectable_iff` — the list of the arena.
* `Session.Reachable.swept` — a sweep that is asked for.
* `Session.Reachable.swept_of_count` — a sweep that a construction starts.
* `Session.Reachable.spares_held` — all of it together.
* `Session.Reachable.reclaim_leaves` — what is left is the last object of a long chain, and the last object
  of a long chain is left.
-/

namespace ObjectBridge

namespace Lifetime

/-- A sweep has removed some objects, in this order. -/
structure Swept (s t : State) (gone : List Reference) : Prop where
  /-- It has changed nothing but the objects and the number of constructions. -/
  eq_without : t = { s.without gone with constructions := 0 }
  /-- The objects are no longer there, and all others are as they were. -/
  get?_eq : ∀ r, t.arena.get? r = if r ∈ gone then none else s.arena.get? r
  live_eq : s.arena.live = t.arena.live + gone.length
  managed : ∀ r ∈ gone, s.Managed r
  /-- When an object was removed, no handle of it existed any more. -/
  unheld : ∀ earlier r later, gone = earlier ++ r :: later →
    ∀ h, (s.without earlier).Occurs (.object h) → h.target ≠ r
  /-- Every handle of it had been held by the native state or a handler of an object removed before. -/
  held_before : ∀ earlier r later, gone = earlier ++ r :: later →
    ∀ h, s.Occurs (.object h) → h.target = r → ∃ q ∈ earlier, s.Holds q (.object h)
  /-- An object that is not managed, or of which a handle still exists, is there as it was. -/
  kept : ∀ r i, s.arena.get? r = some i →
    i.keep = .unmanaged ∨ (∃ h, t.Occurs (.object h) ∧ h.target = r) → t.arena.get? r = some i

variable {s : State}

/-- The number of constructions plays no role for the handles. -/
theorem Swept.of_constructions {t : State} {n : Nat} {gone : List Reference}
    (hswept : Swept { s with constructions := n } t gone) : Swept s t gone := by
  have hoccurs (rs : List Reference) {h : Handle} (hh : (s.without rs).Occurs (.object h)) :
      (({ s with constructions := n } : State).without rs).Occurs (.object h) := by
    have hmem := State.occurs_object_iff.mp hh
    exact State.occurs_object_iff.mpr hmem
  refine ⟨hswept.eq_without, hswept.get?_eq, hswept.live_eq, hswept.managed, ?_, ?_, hswept.kept⟩
  · intro earlier r later hsplit h hh
    exact hswept.unheld earlier r later hsplit h (hoccurs earlier hh)
  · intro earlier r later hsplit h hh
    exact hswept.held_before earlier r later hsplit h (hoccurs [] hh)

/-- When a sweep comes to an object, no handle of it is left. -/
theorem target_ne_of_split (hsound : (s.custody []).Sound) {gone : List Reference}
    (hlisted : ∀ earlier r later, gone = earlier ++ r :: later →
      ∃ before, before <+: earlier ∧ r ∈ (s.without before).collectable)
    {earlier later : List Reference} {r : Reference} (hsplit : gone = earlier ++ r :: later) :
    s.Managed r ∧ ∀ h ∈ (s.without earlier).handles, h.target ≠ r := by
  obtain ⟨before, ⟨between, rfl⟩, hr⟩ := hlisted earlier r later hsplit
  obtain ⟨hmanaged, hfree⟩ := (State.mem_collectable_without_iff hsound).mp hr
  refine ⟨(State.managed_without_iff.mp hmanaged).2, ?_⟩
  intro h hh
  rw [State.without_append] at hh
  exact hfree h (State.mem_handles_of_without hh)

theorem exists_swept (hsound : (s.custody []).Sound) (hshared : (s.custody []).Shared)
    (passes : Nat) :
    ∃ gone, (sweep passes s 0).2 = gone.length ∧
      Swept s { (sweep passes s 0).1 with constructions := 0 } gone := by
  obtain ⟨gone, hsweep, hnodup, hlisted⟩ := sweep_spec passes s 0
  have hmoment {earlier later : List Reference} {r : Reference}
      (hsplit : gone = earlier ++ r :: later) := target_ne_of_split hsound hlisted hsplit
  have hmanaged : ∀ r ∈ gone, s.Managed r := by
    intro r hr
    obtain ⟨earlier, later, hsplit⟩ := List.append_of_mem hr
    exact (hmoment hsplit).1
  have hlive : ∀ r ∈ gone, s.arena.isLive r = true := by
    intro r hr
    obtain ⟨i, hi, -⟩ := hmanaged r hr
    exact Arena.isLive_iff.mpr ⟨i, hi⟩
  rw [hsweep]
  refine ⟨gone, Nat.zero_add _, rfl, Arena.get?_without s.arena gone,
    Arena.live_without hsound.balanced hlive hnodup, hmanaged, ?_, ?_, ?_⟩
  · intro earlier r later hsplit h hh
    exact (hmoment hsplit).2 h (State.occurs_object_iff.mp hh)
  · intro earlier r later hsplit h hh htarget
    exact State.exists_owner hshared (State.occurs_object_iff.mp hh)
      fun hleft => (hmoment hsplit).2 h hleft htarget
  · intro r i hi hspared
    refine Arena.get?_without_eq_some_iff.mpr ⟨fun hr => ?_, hi⟩
    obtain ⟨earlier, later, hsplit⟩ := List.append_of_mem hr
    obtain ⟨⟨j, hj, hkeep⟩, hfree⟩ := hmoment hsplit
    obtain rfl := Option.some.inj (hi.symm.trans hj)
    rcases hspared with hunmanaged | ⟨h, hh, htarget⟩
    · rw [hkeep] at hunmanaged
      cases hunmanaged
    · have hin_use := State.occurs_object_iff.mp hh
      have hleft : h ∈ (s.without gone).handles := hin_use
      rw [hsplit, State.without_append] at hleft
      exact hfree h (State.mem_handles_of_without hleft) htarget

end Lifetime

namespace Session

open Lifetime

variable {s : State}

/-- The list of the arena consists of the managed objects to which no handle exists. -/
theorem Reachable.collectable_iff (hs : Reachable s)
    (hfew : ∀ slot, (s.arena.slotAt slot).removals < 2 ^ 32) (r : Reference) :
    r ∈ s.arena.collectable s.handles ↔
      ∃ i, s.arena.get? r = some i ∧ i.keep = .managed ∧
        ∀ h, s.Occurs (.object h) → h.target ≠ r := by
  have hlist := State.mem_collectable_iff (r := r) (hs.sound hfew)
  rw [State.collectable] at hlist
  rw [hlist]
  simp only [State.Managed, State.occurs_object_iff]
  constructor
  · rintro ⟨⟨i, hi, hkeep⟩, hfree⟩
    exact ⟨i, hi, hkeep, hfree⟩
  · rintro ⟨i, hi, hkeep, hfree⟩
    exact ⟨⟨i, hi, hkeep⟩, hfree⟩

/-- A sweep tells how many objects it removed. -/
theorem Reachable.swept (hs : Reachable s)
    (hfew : ∀ slot, (s.arena.slotAt slot).removals < 2 ^ 32) :
    ∃ gone t, reclaim.outcome s = (.ok gone.length, t) ∧ Swept s t gone := by
  obtain ⟨gone, hcount, hswept⟩ := exists_swept (hs.sound hfew) hs.shared sweepPasses
  refine ⟨gone, _, ?_, hswept⟩
  rw [outcome_reclaim hs.stepsLeft_eq, hcount]

/-- A construction leaves the objects as they are, or to a sweep. -/
theorem Reachable.swept_of_count (hs : Reachable s)
    (hfew : ∀ slot, (s.arena.slotAt slot).removals < 2 ^ 32) :
    ∃ t, countConstruction.outcome s = (.ok (), t) ∧
      (t.arena = s.arena ∨ ∃ gone, Swept s t gone) := by
  rw [outcome_countConstruction]
  split
  · exact ⟨s, rfl, Or.inl rfl⟩
  · split
    · have hsound : (({ s with constructions := s.constructions + 1 } : State).custody []).Sound :=
        hs.sound hfew
      obtain ⟨gone, -, hswept⟩ := exists_swept hsound hs.shared sweepPasses
      refine ⟨_, ?_, Or.inr ⟨gone, hswept.of_constructions⟩⟩
      have hsteps : ({ s with constructions := s.constructions + 1 } : State).stepsLeft = none :=
        hs.stepsLeft_eq
      rw [Run.outcome_bind, outcome_reclaim hsteps]
      rfl
    · exact ⟨_, rfl, Or.inl rfl⟩

/-- At every moment of a session, the list of the arena consists of the managed objects to which no handle
exists.  A sweep, asked for or started by a construction, removes managed objects alone, and each only when
its handles went with objects removed before; it spares all others, and tells by how many the objects
became fewer. -/
theorem Reachable.spares_held (hs : Reachable s)
    (hfew : ∀ slot, (s.arena.slotAt slot).removals < 2 ^ 32) :
    (∀ r, r ∈ s.arena.collectable s.handles ↔
      ∃ i, s.arena.get? r = some i ∧ i.keep = .managed ∧
        ∀ h, s.Occurs (.object h) → h.target ≠ r) ∧
    (∃ gone t, reclaim.outcome s = (.ok gone.length, t) ∧ Swept s t gone) ∧
    ∃ t, countConstruction.outcome s = (.ok (), t) ∧
      (t.arena = s.arena ∨ ∃ gone, Swept s t gone) :=
  ⟨hs.collectable_iff hfew, hs.swept hfew, hs.swept_of_count hfew⟩

/-- A sweep removes two nested objects to which no handle exists, and spares one that a variable keeps. -/
theorem spares_held_of_variable :
    Reachable variableRun.2 ∧ (∀ slot, (variableRun.2.arena.slotAt slot).removals < 2 ^ 32) ∧
      variableRun.2.arena.live = 3 ∧
      ∃ gone t, reclaim.outcome variableRun.2 = (.ok gone.length, t) ∧
        Swept variableRun.2 t gone ∧ gone.length = 2 := by
  have hs : Reachable variableRun.2 := reachable_variableRun
  have hfew : ∀ slot, (variableRun.2.arena.slotAt slot).removals < 2 ^ 32 :=
    Arena.removals_lt_of_unused (by decide +kernel)
  obtain ⟨-, ⟨gone, t, hrun, hswept⟩, -⟩ := hs.spares_held hfew
  have hcount : gone.length = 2 := by
    rw [(eq_of_outcome_reclaim hs.stepsLeft_eq hrun).1]
    decide +kernel
  exact ⟨hs, hfew, by decide +kernel, gone, t, hrun, hswept, hcount⟩

end Session

end ObjectBridge

/-! ## How much a sweep leaves -/

namespace ObjectBridge

namespace Lifetime

/-- Without objects no class has any. -/
theorem familyCount_eq_zero {s : State} (hs : ∀ cls, s.arena.instanceCount cls = 0)
    (cls : ClassId) : familyCount s cls = 0 := by
  rw [familyCount]
  induction s.classes.descendants cls with
  | nil => rfl
  | cons id rest ih => rwa [List.foldl_cons, hs id, Nat.add_zero]

end Lifetime

namespace Session

open Lifetime

variable {s : State}

/-- After a sweep, a managed object to which no handle exists is the last one of a chain of managed objects
each of which owned the next one, and the chain has one object more than the sweep has passes.  The last
object of any such chain is left.  In particular, if handles are held by objects alone, all objects are
managed and there is no such chain, a sweep leaves no object. -/
theorem Reachable.reclaim_leaves (hs : Reachable s)
    (hfew : ∀ slot, (s.arena.slotAt slot).removals < 2 ^ 32) :
    ∃ n t, reclaim.outcome s = (.ok n, t) ∧
      (∀ r ∈ t.arena.collectable t.handles, s.Chain (sweepPasses + 1) r) ∧
      (∀ r, s.Chain (sweepPasses + 1) r → t.Managed r) ∧
      ((∀ h, ¬s.outside.Occurs (.object h)) →
        (∀ r i, s.arena.get? r = some i → i.keep = .managed) →
        (∀ r, ¬s.Chain (sweepPasses + 1) r) →
        t.arena.live = 0 ∧ ∀ cls, t.arena.instanceCount cls = 0 ∧ familyCount t cls = 0) := by
  have hsound := hs.sound hfew
  obtain ⟨rs, hrs⟩ := State.exists_iterate_eq sweepPasses s
  have hleft : (sweep sweepPasses s 0).1 = s.without rs := by rw [sweep_fst, hrs]
  have hlonger : ∀ r ∈ (s.without rs).collectable, s.Chain (sweepPasses + 1) r := by
    rw [← hrs]
    exact fun r hr => State.chain_of_mem_collectable hsound hs.shared sweepPasses hr
  have hsurvives : ∀ r, s.Chain (sweepPasses + 1) r → (s.without rs).Managed r := by
    rw [← hrs]
    exact fun r hr => hr.managed_iterate hsound
  have hbal : (s.without rs).arena.Balanced := hs.balanced.without rs
  refine ⟨_, _, outcome_reclaim hs.stepsLeft_eq, ?_⟩
  rw [hleft]
  refine ⟨hlonger, hsurvives, ?_⟩
  intro hout hall hshort
  have hout' : ∀ h, h ∉ s.outside.handles := fun h hh => hout h (State.occurs_object_iff.mpr hh)
  -- No chain is longer than the passes, so after them nothing is left to collect.
  have hstuck : (s.without rs).collectable = [] :=
    List.eq_nil_iff_forall_not_mem.mpr fun r hr => hshort r (hlonger r hr)
  have hzero : (s.without rs).arena.live = 0 := by
    by_contra hlive
    obtain ⟨r, i, hi⟩ := hbal.exists_get? hlive
    have hchain := State.chain_of_stuck hsound hs.shared hout' hall hstuck sweepPasses hi
    exact hshort r hchain.of_without
  have hcounts : ∀ cls, (s.without rs).arena.instanceCount cls = 0 :=
    fun cls => Nat.le_zero.mp (hzero ▸ hbal.instanceCount_le cls)
  exact ⟨hzero, fun cls => ⟨hcounts cls, familyCount_eq_zero hcounts cls⟩⟩

/-- Two nested objects make no long chain, and a sweep leaves neither of them. -/
theorem reclaim_leaves_nothing_of_two :
    Reachable (nestedRun 2).2 ∧
      (∀ slot, ((nestedRun 2).2.arena.slotAt slot).removals < 2 ^ 32) ∧
      (nestedRun 2).2.arena.live = 2 ∧
      ∃ n t, reclaim.outcome (nestedRun 2).2 = (.ok n, t) ∧ t.arena.live = 0 ∧
        ∀ cls, t.arena.instanceCount cls = 0 ∧ familyCount t cls = 0 := by
  have hs : Reachable (nestedRun 2).2 := .between (between_nestedRun (by decide +kernel))
  have hfew : ∀ slot, ((nestedRun 2).2.arena.slotAt slot).removals < 2 ^ 32 :=
    Arena.removals_lt_of_unused (by decide +kernel)
  have hout : ∀ h, ¬(nestedRun 2).2.outside.Occurs (.object h) := by
    have hnone : (nestedRun 2).2.outside.handles.isEmpty = true := by decide +kernel
    intro h hh
    have hmem := State.occurs_object_iff.mp hh
    rw [List.isEmpty_iff.mp hnone] at hmem
    exact absurd hmem List.not_mem_nil
  have hall : ∀ r i, (nestedRun 2).2.arena.get? r = some i → i.keep = .managed := by
    have hslots : (nestedRun 2).2.arena.slots.toList.all
        (fun s => s.occupant.all fun i => i.keep == .managed) = true := by decide +kernel
    intro r i hi
    have hslot := Arena.slotAt_of_all rfl hslots r.slot
    rw [(Arena.get?_eq_some_iff_slotAt.mp hi).2] at hslot
    exact eq_of_beq hslot
  obtain ⟨n, t, hrun, -, hleft, hnothing⟩ := hs.reclaim_leaves hfew
  -- The passes empty the arena, so no chain outlasts them.
  have hshort : ∀ r, ¬(nestedRun 2).2.Chain (sweepPasses + 1) r := by
    have hempty : (sweep sweepPasses (nestedRun 2).2 0).1.arena.slots.toList.all
        (fun s => s.occupant.isNone) = true := by decide +kernel
    intro r hr
    obtain ⟨i, hi, -⟩ := hleft r hr
    rw [(eq_of_outcome_reclaim hs.stepsLeft_eq hrun).2] at hi
    have hslot := Arena.slotAt_of_all rfl hempty r.slot
    rw [(Arena.get?_eq_some_iff_slotAt.mp hi).2] at hslot
    cases hslot
  exact ⟨hs, hfew, by decide +kernel, n, t, hrun, hnothing hout hall hshort⟩

/-- A sweep does not remove everything to which no handle exists: of sixty-five nested objects one is
left. -/
theorem not_collectable_eq_nil :
    ¬∀ s, Reachable s → (∀ slot, (s.arena.slotAt slot).removals < 2 ^ 32) →
      ∀ n t, reclaim.outcome s = (.ok n, t) → t.arena.collectable t.handles = [] := by
  intro hcomplete
  have hs : Reachable (nestedRun 65).2 := .between (between_nestedRun (by decide +kernel))
  have hfew : ∀ slot, ((nestedRun 65).2.arena.slotAt slot).removals < 2 ^ 32 :=
    Arena.removals_lt_of_unused (by decide +kernel)
  have hnone := hcomplete _ hs hfew _ _ (outcome_reclaim hs.stepsLeft_eq)
  have hleft : (sweep sweepPasses (nestedRun 65).2 0).1.collectable.length = 1 := by
    decide +kernel
  have hsame (u : State) : ({ u with constructions := 0 } : State).collectable = u.collectable := rfl
  rw [← hsame, State.collectable, hnone] at hleft
  cases hleft

end Session

end ObjectBridge
