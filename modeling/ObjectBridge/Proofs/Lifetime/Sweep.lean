import ObjectBridge.Lifetime.Basic
import ObjectBridge.Proofs.Lifetime.Ownership
import ObjectBridge.Proofs.Run.Success

/-!
# Sweeps

What a pass removes can hold handles of what the next pass removes.  So along a chain of objects each of
which owns the next one, a pass removes one object, and a sweep ends after a number of passes.

A sweep is asked for, or a construction starts one.  Either way it removes objects, and nothing comes up.

* `State.mem_collectable_without_iff` — what a pass removes, at any moment of a sweep.
* `State.chain_of_mem_collectable` — an object that is left at the end is the last one of a chain that is
  longer than the sweep.
* `State.Chain.managed_iterate` — the last object of such a chain is left.
* `State.chain_of_stuck` — where nothing can be removed and objects alone hold handles, every object is the
  last one of chains of any length.
* `exists_outcome_reclaim` — a sweep that is asked for.
* `get?_sweep_of_mem_collectable` — what it removes first.
* `outcome_countConstruction` and `get?_of_countConstruction` — a sweep that a construction starts.
-/

namespace ObjectBridge.State

variable {s : State} {rs : List Reference} {q r : Reference}

/-! ## One pass -/

/-- At any moment of a sweep, a pass would remove the managed objects without a handle. -/
theorem mem_collectable_without_iff (hsound : (s.custody []).Sound) :
    r ∈ (s.without rs).collectable ↔
      (s.without rs).Managed r ∧ ∀ h ∈ (s.without rs).handles, h.target ≠ r := by
  have hheld : ∀ h ∈ (s.without rs).handles, h.proxy ∈ (s.custody []).proxies :=
    fun h hh => ⟨h, mem_handles_of_without hh, rfl⟩
  have hleft : ∀ t i, (s.without rs).arena.get? t = some i → (s.custody []).arena.get? t = some i :=
    fun t i hi => Arena.get?_of_get?_without hi
  rw [collectable, hsound.mem_collectable_iff hheld hleft]
  constructor
  · rintro ⟨i, hi, hkeep, hfree⟩
    exact ⟨⟨i, hi, hkeep⟩, hfree⟩
  · rintro ⟨⟨i, hi, hkeep⟩, hfree⟩
    exact ⟨i, hi, hkeep, hfree⟩

theorem mem_collectable_iff (hsound : (s.custody []).Sound) :
    r ∈ s.collectable ↔ s.Managed r ∧ ∀ h ∈ s.handles, h.target ≠ r := by
  have hnothing : s.without [] = s := rfl
  rw [← hnothing]
  exact mem_collectable_without_iff hsound

/-- What has an owner is not removed. -/
theorem Owns.not_mem_collectable (hsound : (s.custody []).Sound)
    (howns : (s.without rs).Owns q r) : r ∉ (s.without rs).collectable := by
  intro hr
  obtain ⟨k, hk, htarget⟩ := howns.exists_handle
  exact ((mem_collectable_without_iff hsound).mp hr).2 k hk htarget

theorem shared_without (hshared : (s.custody []).Shared) : ((s.without rs).custody []).Shared :=
  fun r i o hi ho => hshared r i o (Arena.get?_of_get?_without hi) ho

/-- Passes leave a state without some of its objects. -/
theorem exists_iterate_eq (n : Nat) (s : State) : ∃ rs, pass^[n] s = s.without rs := by
  induction n with
  | zero => exact ⟨[], rfl⟩
  | succ n ih =>
      obtain ⟨rs, hrs⟩ := ih
      refine ⟨rs ++ (s.without rs).collectable, ?_⟩
      rw [Function.iterate_succ_apply', hrs, without_append]
      rfl

/-! ## Chains -/

theorem Chain.managed {n : Nat} (hr : s.Chain n r) : s.Managed r := by
  cases hr with
  | single hr => exact hr
  | snoc _ _ hr => exact hr

theorem Chain.of_without {n : Nat} (hr : (s.without rs).Chain n r) : s.Chain n r := by
  induction hr with
  | single hr => exact .single (managed_without_iff.mp hr).2
  | snoc _ howns hr ih => exact .snoc ih (owns_without_iff.mp howns).2 (managed_without_iff.mp hr).2

/-- What would be removed after some passes is the last object of a chain that is longer than these: its
last handles went with an object that the last pass removed. -/
theorem chain_of_mem_collectable (hsound : (s.custody []).Sound) (hshared : (s.custody []).Shared)
    (n : Nat) (hr : r ∈ (pass^[n] s).collectable) : s.Chain (n + 1) r := by
  induction n generalizing r with
  | zero => exact .single ((mem_collectable_iff hsound).mp hr).1
  | succ n ih =>
      obtain ⟨rs, hrs⟩ := exists_iterate_eq n s
      rw [Function.iterate_succ_apply', hrs, pass, ← without_append] at hr
      rw [hrs] at ih
      obtain ⟨hmanaged, hfree⟩ := (mem_collectable_without_iff hsound).mp hr
      obtain ⟨hnotMem, hmanaged⟩ := managed_without_iff.mp hmanaged
      rw [List.mem_append, not_or] at hnotMem
      -- The object was not removed by the last pass, so it had a handle then.
      obtain ⟨h, hh, htarget⟩ : ∃ h ∈ (s.without rs).handles, h.target = r := by
        by_contra hnone
        simp only [not_exists, not_and] at hnone
        exact hnotMem.2 ((mem_collectable_without_iff hsound).mpr
          ⟨managed_without_iff.mpr ⟨hnotMem.1, hmanaged⟩, hnone⟩)
      rw [without_append] at hfree
      obtain ⟨q, hq, hholds⟩ := exists_owner (shared_without hshared) hh
        fun hkept => hfree h hkept htarget
      exact .snoc (ih hq) (owns_without_iff.mp ⟨h, hholds, htarget⟩).2 hmanaged

/-- A pass takes the first object of a chain at most. -/
theorem Chain.pass (hsound : (s.custody []).Sound) {n : Nat}
    (hr : (s.without rs).Chain (n + 2) r) : (s.without rs).pass.Chain (n + 1) r := by
  induction n generalizing r with
  | zero =>
      cases hr with
      | snoc _ howns hr =>
          exact .single (managed_without_iff.mpr ⟨howns.not_mem_collectable hsound, hr⟩)
  | succ n ih =>
      cases hr with
      | snoc hq howns hr =>
          have hq' := ih hq
          have hkept := (managed_without_iff.mp hq'.managed).1
          exact .snoc hq' (owns_without_iff.mpr ⟨hkept, howns⟩)
            (managed_without_iff.mpr ⟨howns.not_mem_collectable hsound, hr⟩)

/-- The last object of a chain that is longer than a number of passes is left by these. -/
theorem Chain.managed_iterate (hsound : (s.custody []).Sound) (n : Nat)
    (hr : s.Chain (n + 1) r) : (State.pass^[n] s).Managed r := by
  have hchain (k m : Nat) (hr : s.Chain (k + m + 1) r) : (State.pass^[k] s).Chain (m + 1) r := by
    induction k generalizing m with
    | zero => rwa [Nat.zero_add] at hr
    | succ k ih =>
        obtain ⟨rs, hrs⟩ := exists_iterate_eq k s
        have hlonger := ih (m + 1) (by rwa [Nat.add_right_comm k 1 m] at hr)
        rw [hrs] at hlonger
        rw [Function.iterate_succ_apply', hrs]
        exact hlonger.pass hsound
  exact (hchain n 0 hr).managed

/-- Where nothing can be removed, every object has an owner, if handles are held by objects alone.  So one
can go back along the owners without end. -/
theorem chain_of_stuck (hsound : (s.custody []).Sound) (hshared : (s.custody []).Shared)
    (hout : ∀ h, h ∉ s.outside.handles)
    (hall : ∀ t i, s.arena.get? t = some i → i.keep = .managed)
    (hstuck : (s.without rs).collectable = []) (n : Nat) {i : Instance}
    (hi : (s.without rs).arena.get? r = some i) : (s.without rs).Chain (n + 1) r := by
  have hmanaged : ∀ t j, (s.without rs).arena.get? t = some j → (s.without rs).Managed t :=
    fun t j hj => ⟨j, hj, hall t j (Arena.get?_of_get?_without hj)⟩
  induction n generalizing r i with
  | zero => exact .single (hmanaged r i hi)
  | succ n ih =>
      obtain ⟨h, hh, htarget⟩ : ∃ h ∈ (s.without rs).handles, h.target = r := by
        by_contra hnone
        simp only [not_exists, not_and] at hnone
        have hr := (mem_collectable_without_iff hsound).mpr ⟨hmanaged r i hi, hnone⟩
        rw [hstuck] at hr
        exact absurd hr List.not_mem_nil
      obtain ⟨q, j, hj, hleads⟩ := exists_owner_of_outside (s := s.without rs)
        (shared_without hshared) hout hh
      exact .snoc (ih hj) ⟨h, ⟨j, hj, hleads⟩, htarget⟩ (hmanaged r i hi)

end ObjectBridge.State

/-! ## Sweeps that are asked for or started -/

namespace ObjectBridge.Lifetime

variable {s t : State} {r : Reference} {i : Instance}

/-- What is left after a sweep was there before. -/
theorem get?_of_get?_sweep {passes removed : Nat} (hi : (sweep passes s removed).1.arena.get? r = some i) :
    s.arena.get? r = some i := by
  rw [sweep_fst] at hi
  obtain ⟨rs, hrs⟩ := State.exists_iterate_eq passes s
  rw [hrs] at hi
  exact Arena.get?_of_get?_without hi

/-- What a sweep would remove first is removed. -/
theorem get?_sweep_of_mem_collectable (hr : r ∈ s.collectable) (passes removed : Nat) :
    (sweep (passes + 1) s removed).1.arena.get? r = none := by
  rw [sweep_fst, Function.iterate_succ_apply, Option.eq_none_iff_forall_ne_some]
  intro i hi
  rw [← sweep_fst passes s.pass 0] at hi
  have hpass : s.pass.arena.get? r = some i := get?_of_get?_sweep hi
  exact (Arena.get?_without_eq_some_iff.mp hpass).1 hr

/-- A sweep that is asked for is carried out, unless no step is left. -/
theorem exists_outcome_reclaim (hsteps : s.stepsLeft ≠ some 0) :
    ∃ limit, reclaim.outcome s = (.ok (sweep sweepPasses { s with stepsLeft := limit } 0).2,
      { (sweep sweepPasses { s with stepsLeft := limit } 0).1 with constructions := 0 }) := by
  have htick : ∃ limit, Run.tick.outcome s = (.ok (), { s with stepsLeft := limit }) := by
    rw [Run.outcome_tick]
    split
    · exact ⟨s.stepsLeft, rfl⟩
    · rename_i hnone
      exact absurd hnone hsteps
    · exact ⟨_, rfl⟩
  obtain ⟨limit, htick⟩ := htick
  exact ⟨limit, Run.outcome_bind_of_ok htick _⟩

/-- A sweep without a limit of steps is carried out. -/
theorem outcome_reclaim (hs : s.stepsLeft = none) :
    reclaim.outcome s = (.ok (sweep sweepPasses s 0).2,
      { (sweep sweepPasses s 0).1 with constructions := 0 }) := by
  have htick : Run.tick.outcome s = (.ok (), s) := by
    rw [Run.outcome_tick, hs]
  exact Run.outcome_bind_of_ok htick _

theorem eq_of_outcome_reclaim {n : Nat} {t : State} (hs : s.stepsLeft = none)
    (hrun : reclaim.outcome s = (.ok n, t)) :
    n = (sweep sweepPasses s 0).2 ∧ t.arena = (sweep sweepPasses s 0).1.arena := by
  rw [outcome_reclaim hs] at hrun
  obtain ⟨hcount, hstate⟩ := Prod.mk.inj hrun
  exact ⟨(Except.ok.inj hcount).symm, by rw [← hstate]⟩

/-- No sweep that is asked for ends with an error, and nothing comes up. -/
theorem get?_of_reclaim {result : Except Fault Nat} (hrun : reclaim.outcome s = (result, t)) :
    (∀ e, result ≠ .error (.raised e)) ∧ ∀ r i, t.arena.get? r = some i → s.arena.get? r = some i := by
  by_cases hsteps : s.stepsLeft = some 0
  · have hstops : reclaim.outcome s = (.error .exhausted, s) := by
      rw [reclaim, Run.outcome_bind, Run.outcome_tick, hsteps]
    obtain ⟨rfl, rfl⟩ := Prod.mk.inj (hstops.symm.trans hrun)
    exact ⟨nofun, fun _ _ hi => hi⟩
  · obtain ⟨limit, hswept⟩ := exists_outcome_reclaim hsteps
    obtain ⟨rfl, rfl⟩ := Prod.mk.inj (hswept.symm.trans hrun)
    exact ⟨nofun, fun _ _ hi => get?_of_get?_sweep (s := { s with stepsLeft := limit }) hi⟩

theorem outcome_countConstruction (s : State) :
    countConstruction.outcome s =
      if s.options.autoReclaim = 0 ∨ !s.frames.isEmpty then (.ok (), s)
      else if s.options.autoReclaim ≤ s.constructions + 1 then
        (reclaim >>= fun _ => pure ()).outcome { s with constructions := s.constructions + 1 }
      else (.ok (), { s with constructions := s.constructions + 1 }) := by
  by_cases hskip : s.options.autoReclaim = 0 ∨ !s.frames.isEmpty
  · rw [if_pos hskip, countConstruction, Run.outcome_bind]
    show Run.outcome (ite _ _ _) s = _
    rw [if_pos hskip]
    rfl
  · rw [if_neg hskip, countConstruction, Run.outcome_bind]
    show Run.outcome (ite _ _ _) s = _
    rw [if_neg hskip, Run.outcome_bind]
    show Run.outcome (ite _ _ _) _ = _
    split
    · rfl
    · rfl

/-- To count a construction does not fail, and nothing comes up. -/
theorem get?_of_countConstruction {result : Except Fault Unit} (hrun : countConstruction.outcome s = (result, t)) :
    (∀ e, result ≠ .error (.raised e)) ∧ ∀ r i, t.arena.get? r = some i → s.arena.get? r = some i := by
  rw [outcome_countConstruction] at hrun
  split at hrun
  · obtain ⟨rfl, rfl⟩ := Prod.mk.inj hrun
    exact ⟨nofun, fun _ _ hi => hi⟩
  · split at hrun
    · rw [Run.outcome_bind] at hrun
      rcases hreclaim : reclaim.outcome { s with constructions := s.constructions + 1 } with ⟨result', t'⟩
      rw [hreclaim] at hrun
      obtain ⟨hraised, hget⟩ := get?_of_reclaim hreclaim
      cases result' with
      | ok n =>
          obtain ⟨rfl, rfl⟩ := Prod.mk.inj hrun
          exact ⟨nofun, hget⟩
      | error fault =>
          obtain ⟨rfl, rfl⟩ := Prod.mk.inj hrun
          exact ⟨fun e he => hraised e (congrArg _ (Except.error.inj he)), hget⟩
    · obtain ⟨rfl, rfl⟩ := Prod.mk.inj hrun
      exact ⟨nofun, fun _ _ hi => hi⟩

end ObjectBridge.Lifetime
