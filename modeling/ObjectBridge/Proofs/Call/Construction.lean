import ObjectBridge.Call.Construction
import ObjectBridge.Proofs.Call.Delivery

/-!
# Constructions and the handles that exist

A construction is made with its arguments in hand, and ends with the handle of the new object and with the
arguments as they were left.

* `conserves_runConstructor` — the body of a constructor.
* `conserves_construct` — a construction, deferred or not.
-/

namespace ObjectBridge.Construction

open Run

variable {s : State} {hand : List Value} {exec : Exec}

theorem values_of_isEmpty {args : CallArgs} (h : args.isEmpty = true) : args.values = [] := by
  simp only [CallArgs.isEmpty, Bool.and_eq_true, List.isEmpty_iff] at h
  simp [CallArgs.values, h.1, h.2]

/-- What the overrides of a class captured is in use, also where there are none. -/
theorem covers_captured {t : ClassTable} (ht : t = s.classes) (cls : ClassId) :
    ∀ v ∈ ((t.overrides cls).map Overrides.values).getD [], s.Covers hand v := by
  subst ht
  intro v hv
  cases ho : s.classes.overrides cls with
  | none => simp [ho] at hv
  | some o =>
      rw [ho, Option.map_some, Option.getD_some] at hv
      exact Lifetime.covers_overrides ho hv

theorem conserves_registerAs_of_hand {c : ClassInfo} {native : Option NativeState}
    {overrides : Option Overrides}
    (hnative : ∀ state ∈ native, .map state.fields ∈ hand)
    (hoverrides : ∀ v ∈ (overrides.map Overrides.values).getD [], v ∈ hand)
    (hshared : ∀ o, overrides = some o → o ∈ s.classes.allOverrides) :
    Conserves (Lifetime.registerAs c native .managed overrides) s hand
      fun h => .object h :: hand := by
  refine Lifetime.conserves_registerAs ?_ ?_ fun o ho => Or.inl (hshared o ho)
  · exact fun state hstate => State.covers_of_mem_hand (hnative state hstate)
  · rintro o rfl v hv
    exact State.covers_of_mem_hand (hoverrides v hv)

section Bodies

variable (hexec : ConservesAll exec)

include hexec

/-- A constructor starts with the values of its parameters in hand, and leaves the state it yields and
what it made of the arguments. -/
theorem conserves_runConstructor {owner : String} {overload : Overload} {values : List Value} :
    Conserves (runConstructor exec owner overload values) s values
      fun left => .map left.1.fields :: left.2 := by
  refine (Delivery.conserves_prepare hexec _ _).bind ?_
  intro us t _ _
  split
  · refine ((Lifetime.conserves_runNative hexec none us _).of_hand ?_).bind ?_
    · exact fun v hv => State.covers_of_mem_hand hv
    · intro body u _ _
      refine conserves_bind_ofExcept ?_
      intro state hstate
      refine conserves_pure ?_
      intro v hv
      rcases List.mem_cons.mp hv with rfl | hv
      · exact Lifetime.covers_stateOf hstate
      · exact State.covers_args hv
  · exact conserves_fail

theorem conserves_constructWith {c : ClassInfo} {args : CallArgs} :
    Conserves (constructWith exec c args) s args.values
      fun left => .object left.1 :: left.2.values := by
  refine conserves_get (conserves_bind_orFail ?_)
  intro candidates hfound
  refine conserves_bind_ofExcept ?_
  rintro ⟨overload, binding⟩ hpick
  have hbinding : ∀ v ∈ binding.values, s.Covers args.values v := by
    refine Cells.covers_pick rfl (fun v hv => State.covers_of_mem_hand hv) ?_ hpick
    intro o ho v hv
    exact covers_of_mem_classes (ClassTable.mem_heldValues_of_findConstructors hfound ho hv)
  -- The overrides are looked up here, so what they captured has to be held while code runs.
  obtain ⟨captured, hcaptured⟩ :
      ∃ captured, captured = ((s.classes.overrides c.id).map Overrides.values).getD [] := ⟨_, rfl⟩
  rw [← hcaptured]
  have hrun : Conserves
      (holding (args.values ++ captured)
        (runConstructor exec candidates.owner overload binding.values)) s args.values
      fun left => (args.values ++ captured) ++ (.map left.1.fields :: left.2) := by
    refine Conserves.of_hand (conserves_runConstructor hexec).holding ?_
    intro v hv
    rcases List.mem_append.mp hv with hv | hv
    · rcases List.mem_append.mp hv with hv | hv
      · exact State.covers_of_mem_hand hv
      · rw [hcaptured] at hv
        exact covers_captured rfl c.id v hv
    · exact hbinding v hv
  refine hrun.bind ?_
  rintro ⟨state, updated⟩ t _ hrun
  refine (Delivery.conserves_settle (fun v hv => State.covers_of_mem_hand (by simp [hv]))
    fun v hv => State.covers_of_mem_hand (by simp [hv])).bind ?_
  intro after u _ hsettle
  have hcount : Conserves
      (holding (.map state.fields :: after.values ++ updated ++ captured)
        Lifetime.countConstruction) u
      (after.values ++ ((args.values ++ captured) ++ (.map state.fields :: updated)))
      fun _ => .map state.fields :: after.values ++ updated ++ captured := by
    refine Conserves.of_hand (Conserves.of_out_subset
      (Conserves.holding_nil Lifetime.conserves_countConstruction)
      fun _ v hv => List.mem_append_left _ hv) ?_
    intro v hv
    refine State.covers_of_mem_hand ?_
    simp only [List.cons_append, List.mem_cons, List.mem_append] at hv ⊢
    tauto
  refine hcount.bind ?_
  intro _ w _ hswept
  refine conserves_map (g := fun h => (h, after)) (Conserves.of_out_subset
    (conserves_registerAs_of_hand ?_ ?_ fun o ho => ?_) ?_)
  · rintro _ ⟨⟩
    simp
  · rw [← hcaptured]
    exact fun v hv => List.mem_append_right _ hv
  · -- No class was taken back since the overrides were looked up.
    exact hswept.overrides_subset (hsettle.overrides_subset (hrun.overrides_subset
      (ClassTable.mem_allOverrides_of_overrides ho)))
  · intro h v hv
    simp only [List.cons_append, List.mem_cons, List.mem_append] at hv ⊢
    tauto

/-- A construction, with the arguments in hand. -/
theorem conserves_construct {cls : ClassId} {args : CallArgs} :
    Conserves (construct exec cls args) s args.values
      fun left => .object left.1 :: left.2.values := by
  refine conserves_get (conserves_bind_ofExcept ?_)
  intro c _
  split
  · rename_i hdeferred
    -- No code runs for a deferred object: it is counted and stored.
    have hnone : args.values = [] := values_of_isEmpty (Bool.and_eq_true_iff.mp hdeferred).1
    obtain ⟨captured, hcaptured⟩ :
        ∃ captured, captured = ((s.classes.overrides cls).map Overrides.values).getD [] :=
      ⟨_, rfl⟩
    dsimp only
    rw [← hcaptured, hnone]
    have hcount : Conserves (holding captured Lifetime.countConstruction) s [] fun _ => captured := by
      refine Conserves.of_hand (Conserves.of_out_subset
        (Conserves.holding_nil Lifetime.conserves_countConstruction)
        fun _ v hv => List.mem_append_left _ hv) ?_
      rw [hcaptured]
      exact covers_captured rfl cls
    refine hcount.bind ?_
    intro _ t _ hswept
    refine conserves_map (g := fun h => (h, args)) (Conserves.of_out_subset
      (conserves_registerAs_of_hand (by simp) ?_ fun o ho => ?_) ?_)
    · rw [← hcaptured]
      exact fun v hv => hv
    · exact hswept.overrides_subset (ClassTable.mem_allOverrides_of_overrides ho)
    · intro h v hv
      rw [hnone] at hv
      exact List.mem_cons.mpr (Or.inl (List.mem_singleton.mp hv))
  · exact conserves_constructWith hexec

end Bodies

end ObjectBridge.Construction
