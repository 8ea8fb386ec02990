import ObjectBridge.Lifetime.Native
import ObjectBridge.Proofs.Lifetime.Passes
import ObjectBridge.Proofs.Run.Frames

/-!
# The life of an object and the handles that exist

Every operation of an object's life conserves handles.  The ones that issue a handle look at all handles
in use, and a caller that has more of them in hand passes these on.

* `conserves_register` and `conserves_issue?` — the operations that make a handle.
* `conserves_destroy`, `conserves_manage`, `conserves_install` and `conserves_reclaim` — the operations
  that end lives, or decide about them.
* `conserves_materialize` and its companions — the operations on native states, which may run a body.
-/

namespace ObjectBridge

/-- A class or an object carries overrides. -/
def State.Carries (s : State) (o : Overrides) : Prop :=
  o ∈ s.classes.allOverrides ∨ ∃ r i, s.arena.get? r = some i ∧ i.overrides = some o

namespace Lifetime

open Run

variable {s : State} {hand : List Value}

/-! ## The object of a handle -/

theorem outcome_resolve (h : Handle) (operation : String) (s : State) :
    (resolve h operation).outcome s = ((s.arena.resolve h operation).mapError .raised, s) :=
  outcome_ofExcept _ _

theorem outcome_resolve_of_some {h : Handle} {i : Instance} (hi : s.arena.get? h.target = some i)
    (operation : String) : (resolve h operation).outcome s = (.ok i, s) := by
  rw [outcome_resolve, Arena.resolve_eq_ok_iff.mpr hi]
  rfl

theorem outcome_resolve_of_none {h : Handle} (hgone : s.arena.get? h.target = none) (operation : String) :
    (resolve h operation).outcome s = (.error (.raised (Arena.useAfterFree h operation)), s) := by
  rw [outcome_resolve, Arena.resolve, hgone]
  rfl

/-! ## New objects -/

/-- A new object brings nothing along that was not in use, and its first handle is in hand. -/
theorem conserves_register {new : NewInstance} (hcov : ∀ v ∈ new.values, s.Covers hand v)
    (hshared : ∀ o, new.overrides = some o → s.Carries o) :
    Conserves (register new) s hand fun h => .object h :: hand := by
  refine conserves_get (conserves_bind_ofExcept ?_)
  rintro ⟨h, arena⟩ hreg
  have hset : Conserves (setArena arena) s hand fun _ => .object h :: hand := by
    refine conserves_setArena (Relation.ReflTransGen.single (.register new h hreg hshared))
      (fun p hp => reaches_object_cons hp) ?_
    intro v hv
    have hsub : ∀ u ∈ hand, u ∈ Value.object h :: hand := fun u hu => List.mem_cons_of_mem _ hu
    rcases Arena.mem_heldValues_register hreg hv with hv | hv
    · exact (hcov v hv).hand_mono hsub
    · exact covers_of_mem_arena hv
  exact conserves_map (g := fun _ => h) hset

theorem conserves_registerAs {c : ClassInfo} {native : Option NativeState} {keep : Keep}
    {overrides : Option Overrides}
    (hnative : ∀ state, native = some state → s.Covers hand (.map state.fields))
    (hoverrides : ∀ o, overrides = some o → ∀ v ∈ o.values, s.Covers hand v)
    (hshared : ∀ o, overrides = some o → s.Carries o) :
    Conserves (registerAs c native keep overrides) s hand fun h => .object h :: hand := by
  refine conserves_register ?_ hshared
  intro v hv
  simp only [NewInstance.values, List.mem_append, Option.mem_toList, Option.map_eq_some_iff] at hv
  rcases hv with ⟨state, hstate, rfl⟩ | hv
  · exact hnative state hstate
  · cases ho : overrides with
    | none => simp [ho] at hv
    | some o => exact hoverrides o ho v (by simpa [ho] using hv)

/-- What the overrides of a class captured is in use with the class. -/
theorem covers_overrides {cls : ClassId} {o : Overrides} (ho : s.classes.overrides cls = some o)
    {v : Value} (hv : v ∈ o.values) : s.Covers hand v :=
  covers_of_mem_classes (ClassTable.mem_heldValues_of_mem_allOverrides
    (ClassTable.mem_allOverrides_of_overrides ho) hv)

theorem conserves_create {cls : ClassId} {native : NativeState} {keep : Keep}
    (hnative : s.Covers hand (.map native.fields)) :
    Conserves (create cls native keep) s hand fun h => .object h :: hand := by
  refine conserves_get (conserves_bind_ofExcept ?_)
  intro c _
  refine conserves_registerAs ?_ ?_ ?_
  · rintro state ⟨⟩
    exact hnative
  · intro o ho v hv
    exact covers_overrides ho hv
  · intro o ho
    exact Or.inl (ClassTable.mem_allOverrides_of_overrides ho)

/-! ## Further handles -/

/-- A handle is issued in view of all handles that exist. -/
theorem conserves_issue? {inHand : List Handle} {r : Reference} {c : Constness}
    (hstep : ∀ h a', s.arena.issue (inHand ++ s.handles) r c = some (h, a') →
      Custody.Step s.pinned (s.custody hand)
        ⟨a', insert h.proxy (s.custody hand).proxies, s.classes.allOverrides⟩) :
    Conserves (issue? inHand r c) s hand fun h => (h.map Value.object).toList ++ hand := by
  refine conserves_get ?_
  cases hissue : s.arena.issue (inHand ++ s.handles) r c with
  | none => exact conserves_pure fun v hv => State.covers_of_mem_hand hv
  | some issued =>
      obtain ⟨h, arena⟩ := issued
      have hset : Conserves (setArena arena) s hand fun _ => .object h :: hand := by
        refine conserves_setArena (Relation.ReflTransGen.single (hstep h arena hissue))
          (fun p hp => reaches_object_cons hp) ?_
        intro v hv
        exact covers_of_mem_arena (Arena.mem_heldValues_issue hissue hv)
      exact conserves_map (g := fun _ => some h) hset

/-- With nothing in hand, the handles in use are all there are. -/
theorem exists_mem_handles {p : Proxy} (hp : s.cells.Reaches (s.inUse []) p) :
    ∃ k ∈ s.handles, k.proxy = p := hp

/-- Another handle for an object, made of one that is in hand. -/
theorem conserves_issueFor (h : Handle) (c : Constness) :
    Conserves (issueFor h c) s [.object h] fun k => [.object k] := by
  have hall : ∀ p ∈ (s.custody [.object h]).proxies, ∃ k ∈ [h] ++ s.handles, k.proxy = p := by
    intro p hp
    rcases Cells.reaches_object_cons hp with rfl | hp
    · exact ⟨h, by simp, rfl⟩
    · obtain ⟨k, hk, rfl⟩ := exists_mem_handles hp
      exact ⟨k, by simp [hk], rfl⟩
  have hissue : Conserves (issue? [h] h.target c) s [.object h]
      fun k => (k.map Value.object).toList ++ [.object h] := by
    refine conserves_issue? ?_
    intro k a' hissue
    -- A handle that is not const may reuse the proxy of another one, so all holders have to be known.
    by_cases hc : c = .nonConst
    · subst hc
      exact .reissue h.target (.returned _ h k (by simp) rfl hissue hall)
    · exact .issue _ h.target c k hc hissue hall
  refine hissue.bind ?_
  intro issued t _ _
  refine conserves_orFail ?_
  rintro k rfl v hv
  exact State.covers_of_mem_hand (by simpa using Or.inl (List.mem_singleton.mp hv))

/-- A handle made of a reference. -/
theorem conserves_upgrade (r : Reference) :
    Conserves (upgrade r) s [] fun h => (h.map Value.object).toList := by
  refine Conserves.of_out_subset (conserves_issue? ?_) (by simp)
  intro h a' hissue
  refine .issue _ r .keep h (by decide) hissue ?_
  intro p hp
  obtain ⟨k, hk, rfl⟩ := exists_mem_handles hp
  exact ⟨k, by simpa using hk, rfl⟩

/-- A handle for the object in a seat. -/
theorem conserves_occupant (cls : ClassId) (name : String) :
    Conserves (occupant cls name) s [] fun h => (h.map Value.object).toList := by
  refine conserves_get ?_
  cases hcurrent : (s.seat cls name).current s.arena s.handles with
  | none => exact conserves_pure (by simp)
  | some issued =>
      obtain ⟨h, arena⟩ := issued
      obtain ⟨r, hseat, hissue⟩ := Option.bind_eq_some_iff.mp hcurrent
      have hset : Conserves (setArena arena) s [] fun _ => [.object h] := by
        refine conserves_setArena (Relation.ReflTransGen.single
          (.reissue r (.seated _ _ h hseat hcurrent fun p hp => exists_mem_handles hp)))
          (fun p hp => reaches_object_cons hp) ?_
        intro v hv
        exact covers_of_mem_arena (Arena.mem_heldValues_issue hissue hv)
      exact conserves_map (g := fun _ => some h) hset

/-! ## Ends of lives -/

theorem conserves_destroy (h : Handle) : Conserves (destroy h) s hand fun _ => hand := by
  refine conserves_get (conserves_bind_ofExcept ?_)
  rintro ⟨i, arena⟩ hdes
  have hdes' := Arena.destroy_eq_ok_iff.mp hdes
  exact conserves_setArena_of_step (.destroy h.target i hdes')
    fun v hv => covers_of_mem_arena (Arena.mem_heldValues_destroy? hdes' hv)

/-- A change of ownership. -/
theorem conserves_setKeep {h : Handle} {keep : Keep} {operation : String} {arena : Arena}
    (hkeep : s.arena.setKeep h keep operation = .ok arena) :
    Conserves (setArena arena) s hand fun _ => hand :=
  conserves_setArena_of_step (.keep h keep operation hkeep)
    fun _ hv => covers_of_mem_arena (Arena.mem_heldValues_setKeep hkeep hv)

theorem conserves_manage (h : Handle) : Conserves (manage h) s hand fun _ => hand :=
  conserves_get (conserves_bind_ofExcept fun _ hkeep => conserves_setKeep hkeep)

theorem conserves_unmanage (h : Handle) : Conserves (unmanage h) s hand fun _ => hand :=
  conserves_get (conserves_bind_ofExcept fun _ hkeep => conserves_setKeep hkeep)

/-- Seating an object is a path of a custody. -/
theorem install_custody_path {seat seat' : Seat} {a a' : Arena} {next : Option Handle}
    {evicted : Option Instance} {pinned : Set Proxy} (hins : seat.install a next = .ok (evicted, seat', a'))
    (ps : Set Proxy) (os : Set Overrides) :
    Custody.Path pinned ⟨a, ps, os⟩ ⟨a', ps, os⟩ ∧ ∀ v ∈ a'.heldValues, v ∈ a.heldValues := by
  obtain ⟨b, hfrozen, hevicted⟩ := Seat.install_cases hins
  have hfirst : Custody.Path pinned ⟨a, ps, os⟩ ⟨b, ps, os⟩ ∧ ∀ v ∈ b.heldValues, v ∈ a.heldValues := by
    rcases hfrozen with rfl | ⟨h, -, hkeep⟩
    · exact ⟨Relation.ReflTransGen.refl, fun v hv => hv⟩
    · exact ⟨Relation.ReflTransGen.single (.keep h .unmanaged "install" hkeep),
        fun v hv => Arena.mem_heldValues_setKeep hkeep hv⟩
  rcases hevicted with ⟨-, rfl⟩ | ⟨r, i, -, hdes, -⟩
  · exact hfirst
  · exact ⟨hfirst.1.tail (.destroy r i hdes),
      fun v hv => hfirst.2 v (Arena.mem_heldValues_destroy? hdes hv)⟩

theorem conserves_install (cls : ClassId) (name : String) (next : Option Handle) :
    Conserves (install cls name next) s hand fun _ => hand := by
  refine conserves_get (conserves_bind_ofExcept ?_)
  rintro ⟨evicted, seat, arena⟩ hins
  obtain ⟨hpath, hheld⟩ := install_custody_path hins (s.custody hand).proxies s.classes.allOverrides
  -- The seats hold no handles, so only the arena matters.
  exact ⟨⟨rfl, rfl, rfl, id, Set.Subset.rfl⟩, custody_path_of_arena hpath (fun _ hp => hp)
    (fun v hv => covers_of_mem_arena (hheld v hv)) rfl rfl rfl⟩

theorem conserves_reclaim : Conserves reclaim s [] fun _ => [] := by
  refine conserves_tick.bind ?_
  intro _ t _ _
  refine conserves_get ?_
  obtain ⟨gone, hsweep, -, -⟩ := sweep_spec sweepPasses t 0
  rw [hsweep]
  have hset : Conserves (MonadStateOf.set { t.without gone with constructions := 0 } :
      Run PUnit) t [] fun _ => [] :=
    ⟨⟨rfl, rfl, rfl, id, Set.Subset.rfl⟩,
      custody_path_of_arena (Arena.without_custody_path _ gone _ _) (fun _ hp => hp)
        (fun v hv => covers_of_mem_arena (Arena.mem_heldValues_without hv)) rfl rfl rfl⟩
  exact conserves_map (g := fun _ => 0 + gone.length) hset

theorem conserves_countConstruction : Conserves countConstruction s [] fun _ => [] := by
  refine conserves_get ?_
  split
  · exact conserves_pure (by simp)
  · have hset : Conserves
        (MonadStateOf.set { s with constructions := s.constructions + 1 } : Run PUnit) s []
        fun _ => [] :=
      conserves_set ⟨rfl, rfl, rfl, id, Set.Subset.rfl⟩ rfl (Cells.within_of_covers fun v hv => Cells.covers_of_mem hv)
    refine hset.bind ?_
    intro _ t _ _
    split
    · exact conserves_reclaim.bind fun _ _ _ _ => conserves_pure (by simp)
    · exact conserves_pure (by simp)

end Lifetime

end ObjectBridge
