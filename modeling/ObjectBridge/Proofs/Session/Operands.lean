import ObjectBridge.Proofs.Lifetime.Operands
import ObjectBridge.Proofs.Samples.Identity
import ObjectBridge.Proofs.Session.Deferral

/-!
# Assignments and comparisons that fail

An assignment or a comparison uses both of its objects.  An object whose construction was deferred obtains its native
state thereby, and it keeps the state when the operation fails afterwards.

* `Lifetime.failing_supplies_operands` — nothing else happens to the objects.
* `Session.operands_not_atomic` — but this may happen, and then the count of a class is not what it was.
-/

namespace ObjectBridge

open Run

namespace Lifetime

/-- If the assignment of one object to another fails, or the comparison of two objects, and no body has changed the
objects, then nothing has happened to them but that operands without a native state may have obtained one.  Nothing at
all has happened if the target of the assignment is const. -/
theorem failing_supplies_operands (exec : Exec) (s t : State) (h k : Handle) (e : Error) :
    (Obeys World.SameArena exec (fun exec => assign exec h k) s →
      (assign exec h k).outcome s = (.error (.raised e), t) →
        SuppliesOperands h k s t ∧ (s.isConst h = true → t.arena = s.arena)) ∧
      (Obeys World.SameArena exec (fun exec => equals exec h k) s →
        (equals exec h k).outcome s = (.error (.raised e), t) → SuppliesOperands h k s t) := by
  refine ⟨fun hobeys hrun => ⟨suppliesOperands_of_assign hobeys hrun, fun hconst => ?_⟩,
    suppliesOperands_of_equals⟩
  rw [outcome_assign_of_isConst hconst] at hrun
  rw [(Prod.mk.inj hrun).2]

end Lifetime

namespace Session

open Lifetime

/-! ## A session with deferred objects -/

/-- A session that constructs two objects of a sample class whose construction is deferred, and removes the second
one. -/
@[irreducible]
def deferredRun : Except Fault Value × State :=
  andThen (preloaded []) 6 (.list [
    .perform (.call (.construct (.named "Lazy") [] [])) (some "x"),
    .perform (.call (.construct (.named "Lazy") [] [])) (some "y"),
    .perform (.destroy (.var "y")) none])

/-- The object that is there. -/
def deferredObject : Handle := ⟨⟨0, ⟨0, ⟨0, 0⟩⟩, 4, "Lazy"⟩, false⟩

/-- The object that was removed. -/
def removedObject : Handle := ⟨⟨1, ⟨1, ⟨1, 0⟩⟩, 4, "Lazy"⟩, false⟩

theorem between_deferredRun : Between deferredRun.2 := by
  unfold deferredRun
  exact (Between.preloaded []).andThen (by decide +kernel)

theorem classes_deferredRun : deferredRun.2.classes = (preloaded []).classes := by
  have hextends : (preloaded []).classes.Extends deferredRun.2.classes := by
    unfold deferredRun
    exact ((Reachable.between (.preloaded [])).path_andThen 6 _).extends
  have hlength : (preloaded []).classes.classes.length = deferredRun.2.classes.classes.length := by decide +kernel
  exact ClassTable.ext_classes (List.IsPrefix.eq_of_length hextends hlength).symm

/-- The only deferred constructor of the sample classes is the one that yields a five. -/
theorem eq_fiveConstructor {cls : ClassId} {l : LazyConstructor} (hl : (preloaded []).classes.findLazy cls = some l) :
    l = fiveConstructor := by
  obtain ⟨c, hancestor, hdeclared⟩ := List.exists_of_findSome?_eq_some hl
  obtain ⟨u, hrun, hclasses⟩ := exists_registered_preloaded
  have hc : c ∈ u.classes.classes := hclasses ▸ ClassTable.mem_classes_of_mem_ancestors hancestor
  rw [Samples.register] at hrun
  obtain ⟨_, v, hall, hmodify⟩ := exists_of_outcome_bind hrun
  obtain rfl := (Prod.mk.inj hmodify).2
  rcases Samples.exists_draft_of_registerAll hall hc hdeclared with hnone | ⟨d, hd, hdraft⟩
  · cases hnone
  · have hdrafts : Samples.library.filterMap ClassDraft.lazyConstructor = [fiveConstructor] := rfl
    have hmem : l ∈ Samples.library.filterMap ClassDraft.lazyConstructor := List.mem_filterMap.mpr ⟨d, hd, hdraft⟩
    rw [hdrafts] at hmem
    exact List.mem_singleton.mp hmem

theorem defersQuietly_deferredRun : deferredRun.2.classes.DefersQuietly (Script.interpreter 6).exec := by
  intro cls l hl u _ hfree
  rw [classes_deferredRun] at hl
  rw [eq_fiveConstructor hl]
  exact ⟨_, (fixedFive Set.univ).yields 6 (by decide) u ⟨u.classes, trivial, .refl _⟩ hfree⟩

/-- To assign the object that was removed to the one that is there fails, but one object more is counted. -/
theorem deferredRun_spec :
    deferredRun.2.stepsLeft = none ∧ deferredRun.2.arena.instanceCount 4 = 0 ∧
      ((assign (Script.interpreter 6).exec deferredObject removedObject).outcome deferredRun.2).1 =
        .error (.raised (.useAfterFree "Lazy" "assign")) ∧
      ((assign (Script.interpreter 6).exec deferredObject removedObject).outcome deferredRun.2).2.arena.instanceCount
        4 = 1 := by
  decide +kernel

/-- To compare the two objects fails as well. -/
theorem outcome_equals_removedObject :
    ((equals (Script.interpreter 6).exec deferredObject removedObject).outcome deferredRun.2).1 =
      .error (.raised (.useAfterFree "Lazy" "==")) := by
  decide +kernel

/-- The object that is there obtains its native state in an assignment that fails, and in a comparison that fails, and
that is all. -/
theorem deferredObject_supplied :
    SuppliesOperands deferredObject removedObject deferredRun.2
        ((assign (Script.interpreter 6).exec deferredObject removedObject).outcome deferredRun.2).2 ∧
      SuppliesOperands deferredObject removedObject deferredRun.2
        ((equals (Script.interpreter 6).exec deferredObject removedObject).outcome deferredRun.2).2 := by
  obtain ⟨hfree, -, hfails, -⟩ := deferredRun_spec
  have hassign := (failing_supplies_operands (Script.interpreter 6).exec deferredRun.2 _ deferredObject removedObject
    (.useAfterFree "Lazy" "assign")).1 (obeys_assign defersQuietly_deferredRun hfree _ _) (Prod.ext hfails rfl)
  have hequals := (failing_supplies_operands (Script.interpreter 6).exec deferredRun.2 _ deferredObject removedObject
    (.useAfterFree "Lazy" "==")).2 (obeys_equals defersQuietly_deferredRun hfree _ _)
    (Prod.ext outcome_equals_removedObject rfl)
  exact ⟨hassign.1, hequals⟩

/-- Assignments and comparisons that fail need not leave the arena as it was, even if every deferred constructor does
nothing but to yield a native state. -/
theorem operands_not_atomic :
    ¬∀ budget s t h k e, Reachable s → s.classes.DefersQuietly (Script.interpreter budget).exec →
      ((assign (Script.interpreter budget).exec h k).outcome s = (.error (.raised e), t) → t.arena = s.arena) ∧
        ((equals (Script.interpreter budget).exec h k).outcome s = (.error (.raised e), t) → t.arena = s.arena) := by
  intro hclaim
  obtain ⟨-, hbefore, hfails, hafter⟩ := deferredRun_spec
  have hsame := (hclaim 6 deferredRun.2 _ deferredObject removedObject _ (.between between_deferredRun)
    defersQuietly_deferredRun).1 (Prod.ext hfails rfl)
  rw [hsame, hbefore] at hafter
  cases hafter

end Session

end ObjectBridge
