import ObjectBridge.Proofs.Arena.Removal

/-!
# Class and overrides of an object

An object gets its class and its overrides when it is stored, and keeps both until it is removed.  Nothing
that happens to an arena changes them, and only a registration brings up objects that were not there before.

* `Instance.lineage` — the class of an object, with its name and kind, and the overrides that it was stored with.
* `Arena.Retains` — every object of the later arena was in the earlier one, with the same lineage.
* `retains_issue` and its companions — all operations but the registration.
-/

namespace ObjectBridge

/-- What an object takes from its class. -/
structure Lineage where
  cls : ClassId
  className : String
  kind : ClassKind
  overrides : Option Overrides

/-- The class of an object, with its name and kind, and the overrides that it was stored with. -/
def Instance.lineage (i : Instance) : Lineage :=
  ⟨i.cls, i.className, i.kind, i.overrides⟩

namespace Arena

/-- Every object of the later arena was in the earlier one, with the same class and the same overrides. -/
def Retains (a a' : Arena) : Prop :=
  ∀ r i', a'.get? r = some i' → ∃ i, a.get? r = some i ∧ i.lineage = i'.lineage

variable {a a' b : Arena} {r : Reference} {i : Instance}

theorem Retains.refl (a : Arena) : a.Retains a :=
  fun _ i hi => ⟨i, hi, rfl⟩

/-- An object is replaced by one of the same lineage. -/
theorem retains_of_setOccupant {j : Instance} (hi : a.get? r = some i)
    (hslots : b.slots = (a.setOccupant r.slot j).slots) (hij : j.lineage = i.lineage) :
    a.Retains b :=
  fun _ _ hi' => exists_get?_of_setOccupant Instance.lineage hi hi' hslots hij

theorem retains_materialize {state : NativeState} (hmat : a.materialize r state = .ok a') :
    a.Retains a' := by
  obtain ⟨i, hi, ⟨-, rfl⟩ | ⟨-, rfl⟩⟩ := materialize_cases hmat
  · exact Retains.refl _
  · exact retains_of_setOccupant hi rfl rfl

theorem retains_destroy? (hdes : a.destroy? r = some (i, a')) : a.Retains a' := by
  intro t i' hi'
  rw [get?_destroy? hdes] at hi'
  split at hi'
  · cases hi'
  · exact ⟨i', hi', rfl⟩

theorem retains_setKeep {h : Handle} {keep : Keep} {operation : String}
    (hkeep : a.setKeep h keep operation = .ok a') : a.Retains a' := by
  obtain ⟨i, hi, rfl⟩ := setKeep_cases hkeep
  exact retains_of_setOccupant hi rfl rfl

theorem retains_issue {held : List Handle} {c : Constness} {h : Handle}
    (hissue : a.issue held r c = some (h, a')) : a.Retains a' := by
  obtain ⟨i, hi, ⟨-, -, -, serials, rfl⟩ | ⟨-, hfresh⟩⟩ := issue_cases hissue
  · exact Retains.refl _
  · obtain ⟨anchor, next, serials, -, -, rfl⟩ := issueFresh_cases hfresh
    exact retains_of_setOccupant hi rfl rfl

theorem retains_setConst (a : Arena) (p : Proxy) (isConst : Bool) :
    a.Retains (a.setConst p isConst) :=
  Retains.refl _

/-- An object is changed in what has nothing to do with its class and its overrides. -/
theorem retains_modify (a : Arena) (r : Reference) {f : Instance → Instance}
    (hf : ∀ i, (f i).lineage = i.lineage) : a.Retains (a.modify r f) := by
  rcases modify_eq a r f with ⟨i, hi, heq⟩ | ⟨-, heq⟩
  · rw [heq]
    exact retains_of_setOccupant hi rfl (hf i)
  · rw [heq]
    exact Retains.refl _

theorem retains_setNative (a : Arena) (r : Reference) (state : NativeState) :
    a.Retains (a.setNative r state) :=
  retains_modify a r fun _ => rfl

end Arena

end ObjectBridge
