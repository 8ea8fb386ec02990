import ObjectBridge.Call.Dispatch
import ObjectBridge.Proofs.Run.Success

/-!
# The overload that a call resolves to

A call resolves to an overload by the classes and the arguments alone.  Who runs then decides whether a protected
overload may be called.

* `Dispatch.Resolves` and `Dispatch.ResolvesStatic` — what a call resolves to.
* `State.Privileged` — who may call the protected methods of an object.
* `outcome_choose_of_resolves` — a call that resolves to an overload selects it or is refused.
-/

namespace ObjectBridge

open Run

/-- The innermost frame is the one of a native body, or of an override that runs for the object itself. -/
def State.Privileged (s : State) (recv : Handle) : Prop :=
  s.frames.head? = some .native ∨ s.frames.head? = some (.override recv.target)

/-- Nothing runs but the program itself, or the innermost frame is the one of a handler or a block, or of an
override for another object. -/
theorem State.not_privileged_iff {s : State} {recv : Handle} :
    ¬s.Privileged recv ↔
      s.frames.head? = none ∨ s.frames.head? = some .host ∨
        ∃ other, other ≠ recv.target ∧ s.frames.head? = some (.override other) := by
  unfold Privileged
  rcases s.frames.head? with _ | _ | other | _ <;> simp

namespace Dispatch

variable {exec : Exec} {s t : State} {recv : Handle} {cls : ClassId} {method : String} {args : CallArgs}
  {chosen : Selected}

theorem mayAccess_iff : mayAccess s recv = true ↔ s.Privileged recv := by
  unfold mayAccess State.Privileged
  rcases s.frames.head? with _ | _ | target | _ <;> simp

/-- The overloads that a call on an object can resolve to. -/
def eligible (s : State) (recv : Handle) (overloads : List Overload) : List Overload :=
  let bound := overloads.filter fun o => !o.sig.isStatic
  if s.isConst recv then bound.filter fun o => o.sig.isConst else bound

theorem mem_of_mem_eligible {overloads : List Overload} {o : Overload} (ho : o ∈ eligible s recv overloads) :
    o ∈ overloads ∧ o.sig.isStatic = false := by
  have hbound : o ∈ overloads.filter fun o => !o.sig.isStatic := by
    unfold eligible at ho
    split at ho
    · exact List.mem_of_mem_filter ho
    · exact ho
  simpa using hbound

/-- A call on an object resolves to an overload. -/
def Resolves (s : State) (recv : Handle) (method : String) (args : CallArgs) (chosen : Selected) : Prop :=
  ∃ overloads, s.classes.findMethod recv.cls method = some ⟨chosen.owner, overloads⟩ ∧
    Selection.pick s.toWorld chosen.owner method (eligible s recv overloads) args =
      .ok (chosen.overload, chosen.binding)

/-- A static call resolves to an overload. -/
def ResolvesStatic (s : State) (cls : ClassId) (method : String) (args : CallArgs) (chosen : Selected) :
    Prop :=
  ∃ overloads, s.classes.findMethod cls method = some ⟨chosen.owner, overloads⟩ ∧
    Selection.pick s.toWorld chosen.owner method (overloads.filter fun o => o.sig.isStatic) args =
      .ok (chosen.overload, chosen.binding)

/-- There is something to pick where something was picked. -/
theorem ne_nil_of_pick {w : World} {owner : String} {overloads : List Overload} {p : Overload × Binding}
    (hpick : Selection.pick w owner method overloads args = .ok p) : overloads ≠ [] := by
  rintro rfl
  cases hpick

/-! ## Selection -/

/-- A call that resolves to an overload selects it, unless the overload is protected and whoever runs may not
call it. -/
theorem outcome_choose_of_resolves
    (hmat : (Lifetime.materialize exec recv method).outcome s = (.ok (), t))
    (hresolves : Resolves t recv method args chosen) :
    (choose exec recv method args).outcome s =
      if chosen.overload.sig.isProtected && !mayAccess t recv then
        (.error (.raised (.protectedAccess chosen.owner method)), t)
      else (.ok chosen, t) := by
  obtain ⟨overloads, hfind, hpick⟩ := hresolves
  -- Neither list is empty, since something was picked.
  have hbound : ¬(overloads.filter fun o => !o.sig.isStatic).isEmpty = true := by
    intro hempty
    refine ne_nil_of_pick hpick ?_
    simp [eligible, List.isEmpty_iff.mp hempty]
  have hallowed : ¬(eligible t recv overloads).isEmpty = true := fun hempty =>
    ne_nil_of_pick hpick (List.isEmpty_iff.mp hempty)
  rw [choose, outcome_bind_of_ok hmat, outcome_get_bind, hfind]
  simp only [Run.orFail, pure_bind, if_neg hbound]
  unfold eligible at hpick hallowed
  rw [if_neg hallowed, hpick]
  simp only [Run.ofExcept, pure_bind]
  split <;> rfl

/-- An overload that was selected is the one that the call resolves to, and whoever runs may call it. -/
theorem resolves_of_outcome_choose (hrun : (choose exec recv method args).outcome s = (.ok chosen, t)) :
    (Lifetime.materialize exec recv method).outcome s = (.ok (), t) ∧
      Resolves t recv method args chosen ∧
      (chosen.overload.sig.isProtected = true → t.Privileged recv) := by
  obtain ⟨_, s₁, hmat, hrun⟩ := exists_of_outcome_bind hrun
  rw [outcome_get_bind] at hrun
  obtain ⟨⟨owner, overloads⟩, s₂, hfind, hrun⟩ := exists_of_outcome_bind hrun
  obtain ⟨hfound, rfl⟩ := eq_of_outcome_orFail hfind
  obtain ⟨-, hrun⟩ := outcome_of_unless hrun
  obtain ⟨-, hrun⟩ := outcome_of_unless hrun
  obtain ⟨⟨overload, binding⟩, s₃, hpick, hrun⟩ := exists_of_outcome_bind hrun
  obtain ⟨hpicked, rfl⟩ := eq_of_outcome_ofExcept hpick
  -- The access is checked last, for the overload that was picked.
  obtain ⟨haccess, hrun⟩ := outcome_of_unless hrun
  obtain ⟨rfl, rfl⟩ := eq_of_outcome_pure hrun
  refine ⟨hmat, ⟨overloads, hfound, hpicked⟩, ?_⟩
  intro hprotected
  rw [← mayAccess_iff]
  by_contra hrefused
  exact haccess (Bool.and_eq_true_iff.mpr ⟨hprotected, by simp [hrefused]⟩)

theorem outcome_chooseStatic_of_resolves (hresolves : ResolvesStatic s cls method args chosen) :
    (chooseStatic cls method args).outcome s =
      if chosen.overload.sig.isProtected && s.frames.head? != some .native then
        (.error (.raised (.protectedAccess chosen.owner method)), s)
      else (.ok chosen, s) := by
  obtain ⟨overloads, hfind, hpick⟩ := hresolves
  have hstatic : ¬(overloads.filter fun o => o.sig.isStatic).isEmpty = true := fun hempty =>
    ne_nil_of_pick hpick (List.isEmpty_iff.mp hempty)
  rw [chooseStatic, outcome_get_bind, hfind]
  simp only [Run.orFail, pure_bind, if_neg hstatic]
  rw [hpick]
  simp only [Run.ofExcept, pure_bind]
  split <;> rfl

theorem resolves_of_outcome_chooseStatic
    (hrun : (chooseStatic cls method args).outcome s = (.ok chosen, t)) :
    t = s ∧ ResolvesStatic s cls method args chosen ∧
      (chosen.overload.sig.isProtected = true → s.frames.head? = some .native) := by
  rw [chooseStatic, outcome_get_bind] at hrun
  obtain ⟨⟨owner, overloads⟩, s₂, hfind, hrun⟩ := exists_of_outcome_bind hrun
  obtain ⟨hfound, rfl⟩ := eq_of_outcome_orFail hfind
  obtain ⟨-, hrun⟩ := outcome_of_unless hrun
  obtain ⟨⟨overload, binding⟩, s₃, hpick, hrun⟩ := exists_of_outcome_bind hrun
  obtain ⟨hpicked, rfl⟩ := eq_of_outcome_ofExcept hpick
  obtain ⟨haccess, hrun⟩ := outcome_of_unless hrun
  obtain ⟨rfl, rfl⟩ := eq_of_outcome_pure hrun
  refine ⟨rfl, ⟨overloads, hfound, hpicked⟩, ?_⟩
  intro hprotected
  by_contra hrefused
  exact haccess (Bool.and_eq_true_iff.mpr ⟨hprotected, by simp [hrefused]⟩)

end Dispatch

end ObjectBridge
