import ObjectBridge.Proofs.Arena.Deeds
import ObjectBridge.Proofs.Samples.Identity
import ObjectBridge.Proofs.Session.Inherited

/-!
# Assignment to an object of a sample class

To assign one object to another, the class of the source must be the class of the target or derive from it.  That is
asked of the classes.  The native state is taken over only if it is of the type that the target has, and `AChild` has a
type of its own, although it derives from `A` (`Session.child_refused`).

* `Lifetime.outcome_assign_of_native` — an assignment between two objects that have their native states.
* `Session.Overwritten` — what an assignment leaves behind.
* `Session.assign_overwrites` — objects of `A`, and of classes that host code derives from it.
-/

namespace ObjectBridge

open Run

namespace Arena

variable {a : Arena} {r q : Reference} {i j : Instance} {x y : NativeState}

/-- Two objects are in slots of their own. -/
theorem slot_ne_of_get? (hi : a.get? r = some i) (hj : a.get? q = some j) (hne : r ≠ q) : r.slot ≠ q.slot := by
  intro hslot
  have hr := (get?_eq_some_iff_slotAt.mp hi).1
  have hq := (get?_eq_some_iff_slotAt.mp hj).1
  rw [hslot] at hr
  exact hne (Reference.ext hslot (hr.symm.trans hq))

theorem pair?_of_get? (hi : a.get? r = some i) (hx : i.native = some x) (hj : a.get? q = some j)
    (hy : j.native = some y) (hne : r ≠ q) : a.pair? r q = some (x, y) := by
  rw [pair?, if_neg (slot_ne_of_get? hi hj hne), hi, hj]
  simp only [hx, hy]

end Arena

namespace Lifetime

variable {s : State} {h k : Handle} {i j : Instance} {x y : NativeState}

/-- An assignment between two objects that have their native states, if their classes allow it. -/
theorem outcome_assign_of_native (exec : Exec) (hconst : s.isConst h = false)
    (hi : s.arena.get? h.target = some i) (hx : i.native = some x) (hj : s.arena.get? k.target = some j)
    (hy : j.native = some y) (hsub : s.classes.isSubclassOf k.cls h.cls = true) :
    (assign exec h k).outcome s =
      if h.sameObject k then (.ok (), s)
      else match x.assignFrom? y with
        | some z => (.ok (), { s with arena := s.arena.setNative h.target z })
        | none => (.error (.raised (.native ("Class " ++ h.className ++ " does not support assign"))), s) := by
  rw [assign, outcome_get_bind, hconst, if_neg Bool.false_ne_true,
    outcome_bind_of_ok (outcome_materialize_of_native exec hi hx _),
    outcome_bind_of_ok (outcome_materialize_of_native exec hj hy _), outcome_get_bind, hsub]
  split
  · rfl
  · rename_i hother
    have hne : h.target ≠ k.target := fun heq => hother (beq_iff_eq.mpr heq)
    rw [Arena.pair?_of_get? hi hx hj hy hne]
    simp only [Bool.not_true, Bool.false_eq_true, if_false, orFail, pure_bind]
    cases x.assignFrom? y <;> rfl

end Lifetime

namespace Samples.Identity

variable {x y : NativeState}

theorem IsState.assignFrom?_eq (hx : IsState x) (hy : IsState y) : x.assignFrom? y = some y := by
  obtain ⟨shapeY, fields⟩ := y
  obtain rfl : shapeY = shape := hy.shape_eq
  rw [NativeState.assignFrom?, hx.shape_eq]
  rfl

/-- A state of another type is not taken over. -/
theorem IsState.assignFrom?_eq_none (hx : IsState x) (hother : y.shape.name ≠ shape.name) :
    x.assignFrom? y = none := by
  rw [NativeState.assignFrom?, hx.shape_eq, beq_false_of_ne hother.symm, Bool.and_false]
  rfl

end Samples.Identity

namespace Session

open Lifetime Samples Samples.Identity

variable {s : State} {dst src : Handle} {i j : Instance} {x y : NativeState} {a : ClassId}

/-- One object was assigned to another one.  The target got the native state `y` of the source, and nothing else has
changed. -/
structure Overwritten (exec : Exec) (s t : State) (dst src : Handle) (i j : Instance) (y : NativeState) (a : ClassId) :
    Prop where
  outcome_eq : (assign exec dst src).outcome s = (.ok (), t)
  frame_eq : t = { s with arena := { s.arena with slots := t.arena.slots } }
  /-- The target keeps its class, its overrides, its handlers and whatever else belongs to it. -/
  target : t.arena.get? dst.target = some { i with native := some y }
  source : t.arena.get? src.target = some j
  others : ∀ r, r ≠ dst.target → t.arena.get? r = s.arena.get? r
  target_answers : ∀ r ∈ readers, Answers exec t dst r.method (y.field r.field)
  /-- The source answers alike if host code derived its class from `A`, and also if a class that is described derives
  from `A` but not from `AChild`, and leaves the method as it is. -/
  source_answers : ∀ r ∈ readers, s.classes.HostDerived src.cls a ∨ ReadsLike s.classes src.cls r.method →
    Answers exec t src r.method (y.field r.field)

/-- An assignment that has put the native state of the source into the slot of the target, and has done nothing else. -/
theorem overwritten_of_outcome {t : State} (hs : Reachable s) (hloaded : Loaded s.classes)
    (ha : s.classes.require "A" = .ok a) (budget : Nat) (hdst : s.classes.HostDerived dst.cls a)
    (hy : j.native = some y) (hsource : IsState y)
    (hrun : (assign (Script.interpreter (budget + 3)).exec dst src).outcome s = (.ok (), t))
    (hframe : t = { s with arena := { s.arena with slots := t.arena.slots } })
    (htarget : t.arena.get? dst.target = some { i with native := some y })
    (hkept : t.arena.get? src.target = some j)
    (hothers : ∀ r, r ≠ dst.target → t.arena.get? r = s.arena.get? r) :
    Overwritten (Script.interpreter (budget + 3)).exec s t dst src i j y a := by
  -- The classes are those from before, so both calls find the same overload.
  obtain ⟨ds, hds⟩ := hs.exists_defines
  have hclasses : t.classes = s.classes := by rw [hframe]
  have hsteps : t.stepsLeft = none := by rw [hframe]; exact hs.stepsLeft_eq
  rw [← hclasses] at hds hloaded ha hdst
  have hlike {id : ClassId} (hid : t.classes.HostDerived id a) (method : String) : ReadsLike t.classes id method :=
    readsLike_of_hostDerived hds hloaded ha hid method
  refine ⟨hrun, hframe, htarget, hkept, hothers, fun r hr => ?_, fun r hr hsrc => ?_⟩
  · exact answers_of_isState hds hloaded (hlike hdst _) htarget rfl hsource hsteps hr budget
  · rw [← hclasses] at hsrc
    exact answers_of_isState hds hloaded (hsrc.elim (fun hid => hlike hid _) id) hkept hy hsource hsteps hr budget

/-- An object whose class is `A`, or was derived from `A` by host code, is overwritten by every object whose class is
this class or derives from it, if the native state of the source is one of `A`.  An assignment of an object with a
native state of another type, as objects of `AChild` have, fails and changes nothing. -/
theorem assign_overwrites (hs : Reachable s) (hloaded : Loaded s.classes) (ha : s.classes.require "A" = .ok a)
    (budget : Nat) (dst src : Handle) (hconst : s.isConst dst = false) (hdst : s.classes.HostDerived dst.cls a)
    (hsub : s.classes.isSubclassOf src.cls dst.cls = true) (hi : s.arena.get? dst.target = some i)
    (hx : i.native = some x) (hstate : IsState x) (hj : s.arena.get? src.target = some j) (hy : j.native = some y) :
    (IsState y → ∃ t, Overwritten (Script.interpreter (budget + 3)).exec s t dst src i j y a) ∧
    (y.shape.name ≠ shape.name →
      (assign (Script.interpreter (budget + 3)).exec dst src).outcome s =
        (.error (.raised (.native ("Class " ++ dst.className ++ " does not support assign"))), s)) := by
  have hassign := outcome_assign_of_native (Script.interpreter (budget + 3)).exec hconst hi hx hj hy hsub
  refine ⟨fun hsource => ?_, fun hother => ?_⟩
  · cases hsame : dst.sameObject src with
    | true =>
        -- The object is assigned to itself.
        have htarget : dst.target = src.target := eq_of_beq hsame
        rw [htarget, hj] at hi
        obtain rfl := Option.some.inj hi
        rw [hsame, if_pos rfl] at hassign
        refine ⟨s, overwritten_of_outcome hs hloaded ha budget hdst hy hsource hassign rfl ?_ hj fun _ _ => rfl⟩
        rw [htarget, hj, ← hy]
    | false =>
        have hne : dst.target ≠ src.target := ne_of_beq_false hsame
        have hget := Arena.get?_setOccupant hi { i with native := some y }
        rw [hsame, if_neg Bool.false_ne_true, hstate.assignFrom?_eq hsource] at hassign
        simp only [Arena.setNative, Arena.modify_of_get? hi] at hassign
        refine ⟨_, overwritten_of_outcome hs hloaded ha budget hdst hy hsource hassign rfl ?_ ?_ fun r hr => ?_⟩
        · exact (hget _).trans (if_pos rfl)
        · exact ((hget _).trans (if_neg hne.symm)).trans hj
        · exact (hget r).trans (if_neg hr)
  · -- A state of another type is not the one of the target itself.
    have hapart : dst.sameObject src = false := by
      rw [Handle.sameObject, beq_eq_false_iff_ne]
      intro hsame
      rw [hsame, hj] at hi
      obtain rfl := Option.some.inj hi
      obtain rfl := Option.some.inj (hx.symm.trans hy)
      exact hother (congrArg Shape.name hstate.shape_eq)
    rw [hassign, hapart, if_neg Bool.false_ne_true, hstate.assignFrom?_eq_none hother]

/-! ## A session with objects of three classes -/

/-- A session that derives a class from `A` by host code, and constructs an object of `A`, one of the derived class and
one of `AChild`. -/
@[irreducible]
def familyRun : Except Fault Value × State :=
  andThen (preloaded []) 12 (.list [
    .perform (.subclass "Sub" "A" []) none,
    .perform (.call (.construct (.named "A") [.lit (.int 3)] [])) (some "x"),
    .perform (.call (.construct (.named "Sub") [.lit (.int 5)] [])) (some "y"),
    .perform (.call (.construct (.named "AChild") [] [])) (some "z")])

/-- An object of the session. -/
def familyObject (number : Nat) (cls : ClassId) (name : String) : Handle :=
  ⟨⟨number, ⟨number, ⟨number, 0⟩⟩, cls, name⟩, false⟩

theorem between_familyRun : Between familyRun.2 := by
  unfold familyRun
  exact (Between.preloaded []).andThen (by decide +kernel)

theorem loaded_familyRun : Loaded familyRun.2.classes := by
  have hextends : (preloaded []).classes.Extends familyRun.2.classes := by
    unfold familyRun
    exact ((Reachable.between (.preloaded [])).path_andThen 12 _).extends
  obtain ⟨u, hrun, hclasses⟩ := exists_registered_preloaded
  exact ⟨start {} [], u, hrun, hclasses ▸ hextends⟩

/-- The objects of `A` and of the derived class have native states of `A`. -/
theorem exists_state (k : Fin 2) : ∃ i x, familyRun.2.arena.get? ⟨k, 0⟩ = some i ∧ i.native = some x ∧ IsState x := by
  have hchecked : ∀ k : Fin 2, ((familyRun.2.arena.get? ⟨k, 0⟩).bind Instance.native).any checkState = true := by
    decide +kernel
  obtain ⟨x, hx, hstate⟩ := (Option.any_eq_true _ _).mp (hchecked k)
  obtain ⟨i, hi, hnative⟩ := Option.bind_eq_some_iff.mp hx
  exact ⟨i, x, hi, hnative, isState_of_checkState hstate⟩

theorem hostDerived_sub : familyRun.2.classes.HostDerived 6 1 := by
  have hfacts : (familyRun.2.classes.get? 6).map (fun c => (c.base, c.overrides.isSome)) = some (some 1, true) := by
    decide +kernel
  obtain ⟨c, hc, hclass⟩ := Option.map_eq_some_iff.mp hfacts
  obtain ⟨hbase, hhost⟩ := Prod.mk.inj hclass
  exact .tail (Reachable.between between_familyRun).numbered hc hbase hhost (.refl _ _)

theorem require_familyRun : familyRun.2.classes.require "A" = .ok 1 := by
  decide +kernel

/-- The object of the derived class is assigned to the one of `A`, and both answer with the fields of the former then. -/
theorem sub_assigned : familyRun.2.classes.HostDerived 6 1 ∧ ∃ i j y t,
    Overwritten (Script.interpreter (9 + 3)).exec familyRun.2 t (familyObject 0 1 "A") (familyObject 1 6 "Sub") i j y
      1 := by
  obtain ⟨i, x, hi, hx, hstate⟩ := exists_state 0
  obtain ⟨j, y, hj, hy, hsource⟩ := exists_state 1
  obtain ⟨t, ht⟩ := (assign_overwrites (.between between_familyRun) loaded_familyRun require_familyRun 9
    (familyObject 0 1 "A") (familyObject 1 6 "Sub") (by decide +kernel) (.refl _ _) (by decide +kernel) hi hx hstate hj
    hy).1 hsource
  exact ⟨hostDerived_sub, i, j, y, t, ht⟩

/-- The object of `AChild` cannot be assigned to the one of `A`, although its class derives from `A`. -/
theorem child_refused :
    ¬∀ (s : State) (a : ClassId) (budget : Nat) (dst src : Handle) (i j : Instance) (x y : NativeState), Reachable s →
      Loaded s.classes → s.classes.require "A" = .ok a → s.isConst dst = false → s.classes.HostDerived dst.cls a →
      s.classes.isSubclassOf src.cls dst.cls = true → s.arena.get? dst.target = some i → i.native = some x →
      IsState x → s.arena.get? src.target = some j → j.native = some y →
      ∃ t, (assign (Script.interpreter (budget + 3)).exec dst src).outcome s = (.ok (), t) := by
  intro hclaim
  obtain ⟨i, x, hi, hx, hstate⟩ := exists_state 0
  have hchild : ((familyRun.2.arena.get? ⟨2, 0⟩).bind Instance.native).isSome = true := by decide +kernel
  obtain ⟨y, hnative⟩ := Option.isSome_iff_exists.mp hchild
  obtain ⟨j, hj, hy⟩ := Option.bind_eq_some_iff.mp hnative
  obtain ⟨t, hassigned⟩ := hclaim familyRun.2 1 9 (familyObject 0 1 "A") (familyObject 2 2 "AChild") i j x y
    (.between between_familyRun) loaded_familyRun require_familyRun (by decide +kernel) (.refl _ _)
    (by decide +kernel) hi hx hstate hj hy
  have hfails : ((assign (Script.interpreter (9 + 3)).exec (familyObject 0 1 "A")
      (familyObject 2 2 "AChild")).outcome familyRun.2).1.isOk = false := by
    decide +kernel
  rw [hassigned] at hfails
  cases hfails

end Session

end ObjectBridge
