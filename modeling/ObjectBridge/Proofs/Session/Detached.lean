import ObjectBridge.Proofs.Arena.Seating
import ObjectBridge.Proofs.Arena.Staying
import ObjectBridge.Proofs.Session.Protected

/-!
# Handles of removed objects

The object of a handle can be removed while the handle is kept, and its slot may be used again then.  Such a handle
answers questions about its object's whereabouts, and is good for nothing else.

* `Session.Removed` — the object of a handle was removed at some time in the past.
* `Session.Rejects` — every operation on the object of a handle fails, without a trace in the state.  As nothing is
  assumed about the way in which bodies run, no body runs.
* `Session.RejectsBeside` — so do assignments and comparisons with another object, except that the other object
  may get its native state first.
* `Session.Removed.rejected` — operations on a removed object fail.
-/

namespace ObjectBridge

open Run

variable {s t : State} {exec : Exec} {h : Handle}

namespace Arena

/-- A reference is not accepted once its slot has lost an object since, as long as the generations of the slot are
not used up. -/
theorem get?_eq_none_of_removals_lt {a b : Arena} {r : Reference} (ha : a.Numbered) (hb : b.Numbered)
    (hlive : a.isLive r = true) (hless : (a.slotAt r.slot).removals < (b.slotAt r.slot).removals)
    (hfew : (b.slotAt r.slot).removals < 2 ^ 32) : b.get? r = none := by
  obtain ⟨i, hi⟩ := isLive_iff.mp hlive
  have hthen : UInt32.ofNat (a.slotAt r.slot).removals = r.generation :=
    (ha r.slot).symm.trans (get?_eq_some_iff_slotAt.mp hi).1
  rw [Option.eq_none_iff_forall_ne_some]
  intro j hj
  have hnow : UInt32.ofNat (b.slotAt r.slot).removals = r.generation :=
    (hb r.slot).symm.trans (get?_eq_some_iff_slotAt.mp hj).1
  have hmod := ofNat_eq_ofNat_iff.mp (hthen.trans hnow.symm)
  rw [Nat.ModEq, Nat.mod_eq_of_lt hfew, Nat.mod_eq_of_lt (hless.trans hfew)] at hmod
  omega

end Arena

namespace Session

/-- The object of a handle was removed: it was there at an earlier moment of the session, and an object has been
removed from its slot since. Whether the slot is in use again does not matter. -/
structure Removed (s : State) (h : Handle) : Prop where
  earlier : ∃ before : State, Reachable before ∧ Arena.Path before.arena s.arena ∧
    before.arena.isLive h.target = true ∧
    (before.arena.slotAt h.target.slot).removals < (s.arena.slotAt h.target.slot).removals

/-- Every operation on the object of a handle fails, in whatever way bodies run, and the state is as it was before. No
seat takes the object, except one where it was seated last. Questions about the whereabouts of the object are
answered. -/
structure Rejects (s : State) (h : Handle) : Prop where
  /-- Neither methods nor their native bodies are called, and nothing is iterated over. -/
  calls : ∀ exec method args, Dispatch.Fails exec s h method args (.raised (Arena.useAfterFree h method)) s
  destroy : (Lifetime.destroy h).outcome s = (.error (.raised (Arena.useAfterFree h "destroy")), s)
  manage : (Lifetime.manage h).outcome s = (.error (.raised (Arena.useAfterFree h "_manage")), s)
  unmanage : (Lifetime.unmanage h).outcome s = (.error (.raised (Arena.useAfterFree h "_unmanage")), s)
  dup : ∀ exec, (Lifetime.dup exec h).outcome s = (.error (.raised (Arena.useAfterFree h "dup")), s)
  native : ∀ exec type,
    (Lifetime.native exec h type).outcome s = (.error (.raised (Arena.useAfterFree h "native")), s)
  modifyNative : ∀ exec type f, ∃ e, (Lifetime.modifyNative exec h type f).outcome s = (.error (.raised e), s)
  /-- Handlers are neither connected nor taken away nor counted. -/
  handlers : ∀ exec event operation f, (Event.modifyHandlers exec h event operation f).outcome s =
    (.error (.raised (Arena.useAfterFree h operation)), s)
  trigger : ∀ exec event args,
    (Event.trigger exec h event args).outcome s = (.error (.raised (Arena.useAfterFree h event)), s)
  install : ∀ cls name, (s.seat cls name).occupant ≠ some h.target →
    (Lifetime.install cls name (some h)).outcome s = (.error (.raised (Arena.useAfterFree h "install")), s)
  isDestroyed : s.arena.isDestroyed h = true
  handleState : s.arena.handleState h = .detached
  inspect : Lifetime.inspect s.toWorld h =
    "#<" ++ (if s.isConst h then "const " else "") ++ h.className ++ ":" ++ h.target.text ++ " (destroyed)>"

/-- An operation on the object of a handle and on another object fails: at once, or when the other object has been
given its native state. What its deferred constructor did remains. -/
def FailsBeside {α : Type} (exec : Exec) (s : State) (h other : Handle) (operation : String) (act : Run α) : Prop :=
  (∃ e, act.outcome s = (.error (.raised e), s)) ∨
    ∃ result t, (Lifetime.materialize exec other operation).outcome s = (result, t) ∧
      ((t.arena.slotAt h.target.slot).removals < 2 ^ 32 →
        ∃ fault, act.outcome s = (.error fault, t) ∧ (fault = .exhausted → result = .error .exhausted))

/-- The object of a handle is neither overwritten nor copied over another one, nor compared with another one. -/
structure RejectsBeside (exec : Exec) (s : State) (h : Handle) : Prop where
  assignTo : ∀ source, ∃ e, (Lifetime.assign exec h source).outcome s = (.error (.raised e), s)
  assignFrom : ∀ target, FailsBeside exec s h target "assign" (Lifetime.assign exec target h)
  equalsLeft : ∀ right,
    (Lifetime.equals exec h right).outcome s = (.error (.raised (Arena.useAfterFree h "==")), s)
  equalsRight : ∀ left, FailsBeside exec s h left "==" (Lifetime.equals exec left h)

/-! ## Handles without an object -/

section Gone

variable (hgone : s.arena.get? h.target = none)

include hgone

theorem resolve_of_gone (operation : String) :
    s.arena.resolve h operation = .error (Arena.useAfterFree h operation) := by
  rw [Arena.resolve, hgone]

theorem setKeep_of_gone (keep : Keep) (operation : String) :
    s.arena.setKeep h keep operation = .error (Arena.useAfterFree h operation) := by
  rw [Arena.setKeep, resolve_of_gone hgone]
  rfl

theorem outcome_holding_materialize_of_gone (exec : Exec) (values : List Value) (operation : String) :
    (holding values (Lifetime.materialize exec h operation)).outcome s =
      (.error (.raised (Arena.useAfterFree h operation)), s) :=
  outcome_holding_of_raised (Lifetime.outcome_materialize_of_gone (s := withHeld s values) hgone exec operation)

theorem rejects_of_gone : Rejects s h where
  calls exec method args := by
    refine Dispatch.fails_of_choose ?_
    exact outcome_holding_bind_of_error (outcome_holding_materialize_of_gone hgone exec args.values method) _
  destroy := by
    rw [Lifetime.destroy, outcome_get_bind, Arena.destroy, Arena.destroy?, hgone]
    rfl
  manage := by
    rw [Lifetime.manage, outcome_get_bind, setKeep_of_gone hgone]
    rfl
  unmanage := by
    rw [Lifetime.unmanage, outcome_get_bind, setKeep_of_gone hgone]
    rfl
  dup exec := outcome_bind_of_error (Lifetime.outcome_materialize_of_gone hgone exec "dup") _
  native exec type := outcome_bind_of_error (Lifetime.outcome_materialize_of_gone hgone exec "native") _
  modifyNative exec type f := by
    rw [Lifetime.modifyNative, outcome_get_bind]
    split
    · exact ⟨_, rfl⟩
    · exact ⟨_, outcome_bind_of_error
        (outcome_bind_of_error (Lifetime.outcome_materialize_of_gone hgone exec "native_mut") _) _⟩
  handlers exec event operation f :=
    outcome_bind_of_error (Lifetime.outcome_materialize_of_gone hgone exec operation) _
  trigger exec event args :=
    outcome_bind_of_error (outcome_holding_materialize_of_gone hgone exec args event) _
  install cls name hother := by
    rw [Lifetime.outcome_install, Seat.install, if_neg hother, setKeep_of_gone hgone]
    rfl
  isDestroyed := by simp [Arena.isDestroyed, Arena.isLive, hgone]
  handleState := by simp [Arena.handleState, hgone]
  inspect := by
    have hdestroyed : s.toWorld.arena.isDestroyed h = true := by
      simp [Arena.isDestroyed, Arena.isLive, hgone]
    simp [Lifetime.inspect, hdestroyed, String.append_assoc]

end Gone

/-- An operation fails that gives another object its native state and then this one. -/
theorem failsBeside_of_stays {other : Handle} {operation : String} {α : Type} {act : Unit → Run α}
    (hact : ∀ t e, (Lifetime.materialize exec h operation).outcome t = (.error (.raised e), t) →
      (act ()).outcome t = (.error (.raised e), t))
    (hstays : ∀ t, ((Lifetime.materialize exec other operation).outcome s).2 = t →
      (t.arena.slotAt h.target.slot).removals < 2 ^ 32 → t.arena.get? h.target = none) :
    FailsBeside exec s h other operation (Lifetime.materialize exec other operation >>= act) := by
  refine Or.inr ?_
  rcases hother : (Lifetime.materialize exec other operation).outcome s with ⟨result, t⟩
  refine ⟨result, t, rfl, fun hfew => ?_⟩
  match result with
  | .ok () =>
      have hlater : t.arena.get? h.target = none := hstays t (congrArg Prod.snd hother) hfew
      refine ⟨_, (outcome_bind_of_ok hother act).trans
        (hact t _ (Lifetime.outcome_materialize_of_gone hlater exec operation)), ?_⟩
      intro hexhausted
      cases hexhausted
  | .error fault => exact ⟨fault, outcome_bind_of_error hother act, fun hexhausted => by rw [hexhausted]⟩

theorem rejectsBeside_of_gone (hgone : s.arena.get? h.target = none)
    (hstays : ∀ other operation t, ((Lifetime.materialize exec other operation).outcome s).2 = t →
      (t.arena.slotAt h.target.slot).removals < 2 ^ 32 → t.arena.get? h.target = none) :
    RejectsBeside exec s h where
  assignTo source := by
    rw [Lifetime.assign, outcome_get_bind]
    by_cases hconst : s.isConst h = true
    · rw [if_pos hconst]
      exact ⟨_, rfl⟩
    · rw [if_neg hconst]
      exact ⟨_, outcome_bind_of_error (Lifetime.outcome_materialize_of_gone hgone exec "assign") _⟩
  assignFrom target := by
    by_cases hconst : s.isConst target = true
    · refine Or.inl ⟨.constViolation target.className "assign", ?_⟩
      rw [Lifetime.assign, outcome_get_bind, if_pos hconst]
      rfl
    · unfold FailsBeside
      rw [Lifetime.assign, outcome_get_bind, if_neg hconst]
      exact failsBeside_of_stays (fun t e hmat => outcome_bind_of_error hmat _) (hstays target "assign")
  equalsLeft right := outcome_bind_of_error (Lifetime.outcome_materialize_of_gone hgone exec "==") _
  equalsRight left :=
    failsBeside_of_stays (fun t e hmat => outcome_bind_of_error hmat _) (hstays left "==")

/-! ## Removed objects -/

/-- The object of a handle stays removed. -/
theorem Removed.path (hremoved : Removed s h) (hpath : Arena.Path s.arena t.arena) : Removed t h := by
  obtain ⟨before, hbefore, hfirst, hlive, hless⟩ := hremoved.earlier
  exact ⟨before, hbefore, hfirst.trans hpath, hlive,
    hless.trans_le (hpath.removals_le (hbefore.balanced.path hfirst) _)⟩

/-- A removed object is not found, as long as the generations of its slot are not used up. -/
theorem Removed.get?_eq_none (hremoved : Removed s h)
    (hfew : (s.arena.slotAt h.target.slot).removals < 2 ^ 32) : s.arena.get? h.target = none := by
  obtain ⟨before, hbefore, hpath, hlive, hless⟩ := hremoved.earlier
  have hnum : before.arena.Numbered :=
    Arena.Numbered.path (Custody.Path.arena_path hbefore.arises) Arena.balanced_empty Arena.numbered_empty
  exact Arena.get?_eq_none_of_removals_lt hnum (hnum.path hpath hbefore.balanced) hlive hless hfew

/-- An object that was removed, as long as the generations of its slot are not used up, is good for nothing any more,
also when its slot is in use again: every operation on it fails and runs nothing, and no other object changes, except
that an assignment or a comparison may give its other operand a native state. Its whereabouts are known. A seat
takes it only where it was seated last. -/
theorem Removed.rejected (hremoved : Removed s h)
    (hfew : (s.arena.slotAt h.target.slot).removals < 2 ^ 32) (budget : Nat) :
    Rejects s h ∧ RejectsBeside (Script.interpreter budget).exec s h := by
  have hgone := hremoved.get?_eq_none hfew
  refine ⟨rejects_of_gone hgone, rejectsBeside_of_gone hgone ?_⟩
  -- The deferred constructor of the other object may remove objects and store new ones in the slot.
  rintro other operation t rfl hfewer
  have hconserves := Lifetime.conserves_materialize (Script.interpreter_conservesAll budget).exec (s := s) other operation
  exact (hremoved.path (Custody.Path.arena_path hconserves.path_nil)).get?_eq_none hfewer

/-! ## Sessions with removed objects -/

/-- The object of a handle is removed by a step that empties its slot. -/
theorem removed_of_andThen (hs : Reachable s) {budget : Nat} {step : Script.Expr}
    (hlive : s.arena.isLive h.target = true)
    (hless : (s.arena.slotAt h.target.slot).removals <
      ((andThen s budget step).2.arena.slotAt h.target.slot).removals) :
    Removed (andThen s budget step).2 h := by
  have hpath : Arena.Path s.arena (andThen s budget step).2.arena :=
    Custody.Path.arena_path (custody_path_run (s := { s with log := [] })
      ((Script.interpreter_conservesAll budget).eval step _))
  exact ⟨s, hs, hpath, hlive, hless⟩

/-- A step that removes the object in the variable `x` and creates another one in its slot. -/
def replacedRun : Except Fault Value × State :=
  andThen crossingRun.2 4 (.list [
    .perform (.destroy (.var "x")) none,
    .perform (.create (.named "Node") .script (.map []) false) (some "y")])

theorem removed_crossingObject : Removed replacedRun.2 crossingObject :=
  removed_of_andThen (.between between_crossingRun) (by decide +kernel) (by decide +kernel)

/-- Operations on an object are rejected when its slot is in use again. -/
theorem replaced_rejected :
    (replacedRun.2.arena.slotAt 0).occupant.isSome = true ∧ Rejects replacedRun.2 crossingObject ∧
      RejectsBeside (Script.interpreter 4).exec replacedRun.2 crossingObject :=
  ⟨by decide +kernel, removed_crossingObject.rejected (by decide +kernel) 4⟩

/-- A step that seats the object in the variable `x` and removes it. -/
def seatedRun : Except Fault Value × State :=
  andThen crossingRun.2 4 (.list [
    .perform (.install (.named "Node") "main" (.var "x")) none,
    .perform (.destroy (.var "x")) none])

/-- A removed object that was seated last is taken by its seat again, without an error. -/
theorem seated_not_rejected :
    ∃ s h, Reachable s ∧ Removed s h ∧ (s.arena.slotAt h.target.slot).removals < 2 ^ 32 ∧
      ∃ t, (Lifetime.install 0 "main" (some h)).outcome s = (.ok (), t) := by
  refine ⟨seatedRun.2, crossingObject, .between (between_crossingRun.andThen (by decide +kernel)),
    removed_of_andThen (.between between_crossingRun) (by decide +kernel) (by decide +kernel),
    by decide +kernel, ?_⟩
  have hseated : (seatedRun.2.seat 0 "main").occupant = some crossingObject.target := by decide +kernel
  rw [Lifetime.outcome_install, Seat.install, if_pos hseated]
  exact ⟨_, rfl⟩

end Session

end ObjectBridge
