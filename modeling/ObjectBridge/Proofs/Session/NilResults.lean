import ObjectBridge.Proofs.Call.Failing
import ObjectBridge.Proofs.Session.Reachable
import ObjectBridge.Proofs.Value.Declared

/-!
# Nil as an argument and as a result

As an argument, nil passes wherever the kind of passing is a pointer, whatever the type.  As a result it comes back
by pointer only where the type is a class: a result of any other type is converted like a copy, which is never nil
(`missing_number_refused`).

* `Conversion.exists_convert_nil_iff` — nil as an argument.
* `Delivery.outcome_give_nil` — nil as a result.
* `Session.nil_crosses` — what a call answers when its body leaves nil.
-/

namespace ObjectBridge

open Run

namespace Conversion

variable {type : Ty} {passing : Passing}

/-- Nil is refused where the kind of passing is no pointer. -/
theorem convert_nil_of_not_nullable (htype : type ≠ .any) (hnull : passing.isNullable = false) (w : World) :
    convert w type passing .nil = .error (.mismatch type.name "nil") := by
  have hthrough (f : Value → Except Refusal Converted) :
      throughBoxes w type passing .nil f = .error (.mismatch type.name "nil") := by
    simp [throughBoxes, fromNil, behind, hnull, Value.isNil, Value.box?, Value.typeName]
  cases type with
  | any => exact absurd rfl htype
  | list item => rw [convert_list, hthrough]
  | map key value => rw [convert_map, hthrough]
  | object cls => rw [convert, hthrough]
  | _ => rw [convert_scalar rfl, hthrough]

/-- Nil passes as an argument exactly by pointer. -/
theorem exists_convert_nil_iff (htype : type ≠ .any) (w : World) :
    (∃ c, convert w type passing .nil = .ok c) ↔ passing.isNullable = true := by
  cases hnull : passing.isNullable with
  | true => exact iff_of_true ⟨_, convert_nil w type hnull⟩ rfl
  | false =>
      rw [convert_nil_of_not_nullable htype hnull]
      exact iff_of_false (by simp) Bool.false_ne_true

end Conversion

namespace Delivery

variable {type : Ty}

/-- What is answered when a body leaves nil for a declared type. -/
def nilResult (type : Ty) (passing : Passing) (owner method : String) : Except Error Value :=
  if type.isObject then
    if passing.isNullable then .ok .nil else .error (.nullReference "return value" owner method)
  else .error (.unexpectedValue type.name "nil")

theorem outcome_converted_nil (htype : type ≠ .any) (s : State) :
    (give.converted type .nil).outcome s = (.error (.raised (.unexpectedValue type.name "nil")), s) := by
  rw [give.converted, outcome_get_bind, Conversion.convert_nil_of_not_nullable htype rfl]
  rfl

/-- A result that is nil is delivered without a change. -/
theorem outcome_give_nil (htype : type ≠ .any) (exec : Exec) (owner method : String) (passing : Passing)
    (s : State) :
    (give exec owner method type passing .nil).outcome s =
      (ofExcept (nilResult type passing owner method)).outcome s := by
  cases type with
  | any => exact absurd rfl htype
  | object cls =>
      rw [give, nilResult]
      cases passing.isNullable <;> rfl
  | list item =>
      rw [give, outcome_converted_nil htype]
      · rfl
      · simp
  | _ =>
      rw [give, outcome_converted_nil htype]
      · rfl
      all_goals simp

end Delivery

namespace Dispatch

open Delivery

variable {exec : Exec} {s s₁ : State} {recv : Option Handle} {chosen : Selected} {method : String}
  {args : CallArgs} {allowOverride : Bool} {updated : List Value} {type : Ty} {passing : Passing}

/-- A call whose body leaves nil writes the arguments back, and then answers nil or fails. -/
theorem outcome_execute_of_nil (hresult : chosen.overload.sig.result = some (type, passing)) (htype : type ≠ .any)
    (hbody : (holding args.values (runBody exec recv chosen method allowOverride)).outcome s =
      (.ok (.nil, updated), s₁)) :
    ∃ after cells, (execute exec recv chosen method args allowOverride).outcome s =
      (((nilResult type passing chosen.owner method).map fun v => (v, after)).mapError Fault.raised,
        { s₁ with cells := cells }) := by
  obtain ⟨after, cells, hsettle⟩ := exists_outcome_settle chosen.overload.sig.params chosen.binding.sources updated
    args s₁
  refine ⟨after, cells, ?_⟩
  have hgive : (giveBack exec chosen.overload.sig.result chosen.owner method .nil).outcome
      (withHeld { s₁ with cells := cells } after.values) = (ofExcept (nilResult type passing chosen.owner
        method)).outcome (withHeld { s₁ with cells := cells } after.values) := by
    rw [hresult]
    exact outcome_give_nil htype exec chosen.owner method passing _
  rw [outcome_ofExcept] at hgive
  rw [execute, outcome_bind_of_ok hbody, outcome_bind_of_ok hsettle]
  cases hnil : nilResult type passing chosen.owner method with
  | ok v =>
      rw [hnil] at hgive
      rw [outcome_bind_of_ok (outcome_holding_of_ok hgive)]
      rfl
  | error e =>
      rw [hnil] at hgive
      rw [outcome_bind_of_error (outcome_holding_of_raised hgive)]
      rfl

end Dispatch

namespace Session

open Conversion Delivery

/-- The body that a call has selected leaves nil, and its result is declared to have a type and a kind of passing. -/
structure LeavesNil (exec : Exec) (s : State) (recv : Option Handle) (chosen : Dispatch.Selected) (method : String)
    (args : CallArgs) (allowOverride : Bool) (type : Ty) (passing : Passing) : Prop where
  result_eq : chosen.overload.sig.result = some (type, passing)
  exists_left : ∃ updated t,
    (holding args.values (Dispatch.runBody exec recv chosen method allowOverride)).outcome s =
      (.ok (.nil, updated), t)

/-- How a call ends whose body leaves nil for a declared type. -/
structure NilAnswer (type : Ty) (passing : Passing) (owner method : String)
    (result : Except Fault (Value × CallArgs)) : Prop where
  returned_iff : (∃ after, result = .ok (.nil, after)) ↔ type.isObject = true ∧ passing.isNullable = true
  /-- An object must be there where the kind of passing is no pointer. -/
  missing : type.isObject = true → passing.isNullable = false →
    result = .error (.raised (.nullReference "return value" owner method))
  /-- Nil is not of any other type, whatever the kind of passing. -/
  unexpected : type.isObject = false → result = .error (.raised (.unexpectedValue type.name "nil"))
  /-- The call answers nil where an argument may be nil, if the type is a class or the kind of passing is no pointer. -/
  agrees_iff : ∀ w, ((∃ after, result = .ok (.nil, after)) ↔ ∃ c, convert w type passing .nil = .ok c) ↔
    type.isObject = true ∨ passing.isNullable = false

theorem LeavesNil.nilAnswer {exec : Exec} {s : State} {recv : Option Handle} {chosen : Dispatch.Selected}
    {method : String} {args : CallArgs} {allowOverride : Bool} {type : Ty} {passing : Passing}
    (h : LeavesNil exec s recv chosen method args allowOverride type passing) (htype : type ≠ .any) :
    NilAnswer type passing chosen.owner method
      ((Dispatch.execute exec recv chosen method args allowOverride).outcome s).1 := by
  obtain ⟨updated, t, hbody⟩ := h.exists_left
  obtain ⟨after, cells, hrun⟩ := Dispatch.outcome_execute_of_nil h.result_eq htype hbody
  have hconvert (w : World) : (∃ c, convert w type passing .nil = .ok c) ↔ passing.isNullable = true :=
    exists_convert_nil_iff htype w
  rw [hrun]
  cases hobject : type.isObject <;> cases hnull : passing.isNullable <;>
    constructor <;> simp [nilResult, hobject, hnull, hconvert, Except.map, Except.mapError]

/-- Nil as an argument passes exactly by pointer.  A call whose body or override leaves nil answers nil exactly if the
declared result is an object by pointer, and otherwise fails. -/
theorem nil_crosses (exec : Exec) (type : Ty) (passing : Passing) (htype : type ≠ .any) :
    (∀ w, (∃ c, convert w type passing .nil = .ok c) ↔ passing.isNullable = true) ∧
    (∀ s s₀ recv method args allowOverride chosen,
      (holding args.values (Dispatch.choose exec recv method args)).outcome s = (.ok chosen, s₀) →
      (∀ code source, chosen.overload.body ≠ .iterator code source) →
      LeavesNil exec s₀ (some recv) chosen method args allowOverride type passing →
      NilAnswer type passing chosen.owner method
        ((Dispatch.invoke exec recv method args allowOverride).outcome s).1) ∧
    (∀ s cls method args chosen,
      (Dispatch.chooseStatic cls method args).outcome s = (.ok chosen, s) →
      LeavesNil exec s none chosen method args false type passing →
      NilAnswer type passing chosen.owner method ((Dispatch.callStatic exec cls method args).outcome s).1) := by
  refine ⟨exists_convert_nil_iff htype, ?_, ?_⟩
  · intro s s₀ recv method args allowOverride chosen hchoose hbody hnil
    have hinvoke : (Dispatch.invoke exec recv method args allowOverride).outcome s =
        (Dispatch.execute exec (some recv) chosen method args allowOverride).outcome s₀ := by
      rw [Dispatch.invoke, outcome_bind_of_ok hchoose]
      split
      · rename_i code source heq
        exact absurd heq (hbody code source)
      · rfl
    rw [hinvoke]
    exact hnil.nilAnswer htype
  · intro s cls method args chosen hchoose hnil
    rw [Dispatch.callStatic, outcome_bind_of_ok hchoose]
    exact hnil.nilAnswer htype

/-! ## A session whose methods find nothing -/

/-- A class whose methods leave nil: `next` for an object by pointer, and `size` for a number by pointer. -/
def searchClass : Script.ClassSpec Script.Expr Script.Stmt := {
  name := "Node"
  shape := .script
  members := [
    .method "next" { result := some (.object "Node", .ptr) } [],
    .method "size" { result := some (.int .int32, .ptr) } []] }

/-- A session that registers the class and makes an object of it. -/
def searchRun : Except Fault Value × State :=
  andThen (start {} []) 6 (.list [
    .perform (.defineClass searchClass) none,
    .perform (.create (.named "Node") .script (.map []) false) (some "x")])

/-- The object of the session. -/
def searchObject : Handle := ⟨⟨0, ⟨0, ⟨0, 0⟩⟩, 0, "Node"⟩, false⟩

/-- Selects an overload of a method and runs its body. -/
def probe (method : String) : Run (Dispatch.Selected × Value) := do
  let chosen ← holding [] (Dispatch.choose (Script.interpreter 6).exec searchObject method {})
  let left ← holding [] (Dispatch.runBody (Script.interpreter 6).exec (some searchObject) chosen method true)
  return (chosen, left.1)

/-- What the probe of a method shows. -/
def probed (method : String) : Option (Option (Ty × Passing) × String × Bool) :=
  ((probe method).outcome searchRun.2).1.toOption.map fun shown =>
    (shown.1.overload.sig.result, shown.1.overload.body.sort, shown.2.isNil)

theorem exists_leavesNil {method : String} {type : Ty} {passing : Passing}
    (h : probed method = some (some (type, passing), "Native", true)) :
    ∃ chosen s₀,
      (holding ({} : CallArgs).values (Dispatch.choose (Script.interpreter 6).exec searchObject method {})).outcome
        searchRun.2 = (.ok chosen, s₀) ∧
      (∀ code source, chosen.overload.body ≠ .iterator code source) ∧
      LeavesNil (Script.interpreter 6).exec s₀ (some searchObject) chosen method {} true type passing := by
  obtain ⟨⟨_, _⟩, t, hprobe, hshown⟩ := exists_of_toOption h
  obtain ⟨chosen, s₀, hchoose, hrest⟩ := exists_of_outcome_bind hprobe
  obtain ⟨⟨u, updated⟩, s₁, hbody, hpure⟩ := exists_of_outcome_bind hrest
  obtain ⟨rfl, rfl⟩ := Prod.mk.inj (eq_of_outcome_pure hpure).1
  simp only [Prod.mk.injEq] at hshown
  obtain ⟨hresult, hsort, hnil⟩ := hshown
  obtain rfl : u = .nil := by
    cases u <;> first | rfl | cases hnil
  refine ⟨chosen, s₀, hchoose, fun code source heq => ?_, hresult, updated, s₁, hbody⟩
  rw [heq] at hsort
  simp [Body.sort] at hsort

/-- A method that finds no object answers nil. -/
theorem next_answers_nil : probed "next" = some (some (.object "Node", .ptr), "Native", true) ∧
    ∃ after, ((Dispatch.invoke (Script.interpreter 6).exec searchObject "next" {} true).outcome searchRun.2).1 =
      .ok (.nil, after) := by
  have hprobed : probed "next" = some (some (.object "Node", .ptr), "Native", true) := by decide +kernel
  obtain ⟨chosen, s₀, hchoose, hbody, hnil⟩ := exists_leavesNil hprobed
  have hanswer := (nil_crosses (Script.interpreter 6).exec (.object "Node") .ptr (by simp)).2.1 _ _ _ _ _ _ _ hchoose
    hbody hnil
  exact ⟨hprobed, hanswer.returned_iff.mpr ⟨rfl, rfl⟩⟩

/-- A method that finds no number fails, although nil passes as an argument of its declared type. -/
theorem missing_number_refused :
    ¬∀ (exec : Exec) (type : Ty) (passing : Passing), type ≠ .any →
      ∀ s s₀ recv method args allowOverride chosen,
        (holding args.values (Dispatch.choose exec recv method args)).outcome s = (.ok chosen, s₀) →
        (∀ code source, chosen.overload.body ≠ .iterator code source) →
        LeavesNil exec s₀ (some recv) chosen method args allowOverride type passing →
        ((∃ after, ((Dispatch.invoke exec recv method args allowOverride).outcome s).1 = .ok (.nil, after)) ↔
          ∃ c, convert s.toWorld type passing .nil = .ok c) := by
  intro hclaim
  have hprobed : probed "size" = some (some (.int .int32, .ptr), "Native", true) := by decide +kernel
  obtain ⟨chosen, s₀, hchoose, hbody, hnil⟩ := exists_leavesNil hprobed
  obtain ⟨after, hreturned⟩ := (hclaim _ (.int .int32) .ptr (by simp) _ _ _ _ _ _ _ hchoose hbody hnil).mpr
    ⟨_, convert_nil _ _ rfl⟩
  have hfails : ((Dispatch.invoke (Script.interpreter 6).exec searchObject "size" {} true).outcome
      searchRun.2).1.isOk = false := by
    decide +kernel
  rw [hreturned] at hfails
  cases hfails

end Session

end ObjectBridge
