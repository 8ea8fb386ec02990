import ObjectBridge.Proofs.Arena.Sharing
import ObjectBridge.Proofs.Run.Success
import ObjectBridge.Proofs.Script.Interpreter
import ObjectBridge.Session

/-!
# The states of a session

A session starts without objects and performs any steps in any order.  `Reachable` takes in the states
between two steps and also those in the middle of one: a step whose number of evaluations is limited stops
before the evaluation, the body or the sweep that would exceed the limit, and leaves the state of that
moment.

* `Session.Between` and `Session.Reachable` — the states.
* `Reachable.arises` — every reachable state arises from an empty arena by the steps of a custody.
* `Reachable.sound` — the anchors of handles and objects agree, if no generation was used up.
-/

namespace ObjectBridge

namespace Session

open Run

/-- Perform a step in the state in which the one before left the session. -/
def andThen (before : State) (budget : Nat) (step : Script.Expr) : Except Fault Value × State :=
  run ((Script.interpreter budget).eval step) { before with log := [] }

/-- A state between two steps of a session. -/
inductive Between : State → Prop
  | start (options : Options) (enums : List (String × EnumType)) : Between (start options enums)
  | preloaded (enums : List (String × EnumType)) : Between (preloaded enums)
  /-- A step comes to an end, with a value or an error. -/
  | step {s : State} (hs : Between s) (budget : Nat) (e : Script.Expr)
      (hended : (andThen s budget e).1 ≠ .error .exhausted) : Between (andThen s budget e).2

/-- A state at some moment of a session: between two steps, or where a limit on the evaluations of a step
makes it stop. -/
inductive Reachable : State → Prop
  | between {s : State} (hs : Between s) : Reachable s
  | during {s t : State} (hs : Between s) (budget steps : Nat) (e : Script.Expr)
      (hstopped : ((Script.interpreter budget).eval e).outcome
        { s with log := [], stepsLeft := some steps } = (.error .exhausted, t)) :
      Reachable { t with stepsLeft := none }

/-! ## Steps -/

/-- What is done after a step leaves arena and handles as they are, or lets go of a value. -/
theorem custody_path_run {α : Type} {act : Run α} {s : State} {out : α → List Value}
    (hact : Conserves act s [] out) :
    Custody.Path s.pinned (s.custody []) ((run act s).2.custody []) := by
  refine hact.path_nil.trans (custody_path_of_subset rfl rfl rfl ?_)
  intro v hv
  have hactivations : v ∈ ((act.outcome s).2.activations.modifyHead fun a =>
      { a with ended := none }).flatMap Activation.values →
      v ∈ (act.outcome s).2.activations.flatMap Activation.values := by
    cases (act.outcome s).2.activations with
    | nil => exact id
    | cons a rest =>
        simp only [List.modifyHead_cons, List.flatMap_cons, List.mem_append, Activation.values,
          Option.map_none, Option.toList_none, List.not_mem_nil, or_false]
        tauto
  have hsame : (run act s).2 = { (act.outcome s).2 with
      activations := (act.outcome s).2.activations.modifyHead fun a => { a with ended := none } } :=
    rfl
  rw [hsame] at hv
  simp only [State.mem_inUse_iff, State.mem_roots_iff] at hv ⊢
  tauto

/-- A run that comes to an end leaves a session without a limit on its steps. -/
theorem stepsLeft_run {α : Type} {act : Run α} {s : State} {out : α → List Value}
    (hact : Conserves act s [] out) (hended : (run act s).1 ≠ .error .exhausted)
    (hs : s.stepsLeft = none) : (run act s).2.stepsLeft = none := by
  have hsame : (run act s).1 = (act.outcome s).1 := rfl
  show (act.outcome s).2.stepsLeft = none
  rw [hsame] at hended
  rw [Conserves] at hact
  rcases heq : act.outcome s with ⟨result, t⟩
  rw [heq] at hact hended
  cases result with
  | ok x => exact hact.1.stepsLeft_eq hs
  | error fault =>
      cases fault with
      | raised e => exact hact.1.stepsLeft_eq hs
      | exhausted => exact absurd rfl hended

theorem custody_start (options : Options) (enums : List (String × EnumType)) :
    (start options enums).custody [] = Custody.empty := by
  have hnone (p : Proxy) : ¬(start options enums).cells.Reaches
      ((start options enums).inUse []) p := by
    rintro ⟨h, hh, -⟩
    exact absurd hh List.not_mem_nil
  have hclasses (o : Overrides) : o ∉ (start options enums).classes.allOverrides := by
    rintro ⟨c, hc, -⟩
    exact absurd hc List.not_mem_nil
  exact congrArg₂ (Custody.mk {}) (Set.eq_empty_of_forall_notMem hnone)
    (Set.eq_empty_of_forall_notMem hclasses)

/-! ## States between steps -/

/-- The sample classes fit together. -/
theorem exists_registered_preloaded :
    ∃ u, Samples.register.outcome (start {} []) = (.ok (), u) ∧ (preloaded []).classes = u.classes := by
  have hok : (Samples.register.outcome (start {} [])).1.isOk = true := by decide +kernel
  rcases hrun : Samples.register.outcome (start {} []) with ⟨result, u⟩
  rw [hrun] at hok
  cases result with
  | error fault => cases hok
  | ok _ => exact ⟨u, rfl, congrArg (fun left => left.2.classes) hrun⟩

theorem preloaded_ended :
    (run Samples.register (start {} [])).1 ≠ .error .exhausted := by
  obtain ⟨u, hrun, -⟩ := exists_registered_preloaded
  intro hstopped
  have hfailed : (Samples.register.outcome (start {} [])).1 = .error .exhausted := hstopped
  rw [hrun] at hfailed
  cases hfailed

theorem Between.arises {s : State} (hs : Between s) : s.Arises [] := by
  induction hs with
  | start options enums =>
      rw [State.Arises, custody_start]
  | preloaded enums =>
      have hrun := custody_path_run (s := Session.start {} []) Samples.conserves_registerSamples
      rw [custody_start] at hrun
      exact (hrun.mono (Set.empty_subset _)).trans (custody_path_of_subset rfl rfl rfl fun v hv => hv)
  | step hs budget e hended ih =>
      rename_i s
      have hclear : Custody.Path ∅ (s.custody [])
          (({ s with log := [] } : State).custody []) :=
        custody_path_of_subset rfl rfl rfl fun v hv => hv
      have hstep := custody_path_run (s := { s with log := [] })
        ((Script.interpreter_conservesAll budget).eval e _)
      exact ih.trans (hclear.trans (hstep.mono (Set.empty_subset _)))

theorem Between.stepsLeft_eq {s : State} (hs : Between s) : s.stepsLeft = none := by
  induction hs with
  | start options enums => rfl
  | preloaded enums =>
      have hregister : Conserves Samples.register (Session.start {} []) [] fun _ => [] :=
        Samples.conserves_registerSamples
      have hstart : (Session.start {} []).stepsLeft = none := rfl
      have hnone := stepsLeft_run hregister preloaded_ended hstart
      show (Session.run Samples.register (Session.start {} [])).2.stepsLeft = none
      exact hnone
  | step hs budget e hended ih =>
      exact stepsLeft_run ((Script.interpreter_conservesAll budget).eval e _) hended ih

/-! ## All states -/

theorem Reachable.arises {s : State} (hs : Reachable s) : s.Arises [] := by
  cases hs with
  | between hs => exact hs.arises
  | during hs budget steps e hstopped =>
      rename_i s t
      have hstart : Custody.Path ∅ (s.custody [])
          (({ s with log := [], stepsLeft := some steps } : State).custody []) :=
        custody_path_of_subset rfl rfl rfl fun v hv => hv
      have hpath := ((Script.interpreter_conservesAll budget).eval e
        { s with log := [], stepsLeft := some steps }).path_nil
      rw [hstopped] at hpath
      exact hs.arises.trans (hstart.trans ((hpath.mono (Set.empty_subset _)).trans
        (custody_path_of_subset rfl rfl rfl fun v hv => hv)))

theorem Reachable.stepsLeft_eq {s : State} (hs : Reachable s) : s.stepsLeft = none := by
  cases hs with
  | between hs => exact hs.stepsLeft_eq
  | during hs budget steps e hstopped => rfl

/-- In a reachable state the anchors of handles and objects agree. -/
theorem Reachable.sound {s : State} (hs : Reachable s)
    (hfew : ∀ slot, (s.arena.slotAt slot).removals < 2 ^ 32) : (s.custody []).Sound :=
  hs.arises.sound hfew

/-- In a reachable state the numbers that the arena keeps agree with its slots. -/
theorem Reachable.balanced {s : State} (hs : Reachable s) : s.arena.Balanced :=
  hs.arises.balanced

/-- In a reachable state the overrides of every object are those of a class. -/
theorem Reachable.shared {s : State} (hs : Reachable s) : (s.custody []).Shared :=
  hs.arises.shared (Custody.shared_empty ∅ ∅) Arena.balanced_empty

/-! ## Sessions with nested objects -/

/-- A step that ends with a value leaves a state between two steps. -/
theorem Between.andThen {s : State} (hs : Between s) {budget : Nat} {step : Script.Expr}
    (hok : (andThen s budget step).1.isOk = true) : Between (andThen s budget step).2 := by
  refine .step hs budget step ?_
  intro hstopped
  rw [hstopped] at hok
  cases hok

/-- An object that holds the only handle of a second one, which holds the only handle of a third one, and so
on. -/
def nested : Nat → Script.Expr
  | 0 => .lit .nil
  | depth + 1 =>
      .perform (.create (.named "Node") .script (.map [(.lit (.text "next"), nested depth)]) false)
        none

/-- A session that registers a class and creates nested objects of it. -/
def nestedRun (depth : Nat) : Except Fault Value × State :=
  andThen (start {} []) (2 * depth + 2) (.list
    [.perform (.defineClass { name := "Node", shape := .script }) none, nested depth])

/-- A session that goes on from two nested objects with an object that a variable keeps. -/
def variableRun : Except Fault Value × State :=
  andThen (nestedRun 2).2 4
    (.perform (.create (.named "Node") .script (.map []) false) (some "kept"))

theorem between_nestedRun {depth : Nat} (hok : (nestedRun depth).1.isOk = true) :
    Between (nestedRun depth).2 :=
  (Between.start {} []).andThen hok

theorem reachable_variableRun : Reachable variableRun.2 :=
  .between ((between_nestedRun (by decide +kernel)).andThen (by decide +kernel))

/-! ## A session with objects that cross -/

/-- A class whose methods pass on what they are given: `alias` and `peek` return the receiver in a box, `same`
returns it as it is, `echo` returns its argument, and `bump` adds one to its argument. -/
def crossingClass : Script.ClassSpec Script.Expr Script.Stmt := {
  name := "Node"
  shape := .script
  members := [
    .method "alias" { result := some (.object "Node", .value) } [.ret (.box .receiver)],
    .method "peek" { result := some (.object "Node", .constRef) } [.ret (.box .receiver)],
    .method "same" { result := some (.object "Node", .value) } [.ret .receiver],
    .method "echo" { params := [{ name := "items", type := .list (.object "Node") }],
                     result := some (.any, .value) } [.ret (.arg 0)],
    .method "bump" { params := [{ name := "n", type := .int .int32, passing := .ref }] }
      [.perform (.setArg 0 (.primitive .add [.arg 0, .lit (.int 1)])) none]] }

/-- A session that registers the class, keeps an object of it in a variable `x` and a box in a variable `b`. -/
def crossingRun : Except Fault Value × State :=
  andThen (start {} []) 6 (.list [
    .perform (.defineClass crossingClass) none,
    .perform (.create (.named "Node") .script (.map []) false) (some "x"),
    .perform (.set (.box (.lit (.int 2147483647)))) (some "b")])

theorem between_crossingRun : Between crossingRun.2 :=
  (Between.start {} []).andThen (by decide +kernel)

/-- The object in the variable `x` of the session. -/
def crossingObject : Handle := ⟨⟨0, ⟨0, ⟨0, 0⟩⟩, 0, "Node"⟩, false⟩

theorem lookup_crossingObject :
    crossingRun.2.globals.lookup "x" = some (.object crossingObject) := by
  have hlookup : (crossingRun.2.globals.lookup "x").bind Value.handle? = some crossingObject := by
    decide +kernel
  obtain ⟨v, hv, hobject⟩ := Option.bind_eq_some_iff.mp hlookup
  rw [hv, Value.eq_object_of_handle? hobject]

theorem crossingObject_mem_handles : crossingObject ∈ crossingRun.2.handles :=
  (State.Occurs.variable (mem_of_lookup lookup_crossingObject)).mem_handles (by simp)

theorem covers_crossingObject (hand : List Value) :
    crossingRun.2.Covers hand (.object crossingObject) :=
  State.covers_of_mem_roots
    (State.mem_roots_iff.mpr (Or.inl (List.mem_map.mpr ⟨_, mem_of_lookup lookup_crossingObject, rfl⟩))) hand

/-- A step that calls a method on the object in a variable. -/
def callOn (name method : String) (args : List Script.Expr) : Script.Expr :=
  .perform (.call (.method (.var name) method args [])) none

/-- Every overload of a method is declared to return objects in one way. -/
def DeclaresObjects (s : State) (h : Handle) (method : String) (passing : Passing) : Prop :=
  ∀ candidates, s.classes.findMethod h.cls method = some candidates →
    ∀ o ∈ candidates.overloads, ∃ cls, o.sig.result = some (.object cls, passing)

theorem declaresObjects_of_all {s : State} {h : Handle} {method : String} {passing : Passing}
    (cls : String) (hall : (s.classes.findMethod h.cls method).all (fun candidates =>
      candidates.overloads.all fun o => o.sig.result == some (.object cls, passing)) = true) :
    DeclaresObjects s h method passing := by
  intro candidates hfound o ho
  rw [hfound, Option.all_some] at hall
  exact ⟨cls, eq_of_beq (List.all_eq_true.mp hall o ho)⟩

end Session

end ObjectBridge
