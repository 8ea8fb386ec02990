import ObjectBridge.Proofs.Script.Course
import ObjectBridge.Proofs.Session.Reachable

/-!
# What runs at a moment of a session

A session comes to every state that is reachable by the steps of runs, from a beginning without classes and
objects.

* `Reachable.path` — the steps that lead to a state.
* `Reachable.numbered` and `Reachable.nested` — the classes and the bodies that run.
* `Between.running_eq` — between two steps of a session no body runs.
* `overridingRun` — a session with classes that override methods.
-/

namespace ObjectBridge.Session

open Run

variable {s : State}

/-- The end of the outermost activation is forgotten after a step. -/
theorem running_run {α : Type} (act : Run α) (s : State) :
    (run act s).2.running = (act.outcome s).2.running := by
  show State.running { (act.outcome s).2 with
    activations := (act.outcome s).2.activations.modifyHead fun a => { a with ended := none } } = _
  cases hactivations : (act.outcome s).2.activations with
  | nil => simp [State.running, hactivations]
  | cons a rest => simp [State.running, hactivations]

theorem path_run {α : Type} {act : Run α} (hact : Orderly act s) (hnum : s.classes.Numbered) :
    s.Path (run act s).2 :=
  (hact hnum).1.tail (.vary ⟨rfl, rfl⟩ (running_run act s))

/-- A session comes to a state between two steps by the steps of runs. -/
theorem Between.path (hs : Between s) : ∃ options enums, State.Path (Session.start options enums) s := by
  induction hs with
  | start options enums => exact ⟨options, enums, Relation.ReflTransGen.refl⟩
  | preloaded enums =>
      refine ⟨{}, [], ?_⟩
      have hregister := path_run (s := Session.start {} []) Samples.takes_registerSamples.orderly
        ClassTable.numbered_empty
      exact hregister.tail (.vary ⟨rfl, rfl⟩ rfl)
  | step hs budget e hended ih =>
      rename_i s
      obtain ⟨options, enums, hpath⟩ := ih
      have hstart : State.Path (Session.start options enums) { s with log := [] } :=
        hpath.tail (.vary ⟨rfl, rfl⟩ rfl)
      have hnum := State.Path.numbered hstart ClassTable.numbered_empty
      exact ⟨options, enums, hstart.trans (path_run ((Script.interpreter_orderly budget).eval e _) hnum)⟩

theorem Reachable.path (hs : Reachable s) : ∃ options enums, State.Path (Session.start options enums) s := by
  cases hs with
  | between hs => exact hs.path
  | during hs budget steps e hstopped =>
      rename_i s t
      obtain ⟨options, enums, hpath⟩ := hs.path
      have hstart : State.Path (Session.start options enums)
          { s with log := [], stepsLeft := some steps } := hpath.tail (.vary ⟨rfl, rfl⟩ rfl)
      have hnum := State.Path.numbered hstart ClassTable.numbered_empty
      have hrun := ((Script.interpreter_orderly budget).eval e _ hnum).1
      rw [hstopped] at hrun
      exact ⟨options, enums, (hstart.trans hrun).tail (.vary ⟨rfl, rfl⟩ rfl)⟩

/-- Every class of a reachable state stands under its number, behind its base. -/
theorem Reachable.numbered (hs : Reachable s) : s.classes.Numbered := by
  obtain ⟨options, enums, hpath⟩ := hs.path
  exact State.Path.numbered hpath ClassTable.numbered_empty

/-- The steps of a run lead from a state to the one after a step of the session. -/
theorem Reachable.path_andThen (hs : Reachable s) (budget : Nat) (step : Script.Expr) :
    State.Path { s with log := [] } (andThen s budget step).2 :=
  path_run ((Script.interpreter_orderly budget).eval step _) hs.numbered

/-- All that runs in a reachable state was started, one body inside of the other. -/
theorem Reachable.nested (hs : Reachable s) : s.running.Nested := by
  obtain ⟨options, enums, hpath⟩ := hs.path
  exact State.Path.nested hpath ((Running.nested_idle options).enter .outside)

/-- Between two steps of a session no body runs. -/
theorem Between.running_eq (hs : Between s) :
    s.running = { options := s.options, bodies := [(.outside, none)] } := by
  have hrestored {α : Type} {act : Run α} {t : State} (hact : Orderly act t)
      (hnum : t.classes.Numbered) (hended : (run act t).1 ≠ .error .exhausted) :
      (run act t).2.running = t.running :=
    (running_run act t).trans ((hact hnum).2 hended)
  induction hs with
  | start options enums => rfl
  | preloaded enums =>
      have hafter : (Session.preloaded enums).running = (Session.start {} []).running :=
        hrestored (t := Session.start {} []) Samples.takes_registerSamples.orderly ClassTable.numbered_empty
          preloaded_ended
      have hoptions : (Session.preloaded enums).options = {} := congrArg Running.options hafter
      rw [hafter, hoptions]
      rfl
  | step hs budget e hended ih =>
      rename_i s
      have hafter : (Session.andThen s budget e).2.running = s.running :=
        hrestored (t := { s with log := [] }) ((Script.interpreter_orderly budget).eval e _)
          (Reachable.between hs).numbered hended
      have hoptions : (Session.andThen s budget e).2.options = s.options := congrArg Running.options hafter
      rw [hafter, hoptions]
      exact ih

/-! ## A session with overrides -/

/-- A class with methods that answer false: `area` and `items` are virtual, and `items` is enumerable; `secret` is
protected. -/
def overriddenClass : Script.ClassSpec Script.Expr Script.Stmt := {
  name := "Node"
  shape := .script
  members := [
    .method "area" { result := some (.bool, .value), isVirtual := true } [.ret (.lit (.bool false))],
    .iterator "items" { result := some (.bool, .value), isVirtual := true }
      [.ret (.list [.lit (.bool false)])] [],
    .method "secret" { result := some (.bool, .value), isProtected := true }
      [.ret (.lit (.bool false))]] }

/-- A session that registers the class, a class `Sub` that overrides both virtual methods by a callable that answers
true, and a class `Leaf` that derives from `Sub` and overrides nothing, with an object `x` of `Sub` and an object `y`
of `Leaf`. -/
@[irreducible]
def overridingRun : Except Fault Value × State :=
  andThen (Session.start {} []) 6 (.list [
    .perform (.defineClass overriddenClass) none,
    .perform (.callable "f" [.ret (.lit (.bool true))]) none,
    .perform (.subclass "Sub" "Node" [("area", "f"), ("items", "f")]) none,
    .perform (.defineClass { name := "Leaf", base := some "Sub", shape := .script }) none,
    .perform (.create (.named "Sub") .script (.map []) false) (some "x"),
    .perform (.create (.named "Leaf") .script (.map []) false) (some "y")])

theorem between_overridingRun : Between overridingRun.2 := by
  unfold overridingRun
  exact (Between.start {} []).andThen (by decide +kernel)

/-- An object that has its native state, by its class. -/
theorem exists_instance {r : Reference} {id : ClassId}
    (hfacts : (s.arena.get? r).map (fun i => (i.isMaterialized, i.cls)) = some (true, id)) :
    ∃ i, s.arena.get? r = some i ∧ i.isMaterialized = true ∧ i.cls = id := by
  obtain ⟨i, hi, hsame⟩ := Option.map_eq_some_iff.mp hfacts
  obtain ⟨hmade, hcls⟩ := Prod.mk.inj hsame
  exact ⟨i, hi, hmade, hcls⟩

/-- The object in the variable `x` of the session. -/
def overridingObject : Handle := ⟨⟨0, ⟨0, ⟨0, 0⟩⟩, 1, "Sub"⟩, false⟩

theorem exists_overridingObject :
    ∃ i, overridingRun.2.arena.get? overridingObject.target = some i ∧ i.isMaterialized = true ∧ i.cls = 1 :=
  exists_instance (by decide +kernel)

/-- The object in the variable `y` of the session. -/
def derivedObject : Handle := ⟨⟨1, ⟨1, ⟨1, 0⟩⟩, 2, "Leaf"⟩, false⟩

theorem exists_derivedObject :
    ∃ i, overridingRun.2.arena.get? derivedObject.target = some i ∧ i.isMaterialized = true ∧ i.cls = 2 :=
  exists_instance (by decide +kernel)

/-- The session with overrides inside of the override of `area`, where it is stopped. -/
def insideOverride : Except Fault Value × State :=
  ((Script.interpreter 6).eval (callOn "x" "area" [])).outcome
    { overridingRun.2 with log := [], stepsLeft := some 2 }

/-- Whether a run was stopped. -/
def isStopped {α : Type} : Except Fault α → Bool
  | .error .exhausted => true
  | _ => false

theorem eq_of_isStopped {α : Type} {r : Except Fault α} (h : isStopped r = true) :
    r = .error .exhausted := by
  match r with
  | .ok x => cases h
  | .error (.raised e) => cases h
  | .error .exhausted => rfl

end ObjectBridge.Session
