import ObjectBridge.Options.Reader
import ObjectBridge.Script.Interpreter

/-!
# Sessions

A session performs steps one after the other on one state. Each step has an outcome, and leaves a
number of live objects and the values that were logged meanwhile.
-/

namespace ObjectBridge

/-- What a step ended in, and the state it left. -/
structure Report where
  outcome : Except Fault Value
  world : World
  live : Nat
  /-- The logged values in order, each with the world at the time. -/
  log : List (World × Value)

namespace Session

/-- The number of nested evaluations that a step may need. -/
def budget : Nat := 100000

/-- The activation that steps run in. -/
def outermost : Activation := { mode := .outside }

/-- A state in which nothing has happened yet. -/
def start (options : Options) (enums : List (String × EnumType)) : State :=
  { options := options, enums := enums, activations := [outermost] }

/-- Run an operation in a state, and forget how the outermost activation ended. -/
def run (act : Run α) (s : State) : Except Fault α × State :=
  let (outcome, s) := act.run.run s
  (outcome, { s with activations := s.activations.modifyHead fun a => { a with ended := none } })

/-- A session whose classes are the sample classes. -/
def preloaded (enums : List (String × EnumType)) : State :=
  let s := (run Samples.register (start {} [])).2
  { s with enums := enums ++ s.enums }

/-- Perform a step. -/
def perform (step : Script.Expr) (s : State) : Report × State :=
  let (outcome, s) := run ((Script.interpreter budget).eval step) { s with log := [] }
  (⟨outcome, s.toWorld, s.arena.live, s.log.reverse⟩, s)

/-- Perform steps in order. -/
def performAll (s : State) : List Script.Expr → List Report
  | [] => []
  | step :: rest =>
      let (report, s) := perform step s
      report :: performAll s rest

/-- Evaluate an expression outside of any body. -/
def evaluate (e : Script.Expr) : Run Value :=
  (Script.interpreter budget).evalOutside e

/-- Register written classes in order. -/
def defineAll : List (Script.ClassSpec Script.Expr Script.Stmt) → Run Unit
  | [] => return
  | spec :: rest => do
      let _ ← (Script.interpreter budget).defineClass spec
      defineAll rest

/-- Register an object of a class without fields, and keep its handle in a variable. -/
def addObject (name cls : String) (destroyed : Bool) : Run Unit := do
  let classes := (← get).classes
  let id ← Run.ofExcept (classes.require cls)
  let h ← Lifetime.create id ⟨.script, []⟩ .managed
  if destroyed then
    Lifetime.destroy h
  Script.setVariable name (.object h)

end Session

end ObjectBridge
