import ObjectBridge.Call.Event
import ObjectBridge.Class.Summary
import ObjectBridge.Script.Definition
import ObjectBridge.Script.Primitive

/-!
# Operands of actions

What an action does before the operation itself: it evaluates its operands in order. Everything a
step has evaluated stays in use until the step is done with it: the object it works on, and the
operands before the last one.
-/

namespace ObjectBridge.Script

/-- How expressions are evaluated and bodies are run. -/
structure Interpreter where
  eval : Expr → Run Value
  exec : Exec

namespace Interpreter

variable (I : Interpreter)

/-- Evaluate expressions in order. -/
def evalAll : List Expr → Run (List Value)
  | [] => return []
  | e :: rest => do
      let v ← I.eval e
      let vs ← Run.holding [v] (evalAll rest)
      return v :: vs

/-- Evaluate keys and values in order. -/
def evalEntries : List (Expr × Expr) → Run (List (Value × Value))
  | [] => return []
  | (key, value) :: rest => do
      let k ← I.eval key
      let v ← Run.holding [k] (I.eval value)
      let entries ← Run.holding [k, v] (evalEntries rest)
      return (k, v) :: entries

/-- Evaluate the operands of an operation in order. What the operation keeps of an operand stays in
use, and no more of it. -/
def evalOperands (op : Primitive) : List Expr → Run (List Value)
  | [] => return []
  | e :: rest => do
      let v ← I.eval e
      let kept ← Run.ofExcept (op.keep (← get).toWorld v)
      let vs ← Run.holding [kept] (evalOperands op rest)
      return kept :: vs

/-- Evaluate an expression that must be an object, and go on while the object is in use. -/
def withObject (e : Expr) (act : Handle → Run α) : Run α := do
  let v ← I.eval e
  let h ← Run.ofExcept v.asHandle
  Run.holding [v] (act h)

/-- Evaluate two expressions that must be objects, and go on while they are in use. -/
def withObjects (left right : Expr) (act : Handle → Handle → Run α) : Run α :=
  I.withObject left fun h => I.withObject right fun k => act h k

/-- Evaluate the arguments of a call. -/
def arguments (args : List Expr) (keywords : List (String × Expr)) : Run CallArgs := do
  let positional ← I.evalAll args
  let named ← Run.holding positional (I.evalAll (keywords.map Prod.snd))
  return ⟨positional, (keywords.map Prod.fst).zip named⟩

/-- The value of an optional object. -/
def orNil (h : Option Handle) : Value :=
  (h.map Value.object).getD .nil

/-- A number as a value. -/
def count (n : Nat) : Value :=
  .uint (UInt64.ofNat n)

/-- The result of a call together with the arguments as they were left. -/
def withOutputs (v : Value) (args : CallArgs) : Value :=
  .map (ValueMap.record [
    ("result", v),
    ("args", .list args.positional),
    ("kw", .list (args.keywords.map Prod.snd))])

/-- Run an operation that changes the handlers of an event by a callable. -/
def onHandlers (object : Expr) (event operation name : String)
    (f : Handlers → Callable → Handlers) : Run Unit :=
  I.withObject object fun h => do
    let g ← callable name
    let _ ← Run.holding g.values <|
      Event.modifyHandlers I.exec h event operation fun hs => f hs g

/-- Run a block for one item, and tell the value with which it stops the iteration. -/
def runBlock (code : Code) (item : Value) : Run (Option Value) := do
  let body ← Run.activate { mode := .block, args := [item] } (I.exec code)
  return body.stopped?

/-- Evaluate an expression outside of any body. -/
def evalOutside (e : Expr) : Run Value :=
  Run.within (fun s => { s with activations := { mode := .outside } :: s.activations })
    (fun s => { s with activations := s.activations.tail }) (I.eval e)

/-- Register a written class. Its defaults and constants are evaluated outside of any body, each by
itself. -/
def defineClass (spec : ClassSpec Expr Stmt) : Run Value := do
  let draft ← spec.resolve I.evalOutside
  let (id, classes) ← Run.ofExcept ((← get).classes.define draft)
  modify fun s => { s with classes := classes }
  return ClassTable.number id

/-- Look the callables of overrides up. -/
def resolveCallables : List (String × String) → Run (List (String × Callable))
  | [] => return []
  | (method, name) :: rest => return (method, ← callable name) :: (← resolveCallables rest)

/-- Register a class with overrides, given as pairs of method and callable. -/
def defineSubclass (name base : String) (overrides : List (String × String)) : Run Value := do
  let callables ← resolveCallables overrides
  let (id, classes) ← Run.ofExcept ((← get).classes.defineSubclass name base callables)
  modify fun s => { s with classes := classes }
  return ClassTable.number id

end Interpreter

end ObjectBridge.Script
