import ObjectBridge.Proofs.Run.Success
import ObjectBridge.Script.Interpreter

/-!
# Scripts that are stopped at certain requests

A script asks the runtime for something whenever it removes, constructs or defines, when it asks about classes, and when
a body has come to its end.  The restricted interpreter stops a script at the moment at which it makes a request that is
refused, after the operands were evaluated.  Nothing else is different about it, so a run that it does not stop makes
none of these requests, neither itself nor in a body that it leads to.

* `Script.Request` — what may be refused.
* `Script.restricted` — the interpreter that stops at what is refused.
* `leave_of_exec` — a body that comes to its end may be left.
-/

namespace ObjectBridge.Script

/-- What a script asks for. -/
inductive Request where
  | destroy (h : Handle)
  | reclaim
  | install (cls : ClassId) (seat : String) (next : Option Handle)
  | construct (cls : ClassId) (args : CallArgs)
  | define (draft : ClassDraft)
  | describe (cls : ClassId)
  /-- How many objects of a class have a native state, by itself and with the classes that derive from it. -/
  | count (cls : ClassId)
  | instanceCount (cls : ClassId)
  /-- To go on when a body has come to its end. -/
  | leave

/-- Which requests are refused, in which states. -/
abbrev Refusals := State → Request → Bool

/-- Stop if a request is refused. -/
def ask (refuses : Refusals) (r : Request) : Run Unit := do
  if refuses (← get) r then
    throw .exhausted

namespace Restricted

/-- Register classes in order, up to the first one that is refused or fails. -/
def registerAll (refuses : Refusals) : List ClassDraft → Run Unit
  | [] => return
  | d :: rest => do
      ask refuses (.define d)
      Samples.registerAll [d]
      registerAll refuses rest

variable (refuses : Refusals) (I : Interpreter)

/-- Perform a call. -/
def performCall : Call → Run (Value × CallArgs)
  | .construct cls args keywords => do
      let id ← classId cls
      let args ← I.arguments args keywords
      ask refuses (.construct id args)
      let (h, args) ← Construction.construct I.exec id args
      return (.object h, args)
  | call => I.performCall call

/-- Register a written class. -/
def defineClass (spec : ClassSpec Expr Stmt) : Run Value := do
  let draft ← spec.resolve I.evalOutside
  ask refuses (.define draft)
  let (id, classes) ← Run.ofExcept ((← get).classes.define draft)
  modify fun s => { s with classes := classes }
  return ClassTable.number id

/-- Perform an action. -/
def perform : Action → Run Value
  | .destroy e => I.withObject e fun h => do
      ask refuses (.destroy h)
      Lifetime.destroy h
      return .nil
  | .reclaim => do
      ask refuses .reclaim
      I.perform .reclaim
  | .install cls seat e => do
      let id ← classId cls
      let v ← I.eval e
      let h ← Run.ofExcept (NativeType.decode (.option .handle) v)
      ask refuses (.install id seat h)
      Lifetime.install id seat h
      return .nil
  | .samples => do
      registerAll refuses Samples.library
      modify fun s => { s with
        enums := put "UEnum" Samples.unsignedEnum (put "Enum" Samples.signedEnum s.enums) }
      return .nil
  | .defineClass spec => defineClass refuses I spec
  | .classInfo cls => do
      let id ← classId cls
      ask refuses (.describe id)
      I.perform (.classInfo (.numbered id))
  | .count cls => do
      let id ← classId cls
      ask refuses (.count id)
      I.perform (.count (.numbered id))
  | .instanceCount cls => do
      let id ← classId cls
      ask refuses (.instanceCount id)
      I.perform (.instanceCount (.numbered id))
  | .call c => do
      let (v, _) ← performCall refuses I c
      return v
  | action => I.perform action

/-- Evaluate an expression. -/
def evalExpr : Expr → Run Value
  | .perform action dest => do
      let v ← perform refuses I action
      store dest v
      return v
  | .callOut call dest => do
      let (v, args) ← performCall refuses I call
      store dest v
      return Interpreter.withOutputs v args
  | e => I.evalExpr e

/-- Run a statement. -/
def execStmt : Stmt → Run Unit
  | .perform action dest => do store dest (← perform refuses I action)
  | stmt => I.execStmt stmt

/-- Run statements in order until the body ends. -/
def execCode : Code → Run Unit
  | [] => return
  | stmt :: rest => do
      execStmt refuses I stmt
      if !(← hasEnded) then
        execCode rest

end Restricted

/-- The interpreter that stops at what is refused. -/
def restricted (refuses : Refusals) : Nat → Interpreter
  | 0 => interpreter 0
  | budget + 1 => {
      eval := fun e => do
        Run.tick
        Restricted.evalExpr refuses (restricted refuses budget) e
      exec := fun code => do
        Run.tick
        Restricted.execCode refuses (restricted refuses budget) code
        ask refuses .leave }

/-- A script goes on only if its request is not refused. -/
theorem outcome_ask (refuses : Refusals) (r : Request) (s : State) :
    (ask refuses r).outcome s = if refuses s r = true then (.error .exhausted, s) else (.ok (), s) := by
  rw [ask, Run.outcome_get_bind]
  split <;> rfl

/-- A body that comes to its end may be left. -/
theorem leave_of_exec {refuses : Refusals} {budget : Nat} {code : Code} {s t : State}
    (hrun : ((restricted refuses budget).exec code).outcome s = (.ok (), t)) : refuses t .leave = false := by
  cases budget with
  | zero => cases hrun
  | succ budget =>
      obtain ⟨-, u, -, hrest⟩ := Run.exists_of_outcome_bind hrun
      obtain ⟨-, v, -, hask⟩ := Run.exists_of_outcome_bind hrest
      rw [outcome_ask] at hask
      split at hask
      · cases hask
      · rename_i hrefused
        cases hask
        exact Bool.eq_false_iff.mpr hrefused

end ObjectBridge.Script
