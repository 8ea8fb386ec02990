import ObjectBridge.Call.Construction
import ObjectBridge.Call.Dispatch
import ObjectBridge.Class.Summary
import ObjectBridge.Samples.Library
import ObjectBridge.Script.Operands
import ObjectBridge.Script.Primitive

/-!
# The interpreter

The rules are given for one level at a time, in terms of an interpreter for the parts of an
expression or a body. `interpreter` stacks as many levels as its budget says, and a run that needs
more of them is exhausted.
-/

namespace ObjectBridge.Script

namespace Interpreter

variable (I : Interpreter)

/-- Perform a call, and answer with the result and the arguments as the call left them. -/
def performCall : Call → Run (Value × CallArgs)
  | .construct cls args keywords => do
      let id ← classId cls
      let args ← I.arguments args keywords
      let (h, args) ← Construction.construct I.exec id args
      return (.object h, args)
  | .method e method args keywords => I.withObject e fun h => do
      Dispatch.call I.exec h method (← I.arguments args keywords)
  | .static cls method args keywords => do
      let id ← classId cls
      Dispatch.callStatic I.exec id method (← I.arguments args keywords)

/-- Perform an action. -/
def perform : Action → Run Value
  | .set e => I.eval e
  | .drop name => do
      dropVariable name
      return .nil
  | .boxSet box value => do
      let b ← Run.ofExcept (← I.eval box).asBox
      let v ← Run.holding [.box b] (I.eval value)
      modify fun s => { s with cells := s.cells.setIfInBounds b v }
      return .nil
  | .boxGet box => do
      let b ← Run.ofExcept (← I.eval box).asBox
      return (← get).cells.content b
  | .log e => do
      let v ← I.eval e
      modify fun s => { s with log := (s.toWorld, v) :: s.log }
      return .nil
  | .fail text native => Run.fail (if native then .native text else .host text)
  | .attempt code => do
      match ← Run.attempt (I.exec code) with
      | .ok _ => return .text "ok"
      | .error e => return .list [.text e.kind, .text e.message]
  | .callable name code => do
      newCallable name [] code
      return .nil
  | .closure name captures code => do
      let values ← I.evalAll (captures.map Prod.snd)
      newCallable name ((captures.map Prod.fst).zip values) code
      return .nil
  | .sameCallable name other => do
      let f ← callable other
      modify fun s => { s with callables := put name f s.callables }
      return .nil
  | .invoke name args => do
      let f ← callable name
      let values ← Run.holding f.values (I.evalAll args)
      let body ← Run.invoke I.exec f none values
      return body.result
  | .setArg index e => do
      setArgument index (← I.eval e)
      return .nil
  | .setState type field e => do
      let v ← I.eval e
      let recv ← receiver
      Run.holding [v] <|
        Lifetime.modifyNative I.exec recv type fun state => state.setField field v
      return .nil
  | .samples => do
      Samples.register
      return .nil
  | .defineClass spec => I.defineClass spec
  | .subclass name base overrides => defineSubclass name base overrides
  | .constant cls name => do
      let id ← classId cls
      let t := (← get).classes
      Run.orFail (.noSuchMethod (t.nameOf id) name) (t.constant? id name)
  | .enumType cls name => do
      let id ← classId cls
      let t := (← get).classes
      let type ← Run.orFail (.noSuchClass (t.nameOf id ++ "::" ++ name)) (t.enumType? id name)
      return type.summary
  | .classInfo cls => do
      let s ← get
      let c ← Run.ofExcept (s.classes.descriptor (← classId cls))
      return s.classes.summary s.cells c
  | .methodInfo cls method => do
      let s ← get
      return s.classes.methodSummary s.cells (← classId cls) method
  | .classTable => return (← get).classes.tableSummary
  | .isSubclass cls base => do
      let id ← classId cls
      return .bool ((← get).classes.isSubclassOf id (← classId base))
  | .receiverIs cls => do
      let recv ← receiver
      let t := (← get).classes
      return .bool (t.isSubclassOf recv.cls (← Run.ofExcept (t.require cls)))
  | .count cls => do
      let id ← classId cls
      let s ← get
      return .list [count (s.arena.instanceCount id), count (Lifetime.familyCount s id)]
  | .instanceCount cls => do
      let id ← classId cls
      return count ((← get).arena.instanceCount id)
  | .openStreams => return count (← get).openStreams
  | .reclaim => return count (← Lifetime.reclaim)
  | .options => do
      let o := (← get).options
      return .list [count o.autoReclaim, count o.maxDepth, .bool o.traceCalls]
  | .create cls shape state unmanaged => do
      let id ← classId cls
      let fields ← Run.ofExcept (← I.eval state).asMap
      let keep := if unmanaged then Keep.unmanaged else .managed
      return .object (← Lifetime.create id ⟨shape, fields⟩ keep)
  | .newObject cls shape state => do
      let fields ← Run.ofExcept (← I.eval state).asMap
      let id ← Run.ofExcept ((← get).classes.require cls)
      return .object (← Lifetime.create id ⟨shape, fields⟩ .managed)
  | .destroy e => I.withObject e fun h => do
      Lifetime.destroy h
      return .nil
  | .isDestroyed e => I.withObject e fun h => do
      return .bool ((← get).arena.isDestroyed h)
  | .manage e => I.withObject e fun h => do
      Lifetime.manage h
      return .nil
  | .unmanage e => I.withObject e fun h => do
      Lifetime.unmanage h
      return .nil
  | .handleState e => I.withObject e fun h => do
      return .text ((← get).arena.handleState h).name
  | .inspect e => I.withObject e fun h => do
      let w := (← get).toWorld
      return .list [.text (Lifetime.inspect w h), .text (Lifetime.handleText w h)]
  | .dup e => I.withObject e fun h => do
      return .object (← Lifetime.dup I.exec h)
  | .assign target source => I.withObjects target source fun h k => do
      Lifetime.assign I.exec h k
      return .nil
  | .equals left right => I.withObjects left right fun h k => do
      return .bool (← Lifetime.equals I.exec h k)
  | .same left right => I.withObjects left right fun h k => do
      let equal := (← get).eqv (.object h) (.object k)
      return .list [.bool (h.sameObject k), .bool (h.sameProxy k), .bool equal]
  | .native e type => I.withObject e fun h => do
      return .map (Samples.shown (← Lifetime.native I.exec h type))
  | .nativeSet e type value => I.withObject e fun h => do
      let v ← I.eval value
      if type = "A" then
        let n ← Run.ofExcept (NativeType.decode .int32 v)
        Lifetime.modifyNative I.exec h type fun state =>
          state.setField "n" (NativeType.encode .int32 n)
      else
        let fields ← Run.ofExcept v.asMap
        Run.holding [v] <| Lifetime.modifyNative I.exec h type fun state =>
          { state with fields := fields }
      return .nil
  | .remember e name => I.withObject e fun h => do
      modify fun s => { s with references := put name h.target s.references }
      return .nil
  | .upgrade name => do
      match (← get).references.lookup name with
      | some r => return orNil (← Lifetime.upgrade r)
      | none => return .nil
  | .upgradePair e => do
      match Primitive.pairReference? (← I.eval e) with
      | some r => return orNil (← Lifetime.upgrade r)
      | none => return .nil
  | .install cls seat e => do
      let id ← classId cls
      let v ← I.eval e
      let h ← Run.ofExcept (NativeType.decode (.option .handle) v)
      Lifetime.install id seat h
      return .nil
  | .occupant cls seat => do
      let id ← classId cls
      return orNil (← Lifetime.occupant id seat)
  | .call c => do
      let (v, _) ← I.performCall c
      return v
  | .callBase e method args keywords => I.withObject e fun h => do
      let args ← I.arguments args keywords
      let (v, _) ← Dispatch.callBase I.exec h method args
      return v
  | .each e method args keywords block => I.withObject e fun h => do
      let args ← I.arguments args keywords
      Dispatch.each I.exec h method args (I.runBlock block)
  | .eventSet e event name => do
      I.onHandlers e event "event_set" name fun _ f => Handlers.set f
      return .nil
  | .eventAdd e event name => do
      I.onHandlers e event "event_add" name Handlers.add
      return .nil
  | .eventRemove e event name => do
      I.onHandlers e event "event_remove" name fun hs f => hs.remove f
      return .nil
  | .eventClear e event => I.withObject e fun h => do
      let _ ← Event.modifyHandlers I.exec h event "event_clear" fun _ => []
      return .nil
  | .eventCount e event => I.withObject e fun h => do
      let handlers ← Event.modifyHandlers I.exec h event "event_handler_count" id
      return count handlers.length
  | .trigger e event args => I.withObject e fun h => do
      let args ← I.evalAll args
      Event.trigger I.exec h event args
      return .nil

/-- Evaluate an expression, given an interpreter for its parts. -/
def evalExpr : Expr → Run Value
  | .lit l => return l.value
  | .enumOf key payload => return .enum (.ofPayload (← declaredEnum key) payload)
  | .flagsOf key payload => return .flags (.ofBits (← declaredEnum key) payload)
  | .list items => return .list (← I.evalAll items)
  | .map entries => do
      let entries ← I.evalEntries entries
      return .map (ValueMap.ofEntries (← get).eqv entries)
  | .box e => do Delivery.newBox (← I.eval e)
  | .var name => readVariable name
  | .constView e => do
      let h ← Run.ofExcept (← I.eval e).asHandle
      return .object h.asConst
  | .arg index => argument index
  | .argAs index type => argumentAs index type
  | .argCount => return ClassTable.number (← argumentCount)
  | .receiver => return .object (← receiver)
  | .state type field => do
      let state ← Lifetime.native I.exec (← receiver) type
      return state.field field
  | .primitive op operands => do
      let values ← I.evalOperands op operands
      Run.ofExcept (Primitive.apply (← get).toWorld op values)
  | .perform action dest => do
      let v ← I.perform action
      store dest v
      return v
  | .callOut call dest => do
      let (v, args) ← I.performCall call
      store dest v
      return withOutputs v args

/-- Run a statement, given an interpreter for its parts. -/
def execStmt : Stmt → Run Unit
  | .perform action dest => do store dest (← I.perform action)
  | .ret e => do finish (.value (← I.eval e))
  | .brk e => do finish (.stop (← I.eval e))
  | .branch condition yes no => do
      if ← Run.ofExcept (← I.eval condition).asBool then I.exec yes else I.exec no

/-- Run statements in order until the body ends. -/
def execCode : Code → Run Unit
  | [] => return
  | stmt :: rest => do
      execStmt I stmt
      if !(← hasEnded) then
        execCode rest

end Interpreter

/-- The interpreter with a budget of nested evaluations. -/
def interpreter : Nat → Interpreter
  | 0 => ⟨fun _ => throw .exhausted, fun _ => throw .exhausted⟩
  | budget + 1 => {
      eval := fun e => do
        Run.tick
        (interpreter budget).evalExpr e
      exec := fun code => do
        Run.tick
        (interpreter budget).execCode code }

end ObjectBridge.Script
