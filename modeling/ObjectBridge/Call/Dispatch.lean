import ObjectBridge.Call.Selection
import ObjectBridge.Call.Stream

/-!
# Calls

A call selects an overload and runs its body, or the override that stands in for it.

* Through a const handle only const overloads can be selected.
* A protected overload runs only on behalf of a native body, or of an override for the same object.
* An override runs instead of a virtual overload, unless the call asks for the native body. It does
  not stand in for an enumerable body, whose items are collected into a list.
-/

namespace ObjectBridge.Dispatch

/-- An overload that was selected for a call. -/
structure Selected where
  owner : String
  overload : Overload
  binding : Binding

/-- Whether the innermost frame may call protected methods of an object. -/
def mayAccess (s : State) (recv : Handle) : Bool :=
  match s.frames.head? with
  | some .native => true
  | some (.override target) => target == recv.target
  | _ => false

variable (exec : Exec)

/-- Select an overload for a call on an object. -/
def choose (recv : Handle) (method : String) (args : CallArgs) : Run Selected := do
  Lifetime.materialize exec recv method
  let s ← get
  let undefined := Error.noSuchMethod recv.className method
  let candidates ← Run.orFail undefined (s.classes.findMethod recv.cls method)
  let bound := candidates.overloads.filter fun o => !o.sig.isStatic
  if bound.isEmpty then
    Run.fail undefined
  let allowed := if s.isConst recv then bound.filter fun o => o.sig.isConst else bound
  if allowed.isEmpty then
    Run.fail (.constViolation candidates.owner method)
  let (overload, binding) ← Run.ofExcept
    (Selection.pick s.toWorld candidates.owner method allowed args)
  if overload.sig.isProtected && !mayAccess s recv then
    Run.fail (.protectedAccess candidates.owner method)
  return ⟨candidates.owner, overload, binding⟩

/-- Select an overload for a static call. -/
def chooseStatic (cls : ClassId) (method : String) (args : CallArgs) : Run Selected := do
  let s ← get
  let undefined := Error.noSuchMethod (s.classes.nameOf cls) method
  let candidates ← Run.orFail undefined (s.classes.findMethod cls method)
  let static := candidates.overloads.filter fun o => o.sig.isStatic
  if static.isEmpty then
    Run.fail undefined
  let (overload, binding) ← Run.ofExcept
    (Selection.pick s.toWorld candidates.owner method static args)
  if overload.sig.isProtected && s.frames.head? != some .native then
    Run.fail (.protectedAccess candidates.owner method)
  return ⟨candidates.owner, overload, binding⟩

/-- Run an override for an object, and answer with its result and what it made of the
arguments. -/
def runOverride (recv : Handle) (f : Callable) (params : List Param) (values : List Value) :
    Run (Value × List Value) := do
  let sent ← Delivery.outward params values
  let body ← Run.holding (values ++ sent) <|
    Run.inHostFrame (.override recv.target) (Run.invoke exec f (some recv) sent)
  return (body.result, Delivery.inward (← get).cells sent values)

/-- The override that stands in for an overload on an object. -/
def overrideFor (recv : Option Handle) (sig : Signature) (method : String)
    (allowOverride : Bool) : Run (Option (Handle × Callable)) := do
  match recv with
  | some h =>
      if allowOverride && sig.isVirtual then
        let i ← Lifetime.resolve h method
        return (i.overrides.bind fun o => o.get? method).map fun f => (h, f)
      else return none
  | none => return none

/-- Run the body of an overload or its override, and answer with the result and the arguments as
they were left. -/
def runBody (recv : Option Handle) (chosen : Selected) (method : String)
    (allowOverride : Bool) : Run (Value × List Value) := do
  let sig := chosen.overload.sig
  let values ← Delivery.prepare exec sig.params chosen.binding.values
  match ← overrideFor recv sig method allowOverride with
  | some (h, f) => runOverride exec h f sig.params values
  | none =>
      match chosen.overload.body with
      | .native code =>
          let body ← Lifetime.runNative exec recv values code
          return (body.result, body.args)
      | _ =>
          Run.fail (.native (chosen.owner ++ "::" ++ method ++ " cannot be called directly"))

/-- Run what was selected, write the arguments back and deliver the result. -/
def execute (recv : Option Handle) (chosen : Selected) (method : String) (args : CallArgs)
    (allowOverride : Bool) : Run (Value × CallArgs) := do
  let sig := chosen.overload.sig
  let (value, updated) ← Run.holding args.values (runBody exec recv chosen method allowOverride)
  let args ← Delivery.settle sig.params chosen.binding.sources updated args
  let value ← Run.holding args.values
    (Delivery.giveBack exec sig.result chosen.owner method value)
  return (value, args)

/-- Call a method of an object, and answer with the result and the arguments as the caller then
has them. -/
def invoke (recv : Handle) (method : String) (args : CallArgs) (allowOverride : Bool) :
    Run (Value × CallArgs) := do
  let chosen ← Run.holding args.values (choose exec recv method args)
  match chosen.overload.body with
  | .iterator .. =>
      let items ← Run.holding args.values <|
        Stream.withStream exec recv chosen.overload method chosen.binding.values <|
          Stream.collect exec chosen.overload.sig.result chosen.owner method
      return (.list items, args)
  | _ => execute exec (some recv) chosen method args allowOverride

/-- Call a method of an object. -/
def call (recv : Handle) (method : String) (args : CallArgs) : Run (Value × CallArgs) :=
  invoke exec recv method args true

/-- Call the native body of a method, whether or not it is overridden. -/
def callBase (recv : Handle) (method : String) (args : CallArgs) : Run (Value × CallArgs) :=
  invoke exec recv method args false

/-- Call a static method of a class. -/
def callStatic (cls : ClassId) (method : String) (args : CallArgs) : Run (Value × CallArgs) := do
  execute exec none (← chooseStatic cls method args) method args false

/-- Give the items of an enumerable method to a block one by one. The result is the value with
which the block stopped, or the object itself. -/
def each (recv : Handle) (method : String) (args : CallArgs)
    (block : Value → Run (Option Value)) : Run Value :=
  Run.holding args.values do
    let chosen ← choose exec recv method args
    let stopped ← Stream.withStream exec recv chosen.overload method chosen.binding.values <|
      Stream.drive exec chosen.overload.sig.result chosen.owner method block
    return stopped.getD (.object recv)

end ObjectBridge.Dispatch
