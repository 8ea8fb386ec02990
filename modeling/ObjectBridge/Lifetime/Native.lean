import ObjectBridge.Lifetime.Basic

/-!
# Native states of objects

An object whose construction is deferred gets its native state at the first operation that needs
it, by running the deferred constructor (`materialize`). With a native state, an object can be
copied, overwritten, compared and looked into, as far as the type of the state supports it.

All these operations may run a body. They take the way bodies run as the parameter `exec`.
-/

namespace ObjectBridge.Lifetime

variable (exec : Exec)

/-- Run a native body to its end. -/
def runNative (receiver : Option Handle) (args : List Value) (code : Code) : Run Activation :=
  Run.inNativeFrame
    (Run.activate { mode := .native, receiver := receiver, args := args } (exec code))

/-- The native state that the fields a constructor yields make up. -/
def stateOf (shape : Shape) (body : Activation) : Except Error NativeState :=
  body.result.asMap.map fun fields => ⟨shape, fields⟩

/-- Run the deferred constructor of an object, unless it has its native state. -/
def materialize (h : Handle) (operation : String) : Run Unit := do
  let i ← resolve h operation
  if i.isMaterialized then
    return
  let deferred ← Run.orFail (.native ("Class " ++ h.className ++ " has no deferred constructor"))
    ((← get).classes.findLazy i.cls)
  let body ← runNative exec none [] deferred.code
  let state ← Run.ofExcept (stateOf deferred.shape body)
  Run.setArena (← Run.ofExcept ((← get).arena.materialize h.target state))

/-- Register a copy of an object as an object of its own. -/
def dup (h : Handle) : Run Handle := do
  materialize exec h "dup"
  let i ← resolve h "dup"
  let copy ← Run.orFail (.native ("Class " ++ h.className ++ " cannot be copied"))
    (i.native.bind NativeState.copy?)
  let c ← Run.ofExcept ((← get).classes.descriptor i.cls)
  registerAs c (some copy) .managed i.overrides

/-- Overwrite the state of an object with that of another one, whose class is the same or derives
from it. -/
def assign (target source : Handle) : Run Unit := do
  if (← get).isConst target then
    Run.fail (.constViolation target.className "assign")
  materialize exec target "assign"
  materialize exec source "assign"
  let s ← get
  if !s.classes.isSubclassOf source.cls target.cls then
    Run.fail (.typeMismatch target.className source.className 1 target.className "assign")
  if target.sameObject source then
    return
  let (x, y) ← Run.orFail (.native "assign: instance state unavailable")
    (s.arena.pair? target.target source.target)
  let z ← Run.orFail (.native ("Class " ++ target.className ++ " does not support assign"))
    (x.assignFrom? y)
  Run.setArena (s.arena.setNative target.target z)

/-- Equality by value where the class defines it, and identity otherwise. -/
def equals (left right : Handle) : Run Bool := do
  materialize exec left "=="
  materialize exec right "=="
  let i ← resolve left "=="
  let j ← resolve right "=="
  let cells := (← get).cells
  let byValue :=
    match i.native, j.native with
    | some x, some y => x.equals? cells y
    | _, _ => none
  return byValue.getD (left.sameObject right)

/-- The state of an object, which must be of the type named. -/
def typedState (h : Handle) (type operation : String) : Run NativeState := do
  materialize exec h operation
  let i ← resolve h operation
  Run.orFail (.unexpectedValue type h.className)
    (i.native.filter fun state => state.shape.name == type)

/-- The state of an object, to read. -/
def native (h : Handle) (type : String) : Run NativeState :=
  typedState exec h type "native"

/-- Change the state of an object, which the handle must allow. -/
def modifyNative (h : Handle) (type : String) (f : NativeState → NativeState) : Run Unit := do
  if (← get).isConst h then
    Run.fail (.constViolation h.className "native_mut")
  let state ← typedState exec h type "native_mut"
  Run.setArena ((← get).arena.setNative h.target (f state))

end ObjectBridge.Lifetime
