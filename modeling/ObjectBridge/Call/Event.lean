import ObjectBridge.Call.Arguments
import ObjectBridge.Lifetime.Native

/-!
# Events

An object keeps handlers for the events that its class declares. Triggering an event converts the
arguments to the declared types and runs the handlers that are connected at that moment, in order of
connection, until one fails.
-/

namespace ObjectBridge.Event

variable (exec : Exec)

/-- The declaration of an event of an object's class. -/
def declaration (h : Handle) (event : String) : Run EventInfo := do
  Run.orFail (.noSuchEvent h.className event) ((← get).classes.findEvent h.cls event)

/-- Change the handlers of an event, and answer with the handlers connected then. -/
def modifyHandlers (h : Handle) (event operation : String) (f : Handlers → Handlers) :
    Run Handlers := do
  Lifetime.materialize exec h operation
  let _ ← declaration h event
  let i ← Lifetime.resolve h operation
  let handlers := f ((i.handlers? event).getD [])
  Run.setArena ((← get).arena.modify h.target fun i => i.setHandlers event handlers)
  return handlers

/-- Convert the arguments of an event from a position on. -/
def convertArgs (w : World) (cls event : String) (position : Nat) :
    List (Param × Value) → Except Error (List Value)
  | [] => .ok []
  | (p, v) :: rest =>
      match Conversion.convert w p.type p.passing v with
      | .error _ => .error (.conversion p.type.name v.typeName position cls event)
      | .ok (v, _) => (convertArgs w cls event (position + 1) rest).map fun vs => v :: vs

/-- The error for a wrong number of arguments. -/
def wrongNumber (cls event : String) (expected given : Nat) : Error :=
  .native ("Event " ++ cls ++ "::" ++ event ++ " expects " ++ Text.naturalText expected ++
    " arguments, got " ++ Text.naturalText given)

/-- Run handlers in order until one fails. While one runs, those after it stay in use; it is let go
of when it has come to its end. -/
def runHandlers (h : Handle) (values : List Value) : Handlers → Run Unit
  | [] => return
  | f :: rest => do
      let _ ← Run.holding (Handlers.values rest) <|
        Run.inHostFrame .host (Run.invoke exec f (some h) values)
      runHandlers h values rest

/-- Run the handlers of an event. -/
def trigger (h : Handle) (event : String) (args : List Value) : Run Unit := do
  Run.holding args (Lifetime.materialize exec h event)
  let info ← declaration h event
  if args.length ≠ info.params.length then
    Run.fail (wrongNumber h.className event info.params.length args.length)
  let w := (← get).toWorld
  let values ← Run.ofExcept (convertArgs w h.className event 1 (info.params.zip args))
  let i ← Lifetime.resolve h event
  Run.holding (.object h :: args ++ values)
    (runHandlers exec h values ((i.handlers? event).getD []))

end ObjectBridge.Event
