import ObjectBridge.Run
import ObjectBridge.Value.Native

/-!
# Names and the running body

A name that begins with a dollar sign belongs to the running body; all other names belong to the
session. A name that was never set reads as nil.
-/

namespace ObjectBridge.Script

/-- Whether a name belongs to the running body. -/
def isLocal (name : String) : Bool :=
  name.startsWith "$"

/-- The value of a variable. -/
def readVariable (name : String) : Run Value := do
  let s ← get
  let entries := if isLocal name then s.activations.head?.elim [] Activation.locals else s.globals
  return (entries.lookup name).getD .nil

/-- Set a variable. -/
def setVariable (name : String) (v : Value) : Run Unit :=
  if isLocal name then Run.modifyActivation fun a => { a with locals := put name v a.locals }
  else modify fun s => { s with globals := put name v s.globals }

/-- Forget a variable. -/
def dropVariable (name : String) : Run Unit :=
  let others (entries : List (String × Value)) := entries.filter fun entry => entry.1 != name
  if isLocal name then Run.modifyActivation fun a => { a with locals := others a.locals }
  else modify fun s => { s with globals := others s.globals }

/-- Store the result of an action, if it is to be stored. -/
def store (dest : Option String) (v : Value) : Run Unit :=
  match dest with
  | some name => setVariable name v
  | none => pure ()

/-- The argument of the running body at a position; the item, in an iteration block. -/
def argument (index : Nat) : Run Value := do
  match (← get).activations.head? with
  | none => return .nil
  | some a =>
      match a.mode with
      | .block => return a.args.headD .nil
      | _ => return a.args.getD index .nil

/-- The argument of the running body at a position, taken as a native type. The item of an
iteration block is no argument and stays as it is. -/
def argumentAs (index : Nat) (type : NativeType) : Run Value := do
  let v ← argument index
  match (← get).activations.head?.map Activation.mode with
  | some .native | some .host => return type.encode (← Run.ofExcept (type.decode v))
  | _ => return v

/-- The number of arguments of the running body. -/
def argumentCount : Run Nat := do
  match (← get).activations.head? with
  | none => return 0
  | some a =>
      match a.mode with
      | .block => return 0
      | _ => return a.args.length

/-- Replace an argument of the running body; only native code has arguments that it can replace. -/
def setArgument (index : Nat) (v : Value) : Run Unit :=
  Run.modifyActivation fun a =>
    match a.mode with
    | .native => { a with args := a.args.set index v }
    | _ => a

/-- The object that the running body works on. -/
def receiver : Run Handle := do
  match (← get).activations.head? with
  | none => Run.fail (.host "no receiver")
  | some a =>
      match a.receiver, a.mode with
      | some h, _ => return h
      | none, .native => Run.fail (.native "static context has no receiver")
      | none, _ => Run.fail (.host "no receiver")

/-- End the running body. -/
def finish (ending : Ending) : Run Unit :=
  Run.modifyActivation fun a => { a with ended := some ending }

/-- Whether the running body has ended. -/
def hasEnded : Run Bool := do
  return (← get).activations.head?.any fun a => a.ended.isSome

/-- The callable with a name. -/
def callable (name : String) : Run Callable := do
  Run.orFail (.host ("Unknown callable " ++ name)) ((← get).callables.lookup name)

/-- Give a name to new host code, which captured values. -/
def newCallable (name : String) (captured : List (String × Value)) (code : Code) : Run Unit :=
  modify fun s => { s with
    callables := put name (.make s.nextCallable captured code) s.callables
    nextCallable := s.nextCallable + 1 }

/-- The enumeration that was declared under a key. -/
def declaredEnum (key : String) : Run EnumType := do
  Run.orFail (.host ("Unknown enumeration " ++ key)) ((← get).enums.lookup key)

/-- The number of a class. -/
def classId (cls : ClassRef) : Run ClassId := do
  match cls with
  | .named name => Run.ofExcept ((← get).classes.require name)
  | .numbered id => return id

end ObjectBridge.Script
