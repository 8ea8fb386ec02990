import ObjectBridge.Arena.Handles
import ObjectBridge.Options.Reader
import ObjectBridge.World

/-!
# The state of a running bridge

The state extends the world by what runs at the moment and by what host code remembers.

* The frames tell who runs: a native body, an override for one object, or other host code.
* An activation is a running body with its arguments and its own variables.
* `held` are values in the hands of an operation that is not finished, innermost operation first.

The values in use are the ones in variables, named callables, activations and unfinished operations
(`State.roots`); the handles they lead to are the ones in use (`State.handles`).
-/

namespace ObjectBridge

/-- Who is running. -/
inductive Frame where
  | native
  /-- An override, for the object named. -/
  | override (target : Reference)
  /-- An event handler or an iteration block. -/
  | host
  deriving DecidableEq, Repr

/-- What sort of body an activation runs. -/
inductive Mode where
  | native
  | host
  /-- An iteration block, which has an item instead of arguments. -/
  | block
  /-- No body: the steps of a session, and the defaults and constants of a class. -/
  | outside
  deriving DecidableEq, Repr

/-- How a body ended before its last statement: with a value, or with a value that ends the
iteration too. -/
inductive Ending where
  | value (v : Value)
  | stop (v : Value)
  deriving Repr

namespace Ending

/-- The value of an ending. -/
def content : Ending → Value
  | value v => v
  | stop v => v

end Ending

/-- A running body. -/
structure Activation where
  mode : Mode
  receiver : Option Handle := none
  args : List Value := []
  locals : List (String × Value) := []
  ended : Option Ending := none

namespace Activation

/-- The result of a body: the value it ended with, or nil. -/
def result (a : Activation) : Value :=
  match a.ended with
  | some ending => ending.content
  | none => .nil

/-- The value with which a block stopped the iteration, if it did. -/
def stopped? (a : Activation) : Option Value :=
  match a.ended with
  | some (.stop v) => some v
  | _ => none

/-- The values in use by a running body. -/
def values (a : Activation) : List Value :=
  (a.receiver.map Value.object).toList ++ a.args ++ a.locals.map Prod.snd ++
    (a.ended.map Ending.content).toList

end Activation

/-- The world, what runs and what host code remembers. -/
structure State extends World where
  options : Options := {}
  seats : List ((ClassId × String) × Seat) := []
  frames : List Frame := []
  /-- How many frames of host code there are. -/
  hostDepth : Nat := 0
  /-- Constructions since the last sweep. -/
  constructions : Nat := 0
  /-- Counting streams that are in use. -/
  openStreams : Nat := 0
  held : List (List Value) := []
  activations : List Activation := []
  globals : List (String × Value) := []
  references : List (String × Reference) := []
  callables : List (String × Callable) := []
  nextCallable : Nat := 0
  enums : List (String × EnumType) := []
  /-- How many more steps a run may take before it stops, if their number is limited. -/
  stepsLeft : Option Nat := none
  /-- Logged values, each with the world at the time, latest first. -/
  log : List (World × Value) := []

namespace State

/-- The values in use outside of the world. -/
def roots (s : State) : List Value :=
  s.globals.map Prod.snd ++ s.callables.flatMap (fun entry => entry.2.values) ++ s.held.flatten ++
    s.activations.flatMap Activation.values

/-- The handles in use. -/
def handles (s : State) : List Handle :=
  s.heldHandles s.roots

/-- The seat of a class with a name. -/
def seat (s : State) (cls : ClassId) (name : String) : Seat :=
  (s.seats.lookup (cls, name)).getD {}

end State

end ObjectBridge
