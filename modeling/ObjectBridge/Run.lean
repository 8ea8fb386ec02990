import ObjectBridge.Error
import ObjectBridge.State

/-!
# Runs

An operation is a run: it changes the state and ends with a result, with an error, or because its
step budget is exhausted. The state that a failed run leaves behind is kept.

`Run.within` changes the state for the time of a run and changes it back when the run ends with a
result or an error. The three ways of doing so are `Run.holding` for values in the hands of an
operation, `Run.inNativeFrame` and `Run.inHostFrame` for frames, and `Run.activate` for bodies.

A run that is exhausted stops where it is, and leaves the state of that moment. The moments at which
a run can be made to stop are the ones before an evaluation and before a sweep (`Run.tick`).
-/

namespace ObjectBridge

/-- Why a run has no result. -/
inductive Fault where
  | raised (e : Error)
  | exhausted
  deriving DecidableEq, Repr

/-- An operation on the state. -/
abbrev Run := ExceptT Fault (StateM State)

namespace Run

/-- End with an error. -/
def fail (e : Error) : Run α :=
  throw (.raised e)

/-- The result of a computation that may fail. -/
def ofExcept : Except Error α → Run α
  | .ok x => pure x
  | .error e => fail e

/-- The content of an option; an error if there is none. -/
def orFail (e : Error) : Option α → Run α
  | some x => pure x
  | none => fail e

/-- Change the arena. -/
def setArena (a : Arena) : Run Unit :=
  modify fun s => { s with arena := a }

/-- Stop here, or count one step less of those that are left. -/
def tick : Run Unit :=
  ExceptT.mk fun s =>
    match s.stepsLeft with
    | none => (.ok (), s)
    | some 0 => (.error .exhausted, s)
    | some (n + 1) => (.ok (), { s with stepsLeft := some n })

/-- Run with the state changed at entry and changed again at exit. -/
def within (enter leave : State → State) (act : Run α) : Run α :=
  ExceptT.mk fun s =>
    match act.run.run (enter s) with
    | (.error .exhausted, s) => (.error .exhausted, s)
    | (outcome, s) => (outcome, leave s)

/-- Run an operation and tell its error, if it ends with one. -/
def attempt (act : Run α) : Run (Except Error α) :=
  ExceptT.mk fun s =>
    match act.run.run s with
    | (.ok x, s) => (.ok (.ok x), s)
    | (.error (.raised e), s) => (.ok (.error e), s)
    | (.error .exhausted, s) => (.error .exhausted, s)

/-- Run while values stay in use. -/
def holding (values : List Value) (act : Run α) : Run α :=
  within (fun s => { s with held := values :: s.held }) (fun s => { s with held := s.held.tail })
    act

/-- Run in a native frame. -/
def inNativeFrame (act : Run α) : Run α :=
  within (fun s => { s with frames := .native :: s.frames })
    (fun s => { s with frames := s.frames.tail }) act

/-- Run in a frame of host code, unless host code is nested too deep already. -/
def inHostFrame (frame : Frame) (act : Run α) : Run α := do
  let s ← get
  if s.options.maxDepth ≤ s.hostDepth then
    fail (.native ("dispatch depth limit exceeded (" ++ Text.naturalText s.options.maxDepth ++ ")"))
  else
    within (fun s => { s with frames := frame :: s.frames, hostDepth := s.hostDepth + 1 })
      (fun s => { s with frames := s.frames.tail, hostDepth := s.hostDepth - 1 }) act

/-- Run a body to its end. -/
def activate (body : Activation) (act : Run Unit) : Run Activation :=
  within (fun s => { s with activations := body :: s.activations })
    (fun s => { s with activations := s.activations.tail }) do
      act
      return (← get).activations.headD body

/-- Change the running body. -/
def modifyActivation (f : Activation → Activation) : Run Unit :=
  modify fun s => { s with activations := s.activations.modifyHead f }

/-- Run an operation on every value in order. The values still to come and the results so far stay
in use. -/
def mapHeld (f : Value → Run Value) : List Value → Run (List Value)
  | [] => pure []
  | v :: rest => do
      let u ← holding rest (f v)
      let us ← holding [u] (mapHeld f rest)
      return u :: us

end Run

/-- How a body runs: in the activation made for it. -/
abbrev Exec := Code → Run Unit

/-- Run host code as a body of its own, which finds what the code captured among its variables. -/
def Run.invoke (exec : Exec) (f : Callable) (receiver : Option Handle) (args : List Value) :
    Run Activation :=
  Run.holding f.values <|
    Run.activate
      { mode := .host, receiver := receiver, args := args, locals := f.captured } (exec f.code)

end ObjectBridge
