import ObjectBridge.Keyed
import ObjectBridge.Script.Syntax

/-!
# Callables, overrides and handlers

Host code is handed around as callables, which are compared by identity alone. A callable keeps the
values that it captured in use, for as long as something keeps the callable. A class defined by host
code maps method names to callables, its `Overrides`. The `Handlers` of an event are an ordered set
of callables.
-/

namespace ObjectBridge

namespace Callable

/-- Host code that takes values along. -/
def make (serial : Nat) (captured : List (String × Value)) (code : Code) : Callable where
  serial := serial
  pieces := captured.map (fun entry => .captured entry.1 entry.2) ++ code.map .statement

/-- The statements of a callable. -/
def code (f : Callable) : Code :=
  f.pieces.filterMap fun
    | .statement stmt => some stmt
    | .captured .. => none

/-- What a callable took along: names of variables with their values. -/
def captured (f : Callable) : List (String × Value) :=
  f.pieces.filterMap fun
    | .captured name v => some (name, v)
    | .statement _ => none

/-- Whether two callables are one. -/
def same (f g : Callable) : Bool :=
  f.serial == g.serial

/-- The values that a callable captured. -/
def values (f : Callable) : List Value :=
  f.captured.map Prod.snd

end Callable

/-- The host code that replaces methods, by method name. -/
abbrev Overrides := List (String × Callable)

namespace Overrides

/-- The override of a method. -/
def get? (o : Overrides) (method : String) : Option Callable :=
  o.lookup method

/-- Set the override of a method. -/
def insert (method : String) (f : Callable) (o : Overrides) : Overrides :=
  put method f o

/-- The values that overrides captured. -/
def values (o : Overrides) : List Value :=
  o.flatMap fun entry => entry.2.values

/-- The overridden methods, ascending. -/
def names (o : Overrides) : List String :=
  FlagSet.sortedNames (o.map Prod.fst)

end Overrides

/-- The callables connected to an event, in the order of connection. -/
abbrev Handlers := List Callable

namespace Handlers

/-- The values that handlers captured. -/
def values (hs : Handlers) : List Value :=
  hs.flatMap Callable.values

/-- Whether a callable is connected. -/
def contains (hs : Handlers) (f : Callable) : Bool :=
  hs.any fun h => h.same f

/-- Connect one callable only. -/
def set (f : Callable) : Handlers :=
  [f]

/-- Connect a callable behind the others, unless it is connected already. -/
def add (hs : Handlers) (f : Callable) : Handlers :=
  if hs.contains f then hs else hs ++ [f]

/-- Disconnect the first occurrence of a callable. -/
def remove (f : Callable) : Handlers → Handlers
  | [] => []
  | h :: rest => if h.same f then rest else h :: remove f rest

/-- A change of the handlers of an event. -/
inductive Change where
  | set (f : Callable)
  | add (f : Callable)
  | remove (f : Callable)
  | clear

/-- The handlers after a change. -/
def change (hs : Handlers) : Change → Handlers
  | .set f => set f
  | .add f => hs.add f
  | .remove f => remove f hs
  | .clear => []

end Handlers

end ObjectBridge
