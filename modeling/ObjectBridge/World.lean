import ObjectBridge.Arena.Handles
import ObjectBridge.Class.Table
import ObjectBridge.Value.Cells

/-!
# What values refer to

A value by itself is plain data. What its handles and boxes stand for is kept in a `World`: the
class table, the arena of objects and the cells of the boxes. A handle is held as long as it occurs
in some value that is still in use: one of those in use from outside, one that the world itself
holds, or the content of a cell in use. `World.heldHandles` lists them.
-/

namespace ObjectBridge

/-- The classes, the objects and the contents of the boxes. -/
structure World where
  classes : ClassTable := {}
  arena : Arena := {}
  cells : Cells := #[]

namespace World

/-- The values that the world itself holds: what belongs to the classes, and what belongs to the
objects. -/
def heldValues (w : World) : List Value :=
  w.classes.classes.flatMap ClassInfo.heldValues ++ w.arena.heldValues

/-- The handles in use, given the values that are in use from outside. -/
def heldHandles (w : World) (roots : List Value) : List Handle :=
  let values := roots ++ w.heldValues
  Value.listHandles ((w.cells.live values).map w.cells.content ++ values)

/-- Equality of values in a world. -/
def eqv (w : World) (v u : Value) : Bool :=
  Value.eqv w.cells v u

/-- Whether a handle forbids changes. -/
def isConst (w : World) (h : Handle) : Bool :=
  w.arena.isConst h

end World

end ObjectBridge
