import ObjectBridge.Value.Basic

/-!
# Equality of values

Values are compared by structure. Numbers of different kinds differ, floats are compared as
numbers, enumeration values by the name of their enumeration, objects by slot and generation, and
maps entry by entry in order. A box equals another when they are one cell or their contents are
equal.

`Value.eqvWith` takes the comparison of boxes as a parameter; `Cells.sameBox` supplies it, looking
through at most as many boxes as there are cells, which is enough unless a box contains itself.
-/

namespace ObjectBridge

namespace Value

mutual

/-- Equality of values, given the equality of boxes. -/
def eqvWith (sameBox : BoxId → BoxId → Bool) : Value → Value → Bool
  | .nil, .nil => true
  | .bool a, .bool b => a == b
  | .int a, .int b => a == b
  | .uint a, .uint b => a == b
  | .float a, .float b => a == b
  | .text a, .text b => a == b
  | .bytes a, .bytes b => a == b
  | .enum a, .enum b => a.same b
  | .flags a, .flags b => a.same b
  | .list as, .list bs => listEqvWith sameBox as bs
  | .map as, .map bs => entriesEqvWith sameBox as bs
  | .object a, .object b => a.sameObject b
  | .box a, .box b => sameBox a b
  | _, _ => false

/-- Item-wise equality of lists of one length. -/
def listEqvWith (sameBox : BoxId → BoxId → Bool) : List Value → List Value → Bool
  | [], [] => true
  | a :: as, b :: bs => eqvWith sameBox a b && listEqvWith sameBox as bs
  | _, _ => false

/-- Entry-wise equality of maps of one size, in order. -/
def entriesEqvWith (sameBox : BoxId → BoxId → Bool) :
    List (Value × Value) → List (Value × Value) → Bool
  | [], [] => true
  | (k, v) :: as, (l, w) :: bs =>
      eqvWith sameBox k l && eqvWith sameBox v w && entriesEqvWith sameBox as bs
  | _, _ => false

end

end Value

/-- Equality of boxes, looking through at most `depth` of them. -/
def Cells.sameBox (cells : Cells) : Nat → BoxId → BoxId → Bool
  | 0, a, b => a == b
  | depth + 1, a, b =>
      a == b || Value.eqvWith (Cells.sameBox cells depth) (cells.content a) (cells.content b)

/-- Equality of values over the cells. -/
def Value.eqv (cells : Cells) (v w : Value) : Bool :=
  Value.eqvWith (cells.sameBox cells.size) v w

end ObjectBridge
