import ObjectBridge.Enumeration.Flags
import ObjectBridge.Handle

/-!
# Values

A value is what crosses between host code and native code. Two kinds of value reach beyond
themselves: an object is a handle, and a box names a cell whose content is kept beside the values,
in an array of cells in order of creation.

The module also collects what values mention: `Value.listHandles` and `Value.listBoxes` list every
occurrence, in order.
-/

namespace ObjectBridge

/-- The number of a cell. -/
abbrev BoxId := Nat

/-- Any value that host code can pass or receive. -/
inductive Value where
  | nil
  | bool (b : Bool)
  | int (n : Int64)
  | uint (n : UInt64)
  | float (x : Float)
  | text (s : String)
  | bytes (data : List UInt8)
  | enum (e : EnumValue)
  | flags (f : FlagSet)
  | list (items : List Value)
  | map (entries : List (Value × Value))
  | object (h : Handle)
  | box (b : BoxId)
  deriving Inhabited, Repr

/-- The entries of a map in the order in which their keys appeared. -/
abbrev ValueMap := List (Value × Value)

/-- The contents of the cells, by number. -/
abbrev Cells := Array Value

/-- The content of a cell; a number without a cell reads as nil. -/
def Cells.content (cells : Cells) (b : BoxId) : Value :=
  cells.getD b .nil

namespace Value

/-- Whether a value is nil. -/
def isNil : Value → Bool
  | .nil => true
  | _ => false

/-- The name of the type of a value, as diagnostics give it. -/
def typeName : Value → String
  | .nil => "nil"
  | .bool _ => "bool"
  | .int _ => "int"
  | .uint _ => "uint"
  | .float _ => "float"
  | .text _ => "string"
  | .bytes _ => "bytes"
  | .enum e => e.type.name
  | .flags f => f.type.name ++ " flags"
  | .list _ => "list"
  | .map _ => "map"
  | .object h => h.className
  | .box _ => "box"

/-- The signed word of an integer, if it fits. -/
def int64? : Value → Option Int64
  | .int n => some n
  | .uint n => if n.toNat < Nat.pow 2 63 then some n.toInt64 else none
  | _ => none

/-- The unsigned word of an integer, if it fits. -/
def uint64? : Value → Option UInt64
  | .uint n => some n
  | .int n => if 0 ≤ n.toInt then some n.toUInt64 else none
  | _ => none

/-- The number of a float. -/
def float? : Value → Option Float
  | .float x => some x
  | _ => none

/-- The truth value of a bool. -/
def bool? : Value → Option Bool
  | .bool b => some b
  | _ => none

/-- The characters of a text. -/
def text? : Value → Option String
  | .text s => some s
  | _ => none

/-- The handle of an object. -/
def handle? : Value → Option Handle
  | .object h => some h
  | _ => none

/-- The items of a list. -/
def list? : Value → Option (List Value)
  | .list items => some items
  | _ => none

/-- The entries of a map. -/
def map? : Value → Option ValueMap
  | .map entries => some entries
  | _ => none

/-- The number of a box. -/
def box? : Value → Option BoxId
  | .box b => some b
  | _ => none

mutual

/-- The handles that occur in a value, in order and in front of others. -/
def addHandles (others : List Handle) : Value → List Handle
  | .object h => h :: others
  | .list items => addListHandles others items
  | .map entries => addEntryHandles others entries
  | _ => others

/-- The handles that occur in a list of values, in order and in front of others. -/
def addListHandles (others : List Handle) : List Value → List Handle
  | [] => others
  | v :: rest => addHandles (addListHandles others rest) v

/-- The handles that occur in the entries of a map, in order and in front of others. -/
def addEntryHandles (others : List Handle) : List (Value × Value) → List Handle
  | [] => others
  | (k, v) :: rest => addHandles (addHandles (addEntryHandles others rest) v) k

end

/-- Every occurrence of a handle in a list of values; the content of a box is not part of it. -/
def listHandles (vs : List Value) : List Handle :=
  addListHandles [] vs

mutual

/-- The boxes that occur in a value, in order and in front of others. -/
def addBoxes (others : List BoxId) : Value → List BoxId
  | .box b => b :: others
  | .list items => addListBoxes others items
  | .map entries => addEntryBoxes others entries
  | _ => others

/-- The boxes that occur in a list of values, in order and in front of others. -/
def addListBoxes (others : List BoxId) : List Value → List BoxId
  | [] => others
  | v :: rest => addBoxes (addListBoxes others rest) v

/-- The boxes that occur in the entries of a map, in order and in front of others. -/
def addEntryBoxes (others : List BoxId) : List (Value × Value) → List BoxId
  | [] => others
  | (k, v) :: rest => addBoxes (addBoxes (addEntryBoxes others rest) v) k

end

/-- Every occurrence of a box in a value; the content of a box is not part of it. -/
def boxes (v : Value) : List BoxId :=
  addBoxes [] v

/-- Every occurrence of a box in a list of values; the content of a box is not part of it. -/
def listBoxes (vs : List Value) : List BoxId :=
  addListBoxes [] vs

end Value

/-!
## Whole numbers as values of an integer type

Every whole number, however large, becomes a value of an integer type. The number is written in 128
bits, of which those of the width are kept; a signed type extends the sign over the rest. The result
is the one number of the type's range that differs from the whole number by a multiple of
`2 ^ width`.
-/

namespace IntegerType

/-- The value of an integer type for a whole number. -/
def wrap (t : IntegerType) (n : Int) : Value :=
  let gap := 128 - t.width
  let kept := BitVec.ofInt 128 n &&& (BitVec.allOnes 128 >>> gap)
  if t.signed then .int (Int64.ofBitVec (((kept <<< gap).sshiftRight gap).setWidth 64))
  else .uint (UInt64.ofBitVec (kept.setWidth 64))

end IntegerType

end ObjectBridge
