import ObjectBridge.Decimal.Shortest
import ObjectBridge.Text.Quoted
import ObjectBridge.Value.Basic

/-!
# The displayed text of a value

Texts are quoted, bytes are counted, lists and maps are written in brackets and braces, an object
shows its class and a box its content.
-/

namespace ObjectBridge

namespace Value

mutual

/-- The text of a value, given the text of the content of a box. -/
def displayWith (content : BoxId → String) : Value → String
  | .nil => "nil"
  | .bool b => if b then "true" else "false"
  | .int n => Text.integerText n.toInt
  | .uint n => Text.naturalText n.toNat
  | .float x => Decimal.floatText x
  | .text s => Text.quoted s
  | .bytes data => "<" ++ Text.naturalText data.length ++ " bytes>"
  | .enum e => e.text
  | .flags f => f.text
  | .list items => "[" ++ Text.join ", " (listDisplayWith content items) ++ "]"
  | .map entries => "\x7b" ++ Text.join ", " (entriesDisplayWith content entries) ++ "\x7d"
  | .object h => "#<" ++ h.className ++ ">"
  | .box b => "#<box " ++ content b ++ ">"

/-- The texts of the items of a list. -/
def listDisplayWith (content : BoxId → String) : List Value → List String
  | [] => []
  | v :: rest => displayWith content v :: listDisplayWith content rest

/-- The texts of the entries of a map. -/
def entriesDisplayWith (content : BoxId → String) : List (Value × Value) → List String
  | [] => []
  | (k, v) :: rest =>
      (displayWith content k ++ "=>" ++ displayWith content v) :: entriesDisplayWith content rest

end

end Value

/-- The text of the content of a box, looking through at most `depth` boxes. -/
def Cells.contentText (cells : Cells) : Nat → BoxId → String
  | 0, _ => "..."
  | depth + 1, b => Value.displayWith (Cells.contentText cells depth) (cells.content b)

/-- The text of a value over the cells. -/
def Value.display (cells : Cells) (v : Value) : String :=
  Value.displayWith (cells.contentText cells.size) v

end ObjectBridge
