import ObjectBridge.Call.Delivery

/-!
# Operations on values alone

What the operators of scripts do with the values of their operands.
-/

namespace ObjectBridge.Script.Primitive

/-- The text of a value without quotes around a text. -/
def bare (cells : Cells) : Value → String
  | .text s => s
  | v => v.display cells

/-- A set of flags, or an error. -/
def asFlags : Value → Except Error FlagSet
  | .flags f => .ok f
  | v => NativeType.unexpected "flags" v

/-- The number of items of a list, of bytes, or of the characters of a text. -/
def length : Value → Except Error Nat
  | .bytes data => .ok data.length
  | .text s => .ok s.length
  | v => v.asList.map List.length

/-- The slot and generation of an object, as integers. -/
def referencePair (h : Handle) : Value :=
  .list [.int (Int64.ofNat h.target.slot), .int (Int64.ofNat h.target.generation.toNat)]

/-- The reference that two integers make up. -/
def pairReference? : Value → Option Reference
  | .list [.int slot, .int generation] =>
      some ⟨slot.toInt.toNat, UInt32.ofNat generation.toInt.toNat⟩
  | _ => none

/-- What an operation keeps of an operand, which it takes as soon as the operand is evaluated. -/
def keep (w : World) : Primitive → Value → Except Error Value
  | .concat, v => .ok (.text (v.display w.cells))
  | .joined _, v => .ok (.text (bare w.cells v))
  | _, v => .ok v

/-- The characters of a text; none of any other value. -/
def characters (v : Value) : String :=
  v.text?.getD ""

/-- The result of an operation on what it kept of its operands. -/
def apply (w : World) : Primitive → List Value → Except Error Value
  | .add, [a, b] => do return .int ((← a.asInt64) + (← b.asInt64))
  | .addFloat, [a, b] => do return .float ((← a.asDouble) + (← b.asDouble))
  | .equal, [a, b] => .ok (.bool (w.eqv a b))
  | .concat, vs => .ok (.text (Text.join "" (vs.map characters)))
  | .joined separator, vs => .ok (.text (Text.join separator (vs.map characters)))
  | .present, [a] => .ok (.bool !a.isNil)
  | .append, [a, b] => do return .list ((← a.asList) ++ [b])
  | .put, [a, k, v] => do return .map (ValueMap.insert w.eqv k v (← a.asMap))
  | .count, [a] => do return .uint (UInt64.ofNat (← length a))
  | .union, [a, b] => do return .flags ((← asFlags a).union (← asFlags b))
  | .complement, [a] => do return .flags (← asFlags a).complement
  | .reference, [a] => if a.isNil then .ok .nil else a.asHandle.map referencePair
  | _, _ => .error (.host "wrong number of operands")

end ObjectBridge.Script.Primitive
