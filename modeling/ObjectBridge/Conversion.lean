import ObjectBridge.Decimal.Shortest
import ObjectBridge.Signature
import ObjectBridge.Value.Basic
import ObjectBridge.World

/-!
# Conversion to a declared type

A value becomes a value of a declared type, exactly or by an implicit conversion; which of the two
is told by the cost. The kind of passing decides about nil and about const objects.

* Any value passes for the type that admits everything, untouched.
* A box is looked through. One that holds nil stands for the zero of the type, or for nil where nil
  may pass; objects have no zero.
* Integers of every size are wrapped into the declared width and never fail.
* Lists and maps are converted item by item, with the rules for copies, and fail as a whole.
* An object must be alive and of the declared class or one that derives from it.
-/

namespace ObjectBridge

/-- Why a value does not become one of a declared type. -/
inductive Refusal where
  /-- The value has another type. -/
  | mismatch (expected actual : String)
  /-- The object is gone. -/
  | destroyed (cls : String)
  /-- A const object is passed where it may be changed. -/
  | constObject
  deriving DecidableEq, Repr

/-- A converted value and its cost: zero for an exact match, one if an implicit conversion was
needed. -/
abbrev Converted := Value × Nat

namespace Ty

/-- The value that a box holding nil stands for. -/
def zero : Ty → Value
  | .bool => .bool false
  | .int t => t.wrap 0
  | .double => .float 0
  | .text => .text ""
  | .bytes => .bytes []
  | .enum t => .enum (.ofPayload t 0)
  | .flags t => .flags (.empty t)
  | .list _ => .list []
  | .map _ _ => .map []
  | .object _ | .any => .nil

end Ty

namespace Conversion

/-- What is behind a value that may be a box, looking through at most `depth` boxes. -/
def behind (cells : Cells) : Nat → Value → Value
  | 0, v => v
  | depth + 1, .box b => behind cells depth (cells.content b)
  | _, v => v

/-- The number in the range of signed 128-bit words that is nearest to a whole number. -/
def saturated (n : Int) : Int :=
  let limit : Int := Nat.pow 2 127
  if n < -limit then -limit else if limit ≤ n then limit - 1 else n

/-- A whole number for an integer type. The whole part of a float is first brought into the range
of signed 128-bit words. -/
def toInteger? : Value → Option (Int × Nat)
  | .int n => some (n.toInt, 0)
  | .uint n => some (n.toNat, 0)
  | .float x => (Decimal.truncated? x).map fun n => (saturated n, 1)
  | .enum e => some (e.payload.toInt, 1)
  | .flags f => some (f.bits.toInt, 1)
  | _ => none

/-- A floating-point number. -/
def toDouble? : Value → Option (Float × Nat)
  | .float x => some (x, 0)
  | .int n => some (Decimal.ofInteger64 n, 1)
  | .uint n => some (Decimal.ofNatural64 n, 1)
  | _ => none

/-- A text, also from bytes that encode one. -/
def toText? : Value → Option (String × Nat)
  | .text s => some (s, 0)
  | .bytes data => (String.fromUTF8? ⟨data.toArray⟩).map fun s => (s, 1)
  | _ => none

/-- Bytes, also from a text by its encoding. -/
def toBytes? : Value → Option (List UInt8 × Nat)
  | .bytes data => some (data, 0)
  | .text s => some (s.toUTF8.toList, 1)
  | _ => none

/-- A payload of an enumeration: from a value of the enumeration, or from an integer. -/
def toPayload? (t : EnumType) (v : Value) : Option (Int64 × Nat) :=
  let number := v.int64?.map fun n => (n, 1)
  match v with
  | .enum e => if e.type.name = t.name then some (e.payload, 0) else number
  | _ => number

/-- The bits of a set of flags: from a set or a value of the enumeration, or from an integer. -/
def toBits? (t : EnumType) (v : Value) : Option (Int64 × Nat) :=
  let number := v.int64?.map fun n => (n, 1)
  match v with
  | .flags f => if f.type.name = t.name then some (f.bits, 0) else number
  | .enum e => if e.type.name = t.name then some (e.payload, 1) else number
  | _ => number

/-- An object for a class, by a kind of passing. -/
def toObject (w : World) (cls : String) (passing : Passing) (h : Handle) :
    Except Refusal Converted :=
  if w.arena.isDestroyed h then .error (.destroyed h.className)
  else
    match w.classes.lookup? cls with
    | none => .error (.mismatch cls h.className)
    | some expected =>
        if h.cls = expected ∨ w.classes.isSubclassOf h.cls expected then
          if passing.writesBack && w.isConst h then .error .constObject
          else .ok (.object h, if h.cls = expected then 0 else 1)
        else .error (.mismatch cls h.className)

/-- Convert items in order; any failure is a failure of the whole. The cost is the highest one. -/
def items? (item : Value → Except Refusal Converted) : List Value → Option (List Value × Nat)
  | [] => some ([], 0)
  | v :: rest =>
      match item v with
      | .error _ => none
      | .ok (v, cost) => (items? item rest).map fun (vs, more) => (v :: vs, max cost more)

/-- Convert entries in order; any failure is a failure of the whole. The cost is the highest one. -/
def entries? (key value : Value → Except Refusal Converted) :
    List (Value × Value) → Option (List (Value × Value) × Nat)
  | [] => some ([], 0)
  | (k, v) :: rest =>
      match key k, value v with
      | .ok (k, costK), .ok (v, costV) =>
          (entries? key value rest).map fun (kvs, more) =>
            ((k, v) :: kvs, max (max costK costV) more)
      | _, _ => none

/-- The converted value if there is one, and otherwise a mismatch of the type and the value. -/
def orMismatch (type : Ty) (v : Value) : Option Converted → Except Refusal Converted
  | some converted => .ok converted
  | none => .error (.mismatch type.name v.typeName)

/-- The converted form of a value for a type without parts, unless the types do not fit. -/
def scalar? : Ty → Value → Option Converted
  | .bool, v => v.bool?.map fun b => (.bool b, 0)
  | .int t, v => (toInteger? v).map fun (n, cost) => (t.wrap n, cost)
  | .double, v => (toDouble? v).map fun (x, cost) => (.float x, cost)
  | .text, v => (toText? v).map fun (s, cost) => (.text s, cost)
  | .bytes, v => (toBytes? v).map fun (data, cost) => (.bytes data, cost)
  | .enum t, v => (toPayload? t v).map fun (n, cost) => (.enum (.ofPayload t n), cost)
  | .flags t, v => (toBits? t v).map fun (n, cost) => (.flags (.ofBits t n), cost)
  | _, _ => none

/-- What nil becomes, inside a box or by itself. -/
def fromNil (type : Ty) (passing : Passing) (boxed : Bool) : Except Refusal Converted :=
  if passing.isNullable then .ok (.nil, 0)
  else if boxed && !type.isObject then .ok (type.zero, 0)
  else .error (.mismatch type.name Value.nil.typeName)

/-- Convert what is behind a value that may be a box. -/
def throughBoxes (w : World) (type : Ty) (passing : Passing) (v : Value)
    (exact : Value → Except Refusal Converted) : Except Refusal Converted :=
  let content := behind w.cells (w.cells.size + 1) v
  if content.isNil then fromNil type passing v.box?.isSome else exact content

/-- Convert a value to a declared type. -/
def convert (w : World) : Ty → Passing → Value → Except Refusal Converted
  | .any, _, v => .ok (v, 0)
  | .list item, passing, v =>
      throughBoxes w (.list item) passing v fun content =>
        orMismatch (.list item) content do
          let (vs, cost) ← items? (convert w item .value) (← content.list?)
          return (.list vs, cost)
  | .map key value, passing, v =>
      throughBoxes w (.map key value) passing v fun content =>
        orMismatch (.map key value) content do
          let (kvs, cost) ←
            entries? (convert w key .value) (convert w value .value) (← content.map?)
          return (.map (ValueMap.ofEntries w.eqv kvs), cost)
  | .object cls, passing, v =>
      throughBoxes w (.object cls) passing v fun content =>
        match content with
        | .object h => toObject w cls passing h
        | _ => .error (.mismatch cls content.typeName)
  | type, passing, v =>
      throughBoxes w type passing v fun content =>
        orMismatch type content (scalar? type content)

end Conversion

end ObjectBridge
