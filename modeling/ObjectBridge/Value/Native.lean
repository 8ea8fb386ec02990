import ObjectBridge.Decimal.Shortest
import ObjectBridge.Error
import ObjectBridge.Value.Basic

/-!
# Native values and their crossing

A native body works with values of native types. `NativeType.Carrier` gives each native type its
values, `NativeType.encode` makes a value of them and `NativeType.decode` takes a value apart again.

Integers of every width accept every integer and every enumeration payload and drop the bits they
have no room for; a size has as many bits as an address of the machine. An option is nil or the
encoding of its content, a sequence is a list.
-/

namespace ObjectBridge

/-- The types a native body can ask for. -/
inductive NativeType where
  | int8 | uint8 | int16 | uint16 | int32 | uint32 | int64 | uint64 | size
  | double | bool | text | bytes | handle | enum | flags | map | box
  | any
  | sequence (item : NativeType)
  | option (content : NativeType)
  deriving DecidableEq, Repr

namespace NativeType

/-- The values of a native type. -/
def Carrier : NativeType → Type
  | .int8 => Int8
  | .uint8 => UInt8
  | .int16 => Int16
  | .uint16 => UInt16
  | .int32 => Int32
  | .uint32 => UInt32
  | .int64 => Int64
  | .uint64 => UInt64
  | .size => USize
  | .double => Float
  | .bool => Bool
  | .text => String
  | .bytes => List UInt8
  | .handle => Handle
  | .enum => EnumValue
  | .flags => FlagSet
  | .map => ValueMap
  | .box => BoxId
  | .any => Value
  | .sequence item => List item.Carrier
  | .option content => Option content.Carrier

/-- The value of a native value. -/
def encode : (t : NativeType) → t.Carrier → Value
  | .int8, (n : Int8) => .int n.toInt64
  | .uint8, (n : UInt8) => .uint n.toUInt64
  | .int16, (n : Int16) => .int n.toInt64
  | .uint16, (n : UInt16) => .uint n.toUInt64
  | .int32, (n : Int32) => .int n.toInt64
  | .uint32, (n : UInt32) => .uint n.toUInt64
  | .int64, n => .int n
  | .uint64, n => .uint n
  | .size, (n : USize) => .uint n.toUInt64
  | .double, x => .float x
  | .bool, b => .bool b
  | .text, s => .text s
  | .bytes, data => .bytes data
  | .handle, h => .object h
  | .enum, e => .enum e
  | .flags, f => .flags f
  | .map, entries => .map entries
  | .box, b => .box b
  | .any, v => v
  | .sequence item, xs => .list (xs.map item.encode)
  | .option _, none => .nil
  | .option content, some x => content.encode x

/-- The failure to take a value for a type. -/
def unexpected (expected : String) (v : Value) : Except Error α :=
  .error (.unexpectedValue expected v.typeName)

/-- The 64 bits of an integer or of an enumeration payload. -/
def word? : Value → Option UInt64
  | .int n => some n.toUInt64
  | .uint n => some n
  | .enum e => some e.payload.toUInt64
  | .flags f => some f.bits.toUInt64
  | _ => none

/-- Take an integer of any width, keeping the bits that `narrow` keeps. -/
def decodeWord (name : String) (narrow : UInt64 → α) (v : Value) : Except Error α :=
  match word? v with
  | some w => .ok (narrow w)
  | none => unexpected name v

/-- Take the parts of a sequence in order, up to the first failure. -/
def decodeAll (decodeItem : Value → Except Error α) : List Value → Except Error (List α)
  | [] => .ok []
  | v :: rest =>
      match decodeItem v with
      | .error e => .error e
      | .ok x =>
          match decodeAll decodeItem rest with
          | .error e => .error e
          | .ok xs => .ok (x :: xs)

/-- Take a value for a native type. -/
def decode : (t : NativeType) → Value → Except Error t.Carrier
  | .int8 => decodeWord "int8" fun w => w.toUInt8.toInt8
  | .uint8 => decodeWord "uint8" UInt64.toUInt8
  | .int16 => decodeWord "int16" fun w => w.toUInt16.toInt16
  | .uint16 => decodeWord "uint16" UInt64.toUInt16
  | .int32 => decodeWord "int" fun w => w.toUInt32.toInt32
  | .uint32 => decodeWord "uint" UInt64.toUInt32
  | .int64 => decodeWord "long" UInt64.toInt64
  | .uint64 => decodeWord "ulong" id
  | .size => decodeWord "ulong" UInt64.toUSize
  | .double => fun
      | .float x => .ok x
      | .int n => .ok (Decimal.ofInteger64 n)
      | .uint n => .ok (Decimal.ofNatural64 n)
      | v => unexpected "double" v
  | .bool => fun
      | .bool b => .ok b
      | v => unexpected "bool" v
  | .text => fun
      | .text s => .ok s
      | v => unexpected "string" v
  | .bytes => fun
      | .bytes data => .ok data
      | .text s => .ok s.toUTF8.toList
      | v => unexpected "bytes" v
  | .handle => fun
      | .object h => .ok h
      | v => unexpected "object" v
  | .enum => fun
      | .enum e => .ok e
      | v => unexpected "enum" v
  | .flags => fun
      | .flags f => .ok f
      | .enum e => .ok (.ofValue e)
      | v => unexpected "flags" v
  | .map => fun
      | .map entries => .ok entries
      | v => unexpected "map" v
  | .box => fun
      | .box b => .ok b
      | v => unexpected "box" v
  | .any => fun v => .ok v
  | .sequence item => fun
      | .list items => decodeAll item.decode items
      | v => unexpected "list" v
  | .option content => fun v =>
      if v.isNil then .ok none else (content.decode v).map some

end NativeType

namespace Value

/-- The handle of an object. -/
def asHandle (v : Value) : Except Error Handle :=
  NativeType.handle.decode v

/-- The entries of a map. -/
def asMap (v : Value) : Except Error ValueMap :=
  NativeType.map.decode v

/-- The number of a box. -/
def asBox (v : Value) : Except Error BoxId :=
  NativeType.box.decode v

/-- The truth value of a bool. -/
def asBool (v : Value) : Except Error Bool :=
  NativeType.bool.decode v

/-- The signed word of an integer or a payload. -/
def asInt64 (v : Value) : Except Error Int64 :=
  NativeType.int64.decode v

/-- The number of a float or an integer. -/
def asDouble (v : Value) : Except Error Float :=
  NativeType.double.decode v

/-- The items of a list. -/
def asList (v : Value) : Except Error (List Value) :=
  (NativeType.sequence .any).decode v

end Value

end ObjectBridge
