import ObjectBridge.IntegerType

/-!
# Enumerations

An enumeration is a table of names over the payloads of an integer type. Several names may share a
payload, and a payload may have no name: an `EnumValue` is then written as `#` and its number.

* `EnumType.payloadOf?` and `EnumType.nameOf?` take the first entry that fits;
* `EnumValue.text` and `EnumValue.parse?` write and read a value.
-/

namespace ObjectBridge

/-- The name of an enumeration, the integer type of its payloads and its entries in declaration
order. -/
structure EnumType where
  name : String
  backing : IntegerType
  entries : List (String × Int64)
  deriving DecidableEq, Repr

namespace EnumType

/-- Declare the entries in order; each payload is brought into the integer type. -/
def declare (name : String) (backing : IntegerType) (entries : List (String × Int64)) :
    EnumType where
  name := name
  backing := backing
  entries := entries.map fun (entry, payload) => (entry, backing.truncate payload)

/-- The payload of the first entry with a name. -/
def payloadOf? (t : EnumType) (name : String) : Option Int64 :=
  t.entries.lookup name

/-- The name of the first entry with a payload. -/
def nameOf? (t : EnumType) (payload : Int64) : Option String :=
  (t.entries.find? fun entry => entry.2 == payload).map Prod.fst

/-- Read a payload written as `#` and a number. -/
def numbered? (t : EnumType) (text : String) : Option Int64 :=
  match text.toList with
  | '#' :: digits => (Text.payload? digits).map t.backing.truncate
  | _ => none

end EnumType

/-- A payload of an enumeration. -/
structure EnumValue where
  type : EnumType
  payload : Int64
  deriving DecidableEq, Repr

namespace EnumValue

/-- The value with a payload, brought into the integer type of the enumeration. -/
def ofPayload (type : EnumType) (payload : Int64) : EnumValue :=
  ⟨type, type.backing.truncate payload⟩

/-- The value of a named entry. -/
def named? (type : EnumType) (name : String) : Option EnumValue :=
  (type.payloadOf? name).map (ofPayload type)

/-- Read the name of an entry, or `#` and a number. -/
def parse? (type : EnumType) (text : String) : Option EnumValue :=
  match type.payloadOf? text with
  | some payload => some (ofPayload type payload)
  | none => (type.numbered? text).map (ofPayload type)

/-- The first name of the payload. -/
def name? (v : EnumValue) : Option String :=
  v.type.nameOf? v.payload

/-- The name of the payload, or `#` and its number. -/
def text (v : EnumValue) : String :=
  match v.name? with
  | some name => name
  | none => "#" ++ v.type.backing.render v.payload

/-- The text followed by the number in brackets. -/
def inspect (v : EnumValue) : String :=
  v.text ++ " (" ++ v.type.backing.render v.payload ++ ")"

/-- Values are the same when their enumerations have one name and their payloads agree. -/
def same (v w : EnumValue) : Bool :=
  v.type.name == w.type.name && v.payload == w.payload

end EnumValue

end ObjectBridge
