import ObjectBridge.Enumeration.Basic
import ObjectBridge.Text.Basic

/-!
# Sets of flags

A set of flags is a payload of an enumeration read as a set of bits. It is written as the names of
the entries it contains, joined by `|`, when those entries together make up the payload, and as a
plain number otherwise. The operations work on the payloads and bring the result into the integer
type of the left operand.
-/

namespace ObjectBridge

/-- A payload of an enumeration, read as a set of bits. -/
structure FlagSet where
  type : EnumType
  bits : Int64
  deriving DecidableEq, Repr

namespace FlagSet

/-- The set with a payload, brought into the integer type of the enumeration. -/
def ofBits (type : EnumType) (bits : Int64) : FlagSet :=
  ⟨type, type.backing.truncate bits⟩

/-- The set without flags. -/
def empty (type : EnumType) : FlagSet :=
  ofBits type 0

/-- The set with the bits of one value. -/
def ofValue (v : EnumValue) : FlagSet :=
  ofBits v.type v.payload

/-- The payload of one piece of a text: an entry's name, `#` and a number, or a number. -/
def piece? (type : EnumType) (piece : List Char) : Option Int64 :=
  let name := String.ofList piece
  (type.payloadOf? name).or ((type.numbered? name).or (Text.payload? piece))

/-- The union of the payloads of the pieces, if each piece has one. -/
def unionOfPieces? (type : EnumType) (acc : Int64) : List (List Char) → Option Int64
  | [] => some acc
  | piece :: rest => do
      unionOfPieces? type (acc ||| (← piece? type (Text.trimChars piece))) rest

/-- Read a plain number, or pieces joined by `|`. -/
def parse? (type : EnumType) (text : String) : Option FlagSet :=
  match Text.payload? (Text.trimChars text.toList) with
  | some bits => some (ofBits type bits)
  | none => (unionOfPieces? type 0 (Text.splitChars '|' text.toList)).map (ofBits type)

/-- Whether every bit of a value is in the set; a value without bits is in no set. -/
def contains (f : FlagSet) (v : EnumValue) : Bool :=
  v.payload != 0 && (f.bits &&& v.payload) == v.payload

/-- Insert a name into an ascending list without repetition. -/
def insertName (name : String) : List String → List String
  | [] => [name]
  | head :: rest =>
      if name < head then name :: head :: rest
      else if name = head then head :: rest
      else head :: insertName name rest

/-- Names in ascending order, each once. -/
def sortedNames (names : List String) : List String :=
  names.foldr insertName []

/-- The entries whose bits are all in the set and not none. -/
def covering (f : FlagSet) : List (String × Int64) :=
  f.type.entries.filter fun entry => entry.2 != 0 && (f.bits &&& entry.2) == entry.2

/-- The names that make up the set: for the empty payload the first name of zero, otherwise the
names of all entries inside, if together they have every bit. -/
def names? (f : FlagSet) : Option (List String) :=
  if f.bits = 0 then (f.type.nameOf? 0).map fun name => [name]
  else
    let inside := f.covering
    if inside.foldl (fun acc entry => acc ||| entry.2) 0 = f.bits then
      some (sortedNames (inside.map Prod.fst))
    else none

/-- The names joined by `|`, or the number. -/
def text (f : FlagSet) : String :=
  match f.names? with
  | some names => Text.join "|" names
  | none => f.type.backing.render f.bits

/-- The set with the bits that an operation makes of two payloads. -/
def combine (op : Int64 → Int64 → Int64) (f : FlagSet) (other : Int64) : FlagSet :=
  ofBits f.type (op f.bits other)

/-- The bits of either set. -/
def union (f g : FlagSet) : FlagSet :=
  combine (· ||| ·) f g.bits

/-- The bits of both sets. -/
def inter (f g : FlagSet) : FlagSet :=
  combine (· &&& ·) f g.bits

/-- The bits of exactly one of the sets. -/
def symmDiff (f g : FlagSet) : FlagSet :=
  combine (· ^^^ ·) f g.bits

/-- The set together with the bits of a value. -/
def unionValue (f : FlagSet) (v : EnumValue) : FlagSet :=
  combine (· ||| ·) f v.payload

/-- The bits of the set that a value has too. -/
def interValue (f : FlagSet) (v : EnumValue) : FlagSet :=
  combine (· &&& ·) f v.payload

/-- The bits of the type that are not in the set. -/
def complement (f : FlagSet) : FlagSet :=
  ofBits f.type (~~~f.bits)

/-- Sets are the same when their enumerations have one name and their payloads agree. -/
def same (f g : FlagSet) : Bool :=
  f.type.name == g.type.name && f.bits == g.bits

end FlagSet

end ObjectBridge
