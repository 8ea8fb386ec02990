import ObjectBridge.Text.Basic

/-!
# Integer types of a fixed width

A declared integer type is a number of bits and a signedness. A width outside 1 to 64 counts as
the nearest width inside. `truncate` brings a payload of 64 bits into the type by dropping the bits
above the width, and extends the sign of a signed type; `render` writes a payload as a number of the
type.
-/

namespace ObjectBridge

/-- A number of bits and a signedness. -/
structure IntegerType where
  bits : UInt8
  signed : Bool
  deriving DecidableEq, Repr

namespace IntegerType

/-! The types with a name of their own. -/

def int8 : IntegerType := ⟨8, true⟩
def uint8 : IntegerType := ⟨8, false⟩
def int16 : IntegerType := ⟨16, true⟩
def uint16 : IntegerType := ⟨16, false⟩
def int32 : IntegerType := ⟨32, true⟩
def uint32 : IntegerType := ⟨32, false⟩
def int64 : IntegerType := ⟨64, true⟩
def uint64 : IntegerType := ⟨64, false⟩

/-- The width in bits, between 1 and 64. -/
def width (t : IntegerType) : Nat :=
  max 1 (min 64 t.bits.toNat)

/-- A type has at least one bit. -/
theorem width_pos (t : IntegerType) : 1 ≤ t.width :=
  Nat.le_max_left _ _

/-- A type has no more bits than a word. -/
theorem width_le (t : IntegerType) : t.width ≤ 64 := by
  unfold width
  omega

/-- The number of values of the type. -/
def size (t : IntegerType) : Nat :=
  Nat.pow 2 t.width

/-- The name of the type in a signature. Every width without a name of its own is named like the
widest one. -/
def name (t : IntegerType) : String :=
  match t.bits.toNat, t.signed with
  | 8, true => "int8"
  | 8, false => "uint8"
  | 16, true => "int16"
  | 16, false => "uint16"
  | 32, true => "int"
  | 32, false => "uint"
  | _, true => "long"
  | _, false => "ulong"

/-- The word with the lowest bits of the width set. -/
def mask (t : IntegerType) : UInt64 :=
  if 64 ≤ t.width then 0xFFFFFFFFFFFFFFFF
  else (1 <<< UInt64.ofNat t.width) - 1

/-- Keep the bits of the width, and extend the sign of a signed type over the rest. -/
def truncate (t : IntegerType) (payload : Int64) : Int64 :=
  let kept := payload.toUInt64 &&& t.mask
  if t.signed then
    let gap := Int64.ofNat (64 - t.width)
    kept.toInt64 <<< gap >>> gap
  else kept.toInt64

/-- The decimal text of a payload, as a number of the type. -/
def render (t : IntegerType) (payload : Int64) : String :=
  if t.signed then Text.integerText payload.toInt
  else Text.naturalText (payload.toUInt64 &&& t.mask).toNat

end IntegerType

end ObjectBridge
