import ObjectBridge.Enumeration.Flags

/-!
# Values and sets of flags together

The operators of enumerations accept values and sets of flags side by side. Combining two values
makes a set.
-/

namespace ObjectBridge

/-- A value of an enumeration or a set of its flags. -/
inductive EnumMember where
  | value (v : EnumValue)
  | flags (f : FlagSet)
  deriving DecidableEq, Repr

namespace EnumMember

/-- The member as a set of flags. -/
def toFlags : EnumMember → FlagSet
  | value v => .ofValue v
  | flags f => f

/-- The payload. -/
def payload : EnumMember → Int64
  | value v => v.payload
  | flags f => f.bits

/-- The text of a member. -/
def text : EnumMember → String
  | value v => v.text
  | flags f => f.text

/-- The text of a member for diagnostics. -/
def inspect : EnumMember → String
  | value v => v.inspect
  | flags f => f.text

/-- The bits that are not in a member. -/
def complement (m : EnumMember) : FlagSet :=
  m.toFlags.complement

/-- The bits of either member. -/
def union (m : EnumMember) : EnumMember → FlagSet
  | value v => m.toFlags.unionValue v
  | flags f => m.toFlags.union f

/-- The bits of both members. -/
def inter (m : EnumMember) : EnumMember → FlagSet
  | value v => m.toFlags.interValue v
  | flags f => m.toFlags.inter f

/-- The bits of exactly one of the members. -/
def symmDiff (m other : EnumMember) : FlagSet :=
  m.toFlags.symmDiff other.toFlags

/-- Whether every bit of a value is in a member. -/
def contains (m : EnumMember) (v : EnumValue) : Bool :=
  m.toFlags.contains v

end EnumMember

end ObjectBridge
