import ObjectBridge.Proofs.Value.Native
import ObjectBridge.Proofs.Value.Wrapping

/-!
# Three ways to truncate

A number is brought into an integer type by masks and shifts of a word of 128 bits, a payload of an enumeration by masks
and shifts of a word of 64 bits, and a native integer takes the bits it has room for.  All three give the one number of
the type that differs from the given one by a multiple of `2 ^ width`.

The places that words are shifted by depend on the width only and are always fewer than the bits of the word: where
shifts are checked for this, no check fails.

* `Word.shift?`, `IntegerType.wrap?` and `IntegerType.truncate?` — the shifts with their checks.
* `IntegerType.wrap_toInt` — words of 128 bits and words of 64 bits.
* `NativeType.integerType?` and `NativeType.exists_decode` — native integers.
* `IntegerType.Truncates` and `IntegerType.truncations_agree` — all together.
-/

namespace ObjectBridge

/-! ## Checked shifts -/

/-- Shift a word in some direction, if the number of places is smaller than the number of bits. -/
def Word.shift? {m : Nat} (direction : BitVec m → Nat → BitVec m) (x : BitVec m) (places : Nat) : Option (BitVec m) :=
  if places < m then some (direction x places) else none

namespace IntegerType

/-- The value of an integer type for a word of 128 bits with a sign, as `wrap` makes it; every shift is checked. -/
def wrap? (t : IntegerType) (raw : BitVec 128) : Option Value := do
  let gap := 128 - t.width
  let kept := raw &&& (← Word.shift? (· >>> ·) (.allOnes 128) gap)
  if t.signed then
    let extended ← Word.shift? .sshiftRight (← Word.shift? (· <<< ·) kept gap) gap
    return .int (Int64.ofBitVec (extended.setWidth 64))
  else return .uint (UInt64.ofBitVec (kept.setWidth 64))

/-- The word with the lowest bits of the width set, as `mask` makes it; the shift is checked. -/
def mask? (t : IntegerType) : Option (BitVec 64) :=
  if 64 ≤ t.width then some (.allOnes 64) else (Word.shift? (· <<< ·) 1 t.width).map (· - 1)

/-- A payload brought into an integer type, as `truncate` brings it; every shift is checked. -/
def truncate? (t : IntegerType) (payload : Int64) : Option Int64 := do
  let gap := 64 - t.width
  let kept := payload.toBitVec &&& (← t.mask?)
  if t.signed then
    let extended ← Word.shift? .sshiftRight (← Word.shift? (· <<< ·) kept gap) gap
    return Int64.ofBitVec extended
  else return Int64.ofBitVec kept

variable (t : IntegerType)

/-- No shift of a word of 128 bits is refused. -/
theorem wrap?_eq (raw : BitVec 128) : t.wrap? raw = some (t.wrap raw.toInt) := by
  have hpos := t.width_pos
  -- A type has at least one bit, so the gap never is the whole word.
  have hgap : 128 - t.width < 128 := by omega
  unfold wrap? wrap
  simp only [Word.shift?, if_pos hgap, BitVec.ofInt_toInt, Option.bind_eq_bind, Option.bind_some, Option.pure_def]
  split <;> rfl

/-- The shift of a mask is not refused. -/
theorem mask?_eq : t.mask? = some t.mask.toBitVec := by
  have hle := t.width_le
  rw [toBitVec_mask]
  unfold mask? Word.shift?
  split
  · have heq : 64 - t.width = 0 := by omega
    rw [heq]
    rfl
  · rename_i hlt
    rw [if_pos (Nat.lt_of_not_le hlt)]
    exact congrArg some (Word.shiftLeft_sub_one ⟨t.width, Nat.lt_of_not_le hlt⟩)

/-- No shift of a payload is refused. -/
theorem truncate?_eq (payload : Int64) : t.truncate? payload = some (t.truncate payload) := by
  have hpos := t.width_pos
  have hle := t.width_le
  have hgap : 64 - t.width < 64 := by omega
  have hbits := t.toBitVec_truncate payload
  unfold truncate?
  simp only [mask?_eq, toBitVec_mask, Word.shift?, if_pos hgap, Option.bind_eq_bind, Option.bind_some, Option.pure_def,
    Word.and_allOnes_shiftRight _ hle, Word.sshiftRight_shiftLeft _ hpos hle]
  rw [← Int64.ofBitVec_toBitVec (t.truncate payload), hbits]
  split <;> rfl

/-! ## Words of 128 bits and words of 64 bits -/

/-- A payload as a value of its integer type. -/
def ofPayload (t : IntegerType) (payload : Int64) : Value :=
  if t.signed then .int payload else .uint payload.toUInt64

theorem number?_ofPayload (payload : Int64) : (Ty.int t).number? (t.ofPayload payload) = some (t.numberOf payload) := by
  unfold ofPayload numberOf
  split <;> rename_i hsigned <;> simp [Ty.number?, hsigned]

variable {t} {n m : Int} {u : Value}

/-- The value of the type with the number in the range is the value for every congruent number. -/
theorem eq_wrap (hu : (Ty.int t).number? u = some (t.reduce n)) : u = t.wrap n :=
  (Ty.wraps_wrap t n).iff_eq.mp ⟨t, t.reduce n, rfl, hu, t.represents_iff.mpr rfl⟩

variable (t)

/-- A payload becomes the same as number and as payload. -/
theorem wrap_toInt (payload : Int64) : t.wrap payload.toInt = t.ofPayload (t.truncate payload) := by
  refine (eq_wrap ?_).symm
  rw [number?_ofPayload, numberOf_truncate]

theorem wrap_eq_wrap_iff : t.wrap n = t.wrap m ↔ n ≡ m [ZMOD 2 ^ t.width] := by
  constructor
  · intro h
    have hread := Conversion.toInteger?_wrap t n
    rw [h, Conversion.toInteger?_wrap t m] at hread
    have hreduce : t.reduce m = t.reduce n := (Prod.mk.inj (Option.some.inj hread)).1
    exact (t.reduce_modEq n).symm.trans (hreduce ▸ t.reduce_modEq m)
  · intro h
    rw [← t.wrap_reduce n, t.reduce_congr h, t.wrap_reduce]

/-- With or without a sign, a word stands for the same number up to a multiple of `2 ^ 64`. -/
theorem toInt_modEq_toNat (payload : Int64) : payload.toInt ≡ payload.toUInt64.toNat [ZMOD 2 ^ 64] := by
  have hint : payload.toInt = Int.bmod payload.toBitVec.toNat (2 ^ 64) := BitVec.toInt_eq_toNat_bmod _
  rw [hint]
  exact Int.bmod_emod

end IntegerType

/-! ## Native integers -/

namespace NativeType

/-- The integer type of a native integer of a fixed width. -/
def integerType? : NativeType → Option IntegerType
  | .int8 => some .int8
  | .uint8 => some .uint8
  | .int16 => some .int16
  | .uint16 => some .uint16
  | .int32 => some .int32
  | .uint32 => some .uint32
  | .int64 => some .int64
  | .uint64 => some .uint64
  | _ => none

variable {type : NativeType} {t : IntegerType} {v : Value} {word : UInt64}

theorem int_eq_wrap (hsigned : t.signed = true) {k : Int64} (hk : k.toInt = Int.bmod word.toNat (2 ^ t.width)) :
    .int k = t.wrap word.toNat := by
  refine IntegerType.eq_wrap ?_
  rw [Ty.number?, if_pos hsigned, hk, IntegerType.reduce, if_pos hsigned]
  rfl

theorem uint_eq_wrap (hunsigned : t.signed = false) {k : UInt64} (hk : k.toNat = word.toNat % 2 ^ t.width) :
    .uint k = t.wrap word.toNat := by
  have hsigned : ¬t.signed = true := hunsigned ▸ Bool.false_ne_true
  refine IntegerType.eq_wrap ?_
  rw [Ty.number?, if_neg hsigned, hk, IntegerType.reduce, if_neg hsigned]
  rfl

/-- A native integer takes the bits of a word that it has room for. -/
theorem exists_decode (ht : type.integerType? = some t) (hv : word? v = some word) :
    ∃ x, type.decode v = .ok x ∧ type.encode x = t.wrap word.toNat := by
  have hdecode {α : Type} (name : String) (narrow : UInt64 → α) : decodeWord name narrow v = .ok (narrow word) := by
    rw [decodeWord, hv]
  -- Every type keeps the lowest bits; with a sign, the number that they stand for is the balanced remainder.
  cases type <;> try cases ht
  case int8 =>
      exact ⟨_, hdecode _ _, int_eq_wrap rfl ((Int8.toInt_toInt64 _).trans (BitVec.toInt_setWidth word.toBitVec))⟩
  case int16 =>
      exact ⟨_, hdecode _ _, int_eq_wrap rfl ((Int16.toInt_toInt64 _).trans (BitVec.toInt_setWidth word.toBitVec))⟩
  case int32 =>
      exact ⟨_, hdecode _ _, int_eq_wrap rfl ((Int32.toInt_toInt64 _).trans (BitVec.toInt_setWidth word.toBitVec))⟩
  case int64 => exact ⟨_, hdecode _ _, int_eq_wrap rfl (BitVec.toInt_eq_toNat_bmod _)⟩
  case uint8 => exact ⟨_, hdecode _ _, uint_eq_wrap rfl ((UInt8.toNat_toUInt64 _).trans (UInt64.toNat_toUInt8 _))⟩
  case uint16 => exact ⟨_, hdecode _ _, uint_eq_wrap rfl ((UInt16.toNat_toUInt64 _).trans (UInt64.toNat_toUInt16 _))⟩
  case uint32 => exact ⟨_, hdecode _ _, uint_eq_wrap rfl ((UInt32.toNat_toUInt64 _).trans (UInt64.toNat_toUInt32 _))⟩
  case uint64 => exact ⟨_, hdecode _ _, uint_eq_wrap rfl (Nat.mod_eq_of_lt word.toNat_lt).symm⟩

theorem unambiguous_of_integerType? (ht : type.integerType? = some t) : type.unambiguous = true := by
  cases type <;> first | rfl | cases ht

/-- A value with a word is read as a number that the word stands for. -/
theorem exists_toInteger? (hv : word? v = some word) :
    ∃ n cost, Conversion.toInteger? v = some (n, cost) ∧ n ≡ word.toNat [ZMOD 2 ^ 64] := by
  cases v with
  | int k =>
      obtain rfl := Option.some.inj hv
      exact ⟨_, _, rfl, IntegerType.toInt_modEq_toNat k⟩
  | uint k =>
      obtain rfl := Option.some.inj hv
      exact ⟨_, _, rfl, Int.ModEq.refl _⟩
  | enum e =>
      obtain rfl := Option.some.inj hv
      exact ⟨_, _, rfl, IntegerType.toInt_modEq_toNat e.payload⟩
  | flags f =>
      obtain rfl := Option.some.inj hv
      exact ⟨_, _, rfl, IntegerType.toInt_modEq_toNat f.bits⟩
  | _ => cases hv

/-- A value with a word is converted to the value for the number of the word. -/
theorem exists_convert (w : World) (t : IntegerType) (passing : Passing) (hv : word? v = some word) :
    ∃ cost, Conversion.convert w (.int t) passing v = .ok (t.wrap word.toNat, cost) := by
  obtain ⟨n, cost, hread, hn⟩ := exists_toInteger? hv
  have hbox : v.box? = none := by cases v <;> first | rfl | cases hv
  have hnil : v.isNil = false := by cases v <;> first | rfl | cases hv
  -- The number that is read and the word differ by a multiple of `2 ^ 64`, which no type of at most 64 bits tells.
  have hwrap : t.wrap n = t.wrap word.toNat := t.wrap_eq_wrap_iff.mpr (hn.of_dvd (pow_dvd_pow 2 t.width_le))
  refine ⟨cost, ?_⟩
  rw [Conversion.convert_scalar rfl, (Conversion.Opens.self v).throughBoxes_eq hbox hnil, Conversion.toScalar,
    Conversion.scalar?, hread, ← hwrap]
  rfl

end NativeType

/-! ## All three -/

namespace IntegerType

/-- What holds of truncation to an integer type.  A number becomes the only value of the type that stands for it, and
congruent numbers become the same; a payload becomes the same as payload and as number, and stays as it is when it is
truncated again; shifts that are checked never fail.  A native integer of the type takes the same number from a value
and from what the value is converted to. -/
structure Truncates (t : IntegerType) : Prop where
  wraps_iff : ∀ n u, (Ty.int t).Wraps n u ↔ u = t.wrap n
  wrap_eq_iff : ∀ n m, t.wrap n = t.wrap m ↔ n ≡ m [ZMOD 2 ^ t.width]
  wrap_payload : ∀ payload : Int64, t.wrap payload.toInt = t.ofPayload (t.truncate payload)
  truncate_again : ∀ payload, t.truncate (t.truncate payload) = t.truncate payload
  wrap_checked : ∀ raw : BitVec 128, t.wrap? raw = some (t.wrap raw.toInt)
  truncate_checked : ∀ payload, t.truncate? payload = some (t.truncate payload)
  native : ∀ type : NativeType, type.integerType? = some t → ∀ v word, NativeType.word? v = some word →
    ∀ w passing, ∃ u x cost, Conversion.convert w (.int t) passing v = .ok (u, cost) ∧
      type.decode v = .ok x ∧ type.decode u = .ok x ∧ type.encode x = u

/-- Numbers, payloads and native integers are truncated alike. -/
theorem truncations_agree (t : IntegerType) : Truncates t where
  wraps_iff n _ := (Ty.wraps_wrap t n).iff_eq
  wrap_eq_iff _ _ := t.wrap_eq_wrap_iff
  wrap_payload := t.wrap_toInt
  truncate_again := t.truncate_truncate
  wrap_checked := t.wrap?_eq
  truncate_checked := t.truncate?_eq
  native type ht v word hv w passing := by
    obtain ⟨x, hdecode, hencode⟩ := NativeType.exists_decode ht hv
    obtain ⟨cost, hconv⟩ := NativeType.exists_convert w t passing hv
    rw [← hencode] at hconv
    have hagain := NativeType.survives_iff.mpr (NativeType.unambiguous_of_integerType? ht) x
    exact ⟨type.encode x, x, cost, hconv, hdecode, hagain, rfl⟩

/-- The value of an enumeration of words without a sign that has all bits set. -/
def fullWord : Value :=
  .enum (.ofPayload Conversion.wordEnum (-1))

/-- All bits set are the greatest number of a type without a sign and minus one for a type with a sign, also for widths
that count as the nearest in bounds. -/
theorem fullWord_truncated :
    NativeType.integerType? .int16 = some .int16 ∧ NativeType.word? fullWord = some 0xFFFFFFFFFFFFFFFF ∧
      (∃ u x cost, Conversion.convert {} (.int .int16) .value fullWord = .ok (u, cost) ∧
        NativeType.int16.decode fullWord = .ok x ∧ NativeType.int16.decode u = .ok x ∧
        NativeType.int16.encode x = u) ∧
      IntegerType.wrap ⟨200, false⟩ (-1) = .uint 0xFFFFFFFFFFFFFFFF ∧ IntegerType.wrap ⟨0, true⟩ 1 = .int (-1) ∧
      (∃ raw : BitVec 128, raw.toInt = -1 ∧ IntegerType.wrap? ⟨0, true⟩ raw = some (.int (-1))) := by
  have hword : NativeType.word? fullWord = some 0xFFFFFFFFFFFFFFFF := by rfl
  refine ⟨rfl, hword, (truncations_agree .int16).native .int16 rfl _ _ hword {} .value, ?_, ?_, -1, rfl, ?_⟩
  · exact (truncations_agree ⟨200, false⟩).wrap_payload (-1)
  · exact (truncations_agree ⟨0, true⟩).wrap_payload 1
  · rw [(truncations_agree ⟨0, true⟩).wrap_checked]
    rfl

end IntegerType

end ObjectBridge
