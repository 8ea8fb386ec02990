import Mathlib.Algebra.Order.Ring.Int
import Mathlib.Data.Int.Order.Lemmas
import Mathlib.Tactic.Positivity
import ObjectBridge.Conversion

/-!
# Numbers of a declared width

To bring a number into an integer type twice is to do it once.  A payload of 64 bits keeps its lowest bits, and
above these it has the sign of a signed type; a whole number of any size is reduced to the one that is congruent
to it.

* `Word.and_allOnes_shiftRight` and `Word.sshiftRight_shiftLeft` — what masks and shifts make of a word.
* `IntegerType.toBitVec_truncate` and `IntegerType.truncate_truncate` — payloads.
* `IntegerType.reduce` and `IntegerType.wrap_eq` — the number in the range that is congruent to a whole number.
* `IntegerType.wrap_reduce` and `Conversion.toInteger?_wrap` — whole numbers.
-/

namespace ObjectBridge

/-! ## Masks and shifts -/

namespace Word

variable {width m k : Nat}

/-- A mask of the lowest bits keeps these. -/
theorem and_allOnes_shiftRight (x : BitVec m) (h : width ≤ m) :
    x &&& (BitVec.allOnes m >>> (m - width)) = (x.setWidth width).setWidth m := by
  refine BitVec.eq_of_getLsbD_eq fun i hi => ?_
  simp only [BitVec.getLsbD_and, BitVec.getLsbD_ushiftRight, BitVec.getLsbD_allOnes, BitVec.getLsbD_setWidth, hi,
    decide_true, Bool.true_and]
  have hiff : m - width + i < m ↔ i < width := by omega
  rw [decide_eq_decide.mpr hiff, Bool.and_comm]

/-- To shift the bits of a shorter word to the upper end and back extends the sign. -/
theorem sshiftRight_shiftLeft (y : BitVec width) (hpos : 0 < width) (h : width ≤ m) :
    (y.setWidth m <<< (m - width)).sshiftRight (m - width) = y.signExtend m := by
  -- Bit `i` comes back to its place if it is below the width; above, the shift to the right repeats bit `width - 1`.
  refine BitVec.eq_of_getLsbD_eq fun i hi => ?_
  rw [BitVec.getLsbD_signExtend, BitVec.getLsbD_sshiftRight, BitVec.msb_eq_getLsbD_last, BitVec.msb_eq_getLsbD_last]
  simp only [BitVec.getLsbD_shiftLeft, BitVec.getLsbD_setWidth]
  have hlow : m - width + i - (m - width) = i := by omega
  have hsign : m - 1 - (m - width) = width - 1 := by omega
  rw [hlow, hsign]
  grind

theorem setWidth_signExtend (y : BitVec width) (h : m ≤ k) : (y.signExtend k).setWidth m = y.signExtend m := by
  refine BitVec.eq_of_getLsbD_eq fun i hi => ?_
  simp only [BitVec.getLsbD_setWidth, BitVec.getLsbD_signExtend, hi, hi.trans_le h, decide_true, Bool.true_and]

/-- The lowest bits of a number do not depend on the number of bits that it is written in. -/
theorem setWidth_ofInt (n : Int) (h : width ≤ m) : (BitVec.ofInt m n).setWidth width = BitVec.ofInt width n := by
  have hdvd : ((2 ^ width : Nat) : Int) ∣ (2 ^ m : Nat) := Int.natCast_dvd_natCast.mpr (Nat.pow_dvd_pow 2 h)
  rw [← BitVec.toInt_inj, BitVec.toInt_setWidth, BitVec.toNat_ofInt, BitVec.toInt_ofInt,
    Int.toNat_of_nonneg (Int.emod_nonneg n (by positivity)), ← Int.emod_bmod, Int.emod_emod_of_dvd n hdvd, Int.emod_bmod]

/-- The mask of the lowest bits is one less than the bit above them. -/
theorem shiftLeft_sub_one (width : Fin 64) :
    ((1 : BitVec 64) <<< width.val) - 1 = BitVec.allOnes 64 >>> (64 - width.val) := by
  decide +revert +kernel

end Word

namespace IntegerType

variable (t : IntegerType)

/-! ## Payloads -/

theorem toNat_smod_gap (gap : Fin 64) : ((Int64.ofNat gap).toBitVec.smod 64).toNat = gap := by
  decide +revert +kernel

theorem toBitVec_mask : t.mask.toBitVec = BitVec.allOnes 64 >>> (64 - t.width) := by
  have hle := t.width_le
  unfold mask
  split
  · have heq : 64 - t.width = 0 := by omega
    rw [heq]
    rfl
  · have hlt : t.width < 64 := by omega
    have hplaces : (UInt64.ofNat t.width).toBitVec.toNat % 64 = t.width := by
      rw [UInt64.toBitVec_ofNat', BitVec.toNat_ofNat]
      omega
    rw [← Word.shiftLeft_sub_one ⟨t.width, hlt⟩, UInt64.toBitVec_sub, UInt64.toBitVec_shiftLeft, BitVec.shiftLeft_eq',
      BitVec.toNat_umod]
    exact congrArg (fun places => ((1 : BitVec 64) <<< places) - 1) hplaces

/-- A payload keeps the bits of the width. -/
theorem toBitVec_truncate (payload : Int64) : (t.truncate payload).toBitVec =
    if t.signed then (payload.toBitVec.setWidth t.width).signExtend 64
    else (payload.toBitVec.setWidth t.width).setWidth 64 := by
  have hle := t.width_le
  have hpos := t.width_pos
  have hgap : ((Int64.ofNat (64 - t.width)).toBitVec.smod 64).toNat = 64 - t.width :=
    toNat_smod_gap ⟨64 - t.width, by omega⟩
  have hkept : (payload.toUInt64 &&& t.mask).toBitVec = (payload.toBitVec.setWidth t.width).setWidth 64 := by
    rw [UInt64.toBitVec_and, toBitVec_mask, Int64.toBitVec_toUInt64, Word.and_allOnes_shiftRight _ hle]
  unfold truncate
  simp only
  split
  · rw [Int64.toBitVec_shiftRight, Int64.toBitVec_shiftLeft, BitVec.sshiftRight', BitVec.shiftLeft_eq', hgap,
      UInt64.toBitVec_toInt64, hkept, Word.sshiftRight_shiftLeft _ hpos hle]
  · rw [UInt64.toBitVec_toInt64, hkept]

/-- The bits of a payload below the width stay, and those above are the sign. -/
theorem getLsbD_truncate (n : Int64) {i : Nat} (hi : i < 64) :
    (t.truncate n).toBitVec.getLsbD i =
      if i < t.width then n.toBitVec.getLsbD i
      else t.signed && n.toBitVec.getLsbD (t.width - 1) := by
  have hlast : t.width - 1 < t.width := by
    have := t.width_pos
    omega
  rw [toBitVec_truncate]
  cases t.signed with
  | true =>
      rw [if_pos rfl, BitVec.getLsbD_signExtend, BitVec.msb_eq_getLsbD_last]
      simp only [BitVec.getLsbD_setWidth, hi, hlast, decide_true, Bool.true_and]
      by_cases hlt : i < t.width <;> simp [hlt]
  | false =>
      simp only [Bool.false_eq_true, if_false, BitVec.getLsbD_setWidth, hi, decide_true, Bool.true_and, Bool.false_and]
      by_cases hlt : i < t.width <;> simp [hlt]

theorem truncate_truncate (n : Int64) : t.truncate (t.truncate n) = t.truncate n := by
  have hpos := t.width_pos
  have hsign : t.width - 1 < 64 := by
    have := t.width_le
    omega
  rw [← Int64.toBitVec_inj]
  refine BitVec.eq_of_getLsbD_eq fun i hi => ?_
  rw [getLsbD_truncate t _ hi, getLsbD_truncate t n hi, getLsbD_truncate t n hsign]
  grind

/-! ## Whole numbers -/

/-- The number in the range of the type that is congruent to a whole number. -/
def reduce (t : IntegerType) (n : Int) : Int :=
  if t.signed then n.bmod t.size else n.emod t.size

theorem size_pos : 0 < t.size :=
  Nat.pow_pos Nat.two_pos

theorem size_le : t.size ≤ 2 ^ 64 :=
  Nat.pow_le_pow_right Nat.two_pos t.width_le

theorem reduce_reduce (n : Int) : t.reduce (t.reduce n) = t.reduce n := by
  unfold reduce
  split
  · exact Int.bmod_bmod
  · exact Int.emod_emod_of_dvd n dvd_rfl

/-- The bits that are kept are those of the number in the range. -/
theorem wrap_eq (n : Int) : t.wrap n =
    if t.signed then .int (Int64.ofInt (t.reduce n)) else .uint (UInt64.ofNat (t.reduce n).toNat) := by
  have hpos := t.width_pos
  have hle := t.width_le
  have hfits : t.width ≤ 128 := by omega
  unfold wrap reduce
  -- What masks and shifts leave are the lowest bits, and these are the same in a word of `width` bits.
  simp only [Word.and_allOnes_shiftRight _ hfits, Word.setWidth_ofInt n hfits, Word.sshiftRight_shiftLeft _ hpos hfits,
    Word.setWidth_signExtend _ (show 64 ≤ 128 by decide)]
  split
  · have hint : ((BitVec.ofInt t.width n).signExtend 64).toInt = n.bmod t.size := by
      rw [BitVec.toInt_signExtend_of_le hle, BitVec.toInt_ofInt]
      rfl
    rw [← hint, Int64.ofInt, BitVec.ofInt_toInt]
    rfl
  · have hnat : (((BitVec.ofInt t.width n).setWidth 128).setWidth 64).toNat = (n.emod t.size).toNat := by
      rw [BitVec.setWidth_setWidth_of_le _ (by decide), BitVec.toNat_setWidth_of_le hle, BitVec.toNat_ofInt]
      rfl
    rw [← hnat, UInt64.ofNat, BitVec.ofNat_toNat, BitVec.setWidth_eq]

theorem wrap_reduce (n : Int) : t.wrap (t.reduce n) = t.wrap n := by
  rw [wrap_eq, wrap_eq, reduce_reduce]

end IntegerType

/-- A value of an integer type is read as the number that it stands for. -/
theorem Conversion.toInteger?_wrap (t : IntegerType) (n : Int) :
    toInteger? (t.wrap n) = some (t.reduce n, 0) := by
  have hpos := t.size_pos
  have hle := t.size_le
  rw [IntegerType.wrap_eq]
  split
  · rename_i hsigned
    have hlower := Int.le_bmod (x := n) hpos
    have hupper := Int.bmod_lt (x := n) hpos
    have hreduce : t.reduce n = n.bmod t.size := by rw [IntegerType.reduce, if_pos hsigned]
    rw [toInteger?, Int64.toInt_ofInt_of_le (by omega) (by omega)]
  · rename_i hunsigned
    have hlower := Int.emod_nonneg n (Int.natCast_ne_zero.mpr hpos.ne')
    have hupper := Int.emod_lt_of_pos n (Int.natCast_pos.mpr hpos)
    have hreduce : t.reduce n = n.emod t.size := by rw [IntegerType.reduce, if_neg hunsigned]
    have hfits : (t.reduce n).toNat < 2 ^ 64 := by
      rw [hreduce]
      show (n % t.size).toNat < 2 ^ 64
      omega
    rw [toInteger?, UInt64.toNat_ofNat', Nat.mod_eq_of_lt hfits, Int.toNat_of_nonneg]
    rw [hreduce]
    exact hlower

end ObjectBridge
