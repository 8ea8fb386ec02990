import ObjectBridge.Enumeration.Member
import ObjectBridge.Proofs.Enumeration.Reading

/-!
# Sets of flags as words

A set of flags of an enumeration is a word of as many bits as the payloads are wide, and its payload is the only one in
the range that reads as this word.  So the operations on sets and values, which work on all 64 bits of the payloads and
bring the result into the range, are the bitwise operations on words, and what holds of these holds of sets.

* `FlagSet.HasWord` and `FlagSet.HasWord.unique` — the word of a set, and that it determines the set.
* `FlagSet.HasWord.union`, `inter`, `symmDiff` and `complement` — one lemma for each operation.
* `FlagSet.HasWord.complement_union` and the other laws of sets, from the laws of words.
* `FlagSet.HasWord.numberOf_complement` — the number that a complement is written as.
* `EnumMember.Algebra` and `EnumMember.members_are_words` — the laws of sets and values together.
-/

namespace ObjectBridge

namespace IntegerType

variable (t : IntegerType) {p q : Int64}

/-- Bits that payloads have in common are kept by truncation if both have them. -/
theorem truncate_and (p q : Int64) : t.truncate (p &&& q) = t.truncate p &&& t.truncate q := by
  rw [← Int64.toBitVec_inj]
  refine BitVec.eq_of_getLsbD_eq fun i hi => ?_
  simp only [Int64.toBitVec_and, BitVec.getLsbD_and, getLsbD_truncate _ _ hi]
  split
  · rfl
  · cases t.signed <;> simp

variable {t}

theorem Normal.and (hp : t.Normal p) (hq : t.Normal q) : t.Normal (p &&& q) := by
  rw [← truncate_eq_self_iff, truncate_and, hp.truncate_eq, hq.truncate_eq]

/-- The number that has exactly the bits of the type that another number lacks. -/
def complementOf (t : IntegerType) (n : Int) : Int :=
  if t.signed then -n - 1 else 2 ^ t.width - 1 - n

theorem complementOf_modEq (n : Int) : t.complementOf n ≡ -n - 1 [ZMOD 2 ^ t.width] := by
  unfold complementOf
  split
  · exact Int.ModEq.refl _
  · refine (Int.modEq_iff_dvd.mpr ⟨-1, ?_⟩)
    ring

theorem contains_complementOf {n : Int} (h : t.Contains n) : t.Contains (t.complementOf n) := by
  unfold Contains complementOf at *
  split at h <;> rename_i hsigned
  · rw [if_pos hsigned, if_pos hsigned]
    omega
  · rw [if_neg hsigned, if_neg hsigned]
    omega

theorem toInt_not_modEq (p : Int64) : (~~~p).toInt ≡ -p.toInt - 1 [ZMOD 2 ^ t.width] := by
  have hwide : (~~~p).toInt ≡ -p.toInt - 1 [ZMOD 2 ^ 64] := by
    rw [Int64.toInt_not]
    exact Int.bmod_emod
  exact hwide.of_dvd (pow_dvd_pow 2 t.width_le)

/-- The bits of the type that a payload in the range lacks make up the complement of its number. -/
theorem numberOf_truncate_not (h : t.Normal p) :
    t.numberOf (t.truncate (~~~p)) = t.complementOf (t.numberOf p) := by
  rw [numberOf_truncate, ← t.reduce_congr (t.toInt_not_modEq p).symm]
  refine ((t.represents_iff).mp ⟨contains_complementOf h, ?_⟩).symm
  exact (complementOf_modEq _).trans ((t.numberOf_modEq p).neg.sub_right 1)

end IntegerType

/-! ## Sets of one enumeration -/

namespace FlagSet

/-- A set of flags of an enumeration, in the range and with the bits of a word. -/
structure HasWord (t : EnumType) (f : FlagSet) (word : BitVec t.backing.width) : Prop where
  type_eq : f.type = t
  normal : t.backing.Normal f.bits
  word_eq : t.backing.word f.bits = word

variable {t : EnumType} {f g : FlagSet} {word other : BitVec t.backing.width}

theorem eq_iff : f = g ↔ f.type = g.type ∧ f.bits = g.bits := by
  cases f
  cases g
  rw [FlagSet.mk.injEq]

/-- There is only one set with the bits of a word. -/
theorem HasWord.unique (hf : HasWord t f word) (hg : HasWord t g word) : f = g :=
  eq_iff.mpr ⟨hf.type_eq.trans hg.type_eq.symm,
    IntegerType.eq_of_word_eq hf.normal hg.normal (hf.word_eq.trans hg.word_eq.symm)⟩

theorem hasWord_ofBits (t : EnumType) (bits : Int64) : HasWord t (ofBits t bits) (t.backing.word bits) :=
  ⟨rfl, t.backing.normal_truncate bits, IntegerType.word_truncate bits⟩

theorem hasWord_empty (t : EnumType) : HasWord t (empty t) 0#_ :=
  IntegerType.word_zero (t := t.backing) ▸ hasWord_ofBits t 0

/-- Payloads that are combined have the bits of words that are combined in the same way. -/
theorem HasWord.combine (hf : HasWord t f word) {op : Int64 → Int64 → Int64}
    {wordOp : BitVec t.backing.width → BitVec t.backing.width → BitVec t.backing.width}
    (hop : ∀ p q, t.backing.word (op p q) = wordOp (t.backing.word p) (t.backing.word q)) (payload : Int64) :
    HasWord t (f.combine op payload) (wordOp word (t.backing.word payload)) := by
  have hbits := hasWord_ofBits t (op f.bits payload)
  rw [hop, hf.word_eq] at hbits
  rwa [FlagSet.combine, hf.type_eq]

theorem HasWord.union (hf : HasWord t f word) (hg : HasWord t g other) : HasWord t (f.union g) (word ||| other) :=
  hg.word_eq ▸ hf.combine IntegerType.word_or g.bits

theorem HasWord.inter (hf : HasWord t f word) (hg : HasWord t g other) : HasWord t (f.inter g) (word &&& other) :=
  hg.word_eq ▸ hf.combine IntegerType.word_and g.bits

theorem HasWord.symmDiff (hf : HasWord t f word) (hg : HasWord t g other) :
    HasWord t (f.symmDiff g) (word ^^^ other) :=
  hg.word_eq ▸ hf.combine IntegerType.word_xor g.bits

theorem HasWord.complement (hf : HasWord t f word) : HasWord t f.complement (~~~word) := by
  have hbits := hasWord_ofBits t (~~~f.bits)
  rw [IntegerType.word_not, hf.word_eq] at hbits
  rwa [FlagSet.complement, hf.type_eq]

/-! ### Laws of sets

Both sides of each law have the same word. -/

theorem HasWord.complement_complement (hf : HasWord t f word) : f.complement.complement = f := by
  have htwice := hf.complement.complement
  rw [BitVec.not_not] at htwice
  exact htwice.unique hf

theorem HasWord.complement_union (hf : HasWord t f word) (hg : HasWord t g other) :
    (f.union g).complement = f.complement.inter g.complement := by
  have hdual := hf.complement.inter hg.complement
  rw [← BitVec.not_or] at hdual
  exact (hf.union hg).complement.unique hdual

theorem HasWord.complement_inter (hf : HasWord t f word) (hg : HasWord t g other) :
    (f.inter g).complement = f.complement.union g.complement := by
  have hdual := hf.complement.union hg.complement
  rw [← BitVec.not_and] at hdual
  exact (hf.inter hg).complement.unique hdual

theorem HasWord.inter_complement (hf : HasWord t f word) : f.inter f.complement = empty t := by
  have hnothing := hf.inter hf.complement
  rw [BitVec.and_not_self] at hnothing
  exact hnothing.unique (hasWord_empty t)

theorem HasWord.symmDiff_symmDiff (hf : HasWord t f word) (hg : HasWord t g other) :
    (f.symmDiff g).symmDiff g = f := by
  have htwice := (hf.symmDiff hg).symmDiff hg
  rw [BitVec.xor_assoc, BitVec.xor_self, BitVec.xor_zero] at htwice
  exact htwice.unique hf

/-! ### Texts of complements -/

/-- A complement stands for the complement of the number. -/
theorem HasWord.numberOf_complement (hf : HasWord t f word) :
    t.backing.numberOf f.complement.bits = t.backing.complementOf (t.backing.numberOf f.bits) := by
  rw [FlagSet.complement, ofBits, hf.type_eq]
  exact IntegerType.numberOf_truncate_not hf.normal

/-- A set without names is written as its number. -/
theorem HasWord.text_eq (hf : HasWord t f word) (hnames : f.names? = none) :
    f.text = (t.backing.numberOf f.bits).repr := by
  have htext : f.text = f.type.backing.render f.bits := by rw [text, hnames]
  rw [htext, hf.type_eq, IntegerType.render_eq hf.normal, Text.integerText_eq_repr]

end FlagSet

/-! ## Values and sets together -/

namespace EnumMember

/-- A value or a set of flags of an enumeration, with a payload in the range. -/
structure IsOf (t : EnumType) (m : EnumMember) : Prop where
  type_eq : m.toFlags.type = t
  normal : t.backing.Normal m.payload

/-- The payload of a member, modulo `2 ^ width`. -/
def word (t : EnumType) (m : EnumMember) : BitVec t.backing.width :=
  t.backing.word m.payload

variable {t : EnumType} {m m' : EnumMember}

theorem isOf_value (t : EnumType) (payload : Int64) : IsOf t (.value (.ofPayload t payload)) :=
  ⟨rfl, t.backing.normal_truncate payload⟩

theorem isOf_flags (t : EnumType) (bits : Int64) : IsOf t (.flags (.ofBits t bits)) :=
  ⟨rfl, t.backing.normal_truncate bits⟩

/-- As a set, a member has its own payload. -/
theorem IsOf.bits_toFlags (hm : m.IsOf t) : m.toFlags.bits = m.payload := by
  obtain ⟨rfl, hnormal⟩ := hm
  cases m with
  | value v => exact hnormal.truncate_eq
  | flags f => rfl

theorem IsOf.hasWord (hm : m.IsOf t) : FlagSet.HasWord t m.toFlags (m.word t) :=
  ⟨hm.type_eq, hm.bits_toFlags ▸ hm.normal, by rw [hm.bits_toFlags, word]⟩

theorem IsOf.union_toFlags (hm' : m'.IsOf t) : m.union m' = m.toFlags.union m'.toFlags := by
  cases m' with
  | value v => exact congrArg (FlagSet.combine (· ||| ·) m.toFlags) hm'.bits_toFlags.symm
  | flags g => rfl

theorem IsOf.inter_toFlags (hm' : m'.IsOf t) : m.inter m' = m.toFlags.inter m'.toFlags := by
  cases m' with
  | value v => exact congrArg (FlagSet.combine (· &&& ·) m.toFlags) hm'.bits_toFlags.symm
  | flags g => rfl

/-- What a member and a value have in common is in the range already. -/
theorem IsOf.bits_inter {v : EnumValue} (hm : m.IsOf t) (hv : (value v).IsOf t) :
    (m.inter (.value v)).bits = m.payload &&& v.payload := by
  have hbits : (m.inter (.value v)).bits = m.toFlags.type.backing.truncate (m.toFlags.bits &&& v.payload) := rfl
  rw [hbits, hm.type_eq, hm.bits_toFlags]
  exact (hm.normal.and hv.normal).truncate_eq

/-- A value is in a member if it is not zero and has all its bits in common with it. -/
theorem IsOf.contains_iff {v : EnumValue} (hm : m.IsOf t) (hv : (value v).IsOf t) :
    m.contains v = true ↔ v.payload ≠ 0 ∧ m.inter (.value v) = (value v).toFlags := by
  have htype : (m.inter (.value v)).type = (value v).toFlags.type := hm.type_eq.trans hv.type_eq.symm
  have hvalue : (value v).toFlags.bits = v.payload := hv.bits_toFlags
  rw [contains, FlagSet.contains, Bool.and_eq_true, bne_iff_ne, beq_iff_eq, FlagSet.eq_iff, and_iff_right htype,
    hm.bits_inter hv, hm.bits_toFlags, hvalue]

/-- What holds of two members of an enumeration: operations on them are the operations on words, whether they are sets
or values; complements are taken back, are exchanged with union and intersection, have nothing in common with what they
are complements of, and are written as the complement of the number if they have no names. -/
structure Algebra (t : EnumType) (m m' : EnumMember) : Prop where
  toFlags : FlagSet.HasWord t m.toFlags (m.word t)
  union : FlagSet.HasWord t (m.union m') (m.word t ||| m'.word t)
  inter : FlagSet.HasWord t (m.inter m') (m.word t &&& m'.word t)
  symmDiff : FlagSet.HasWord t (m.symmDiff m') (m.word t ^^^ m'.word t)
  complement : FlagSet.HasWord t m.complement (~~~m.word t)
  union_toFlags : m.union m' = m.toFlags.union m'.toFlags
  inter_toFlags : m.inter m' = m.toFlags.inter m'.toFlags
  complement_complement : m.complement.complement = m.toFlags
  complement_union : (m.union m').complement = m.complement.inter m'.complement
  complement_inter : (m.inter m').complement = m.complement.union m'.complement
  inter_complement : m.toFlags.inter m.complement = .empty t
  symmDiff_symmDiff : (m.symmDiff m').symmDiff m'.toFlags = m.toFlags
  complement_text : m.complement.names? = none →
    m.complement.text = (t.backing.complementOf (t.backing.numberOf m.payload)).repr
  contains_iff : ∀ v, m' = .value v →
    (m.contains v = true ↔ v.payload ≠ 0 ∧ m.inter (.value v) = (value v).toFlags)

/-- A complement without names is written as the complement of the number. -/
theorem IsOf.complement_text (hm : m.IsOf t) (hnames : m.complement.names? = none) :
    m.complement.text = (t.backing.complementOf (t.backing.numberOf m.payload)).repr := by
  rw [← hm.bits_toFlags, ← hm.hasWord.numberOf_complement]
  exact hm.hasWord.complement.text_eq hnames

/-- Values and sets of flags of an enumeration are words. -/
theorem members_are_words (hm : m.IsOf t) (hm' : m'.IsOf t) : Algebra t m m' where
  toFlags := hm.hasWord
  union := hm'.union_toFlags ▸ hm.hasWord.union hm'.hasWord
  inter := hm'.inter_toFlags ▸ hm.hasWord.inter hm'.hasWord
  symmDiff := hm.hasWord.symmDiff hm'.hasWord
  complement := hm.hasWord.complement
  union_toFlags := hm'.union_toFlags
  inter_toFlags := hm'.inter_toFlags
  complement_complement := hm.hasWord.complement_complement
  complement_union := by
    rw [hm'.union_toFlags]
    exact hm.hasWord.complement_union hm'.hasWord
  complement_inter := by
    rw [hm'.inter_toFlags]
    exact hm.hasWord.complement_inter hm'.hasWord
  inter_complement := hm.hasWord.inter_complement
  symmDiff_symmDiff := hm.hasWord.symmDiff_symmDiff hm'.hasWord
  complement_text := hm.complement_text
  contains_iff := by
    rintro v rfl
    exact hm.contains_iff hm'

/-- Three flags without a sign, one of them with a name. -/
def threeFlags : EnumType := .declare "Mode" ⟨3, false⟩ [("open", 1)]

/-- A set and a value of it: the complement of six has a name, and that of five is written as a number. -/
theorem threeFlags_words :
    let m : EnumMember := .flags (.ofBits threeFlags 5)
    let m' : EnumMember := .value (.ofPayload threeFlags (-2))
    m.IsOf threeFlags ∧ m'.IsOf threeFlags ∧ Algebra threeFlags m m' ∧ (m.union m').bits = 7 ∧
      (m.inter m').bits = 4 ∧ m'.complement.text = "open" ∧ m.complement.text = "2" := by
  intro m m'
  have hm : m.IsOf threeFlags := isOf_flags threeFlags 5
  have hm' : m'.IsOf threeFlags := isOf_value threeFlags (-2)
  exact ⟨hm, hm', members_are_words hm hm', by decide +kernel, by decide +kernel, by decide +kernel, by decide +kernel⟩

end EnumMember

end ObjectBridge
