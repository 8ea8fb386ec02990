import ObjectBridge.Enumeration.Basic
import ObjectBridge.Proofs.Text.Basic
import ObjectBridge.Proofs.Value.Wrapping

/-!
# Reading values of enumerations

A payload is a word of 64 bits, and in the range of an integer type it is one that the type has a number for.  Such a
payload is told by its lowest bits, as many as the type is wide: `word` reads it as a word of that width, and every
operation on payloads that works bit by bit is the operation on these words.

A text that is read is the name of an entry, or a sharp and a literal of a word.  The value has the number of the entry,
or of the word, brought into the range of the enumeration.  If names tell entries apart and are not taken for numbers,
then every value is read back from its own text, whether it has a name, several names or none.

* `IntegerType.Normal` and `truncate_eq_self_iff` — the payloads that truncation leaves as they are.
* `IntegerType.eq_of_word_eq` — payloads in the range are the same if they are the same words.
* `IntegerType.render_eq` and `IntegerType.payload?_render` — a payload in the range is written as its number, and is
  read back from it.
* `EnumType.Distinguishes` and `EnumType.payloadOf?_of_mem` — names that tell entries apart.
* `EnumType.numbered?_eq_some_iff` — texts that are read as numbers.
* `EnumValue.Denotes` and `EnumValue.parse?_eq_some_iff` — what a text is read as.
* `EnumValue.values_read_back` — what is written is read back, and what is read is in the range.
-/

namespace ObjectBridge

namespace IntegerType

/-- A payload is in the range of the type: the number that it stands for is. -/
def Normal (t : IntegerType) (payload : Int64) : Prop :=
  t.Contains (t.numberOf payload)

/-- The bits of a payload below the width. -/
def word (t : IntegerType) (payload : Int64) : BitVec t.width :=
  payload.toBitVec.setWidth t.width

variable (t : IntegerType) {p q : Int64}

/-! ## The range -/

theorem numberOf_modEq (p : Int64) : t.numberOf p ≡ p.toInt [ZMOD 2 ^ t.width] := by
  unfold numberOf
  split
  · exact Int.ModEq.refl _
  · have hint : p.toInt = Int.bmod p.toUInt64.toNat (2 ^ 64) := BitVec.toInt_eq_toNat_bmod _
    have hwide : (p.toUInt64.toNat : Int) ≡ p.toInt [ZMOD 2 ^ 64] := by
      rw [hint]
      exact Int.bmod_emod.symm
    exact hwide.of_dvd (pow_dvd_pow 2 t.width_le)

/-- Truncation leaves exactly the payloads in the range as they are. -/
theorem truncate_eq_self_iff : t.truncate p = p ↔ t.Normal p := by
  have hnumber : t.Represents p.toInt (t.numberOf p) ↔ t.Normal p :=
    ⟨fun h => h.contains, fun h => ⟨h, t.numberOf_modEq p⟩⟩
  rw [← hnumber, represents_iff, ← numberOf_truncate]
  exact ⟨fun h => by rw [h], fun h => (numberOf_injective t h).symm⟩

theorem normal_truncate (p : Int64) : t.Normal (t.truncate p) :=
  t.truncate_eq_self_iff.mp (t.truncate_truncate p)

variable {t}

theorem Normal.truncate_eq (h : t.Normal p) : t.truncate p = p :=
  t.truncate_eq_self_iff.mpr h

/-! ## Words of the width -/

@[simp] theorem word_truncate (p : Int64) : t.word (t.truncate p) = t.word p := by
  have hle := t.width_le
  unfold word
  rw [toBitVec_truncate]
  split
  · refine BitVec.eq_of_getLsbD_eq fun i hi => ?_
    simp only [BitVec.getLsbD_setWidth, BitVec.getLsbD_signExtend, hi, hi.trans_le hle, decide_true,
      Bool.true_and, if_true]
  · simp [hle]

/-- A payload in the range is determined by its bits below the width. -/
theorem eq_of_word_eq (hp : t.Normal p) (hq : t.Normal q) (h : t.word p = t.word q) : p = q := by
  rw [← hp.truncate_eq, ← hq.truncate_eq, ← Int64.toBitVec_inj, toBitVec_truncate, toBitVec_truncate]
  unfold word at h
  rw [h]

@[simp] theorem word_or (p q : Int64) : t.word (p ||| q) = t.word p ||| t.word q :=
  BitVec.setWidth_or

@[simp] theorem word_and (p q : Int64) : t.word (p &&& q) = t.word p &&& t.word q :=
  BitVec.setWidth_and

@[simp] theorem word_xor (p q : Int64) : t.word (p ^^^ q) = t.word p ^^^ t.word q :=
  BitVec.setWidth_xor

@[simp] theorem word_not (p : Int64) : t.word (~~~p) = ~~~t.word p :=
  BitVec.setWidth_not t.width_le

@[simp] theorem word_zero : t.word 0 = 0#t.width := by
  simp [word]

/-! ## Text -/

theorem integerText_natCast (n : Nat) : Text.integerText n = Text.naturalText n :=
  if_neg (by omega)

/-- A payload in the range is written as its number. -/
theorem render_eq (h : t.Normal p) : t.render p = Text.integerText (t.numberOf p) := by
  have hkept := h.truncate_eq
  unfold truncate at hkept
  unfold render numberOf
  cases hsigned : t.signed with
  | true => rfl
  | false =>
      simp only [hsigned, Bool.false_eq_true, if_false] at hkept ⊢
      have hword : p.toUInt64 &&& t.mask = p.toUInt64 := by
        conv_rhs => rw [← hkept]
        exact (UInt64.toUInt64_toInt64 _).symm
      rw [hword, integerText_natCast]

/-- A payload in the range is read back from the text of its number. -/
theorem payload?_render (h : t.Normal p) : Text.payload? (t.render p).toList = some p := by
  rw [Text.payload?_eq_some_iff, render_eq h]
  unfold numberOf
  split
  · exact Or.inl (Text.signedLiteral_integerText p.toInt)
  · rw [integerText_natCast]
    exact Or.inr (.plain (Text.digitsOf_naturalText p.toUInt64.toNat))

end IntegerType

namespace EnumType

/-- No two entries have one name. -/
def Distinguishes (t : EnumType) : Prop :=
  (t.entries.map Prod.fst).Nodup

/-- No name starts like a number of an enumeration. -/
def AvoidsSharp (t : EnumType) : Prop :=
  ∀ e ∈ t.entries, e.1.toList.head? ≠ some '#'

instance (t : EnumType) : Decidable t.Distinguishes :=
  inferInstanceAs (Decidable (t.entries.map Prod.fst).Nodup)

instance (t : EnumType) : Decidable t.AvoidsSharp :=
  inferInstanceAs (Decidable (∀ e ∈ t.entries, e.1.toList.head? ≠ some '#'))

/-- A payload belongs to the first entry with a name. -/
def Names (t : EnumType) (name : String) (payload : Int64) : Prop :=
  ∃ before after, t.entries = before ++ (name, payload) :: after ∧ ∀ e ∈ before, e.1 ≠ name

variable {t : EnumType} {name text : String} {payload : Int64} {e : String × Int64}

/-! ## Names -/

theorem payloadOf?_eq_some_iff : t.payloadOf? name = some payload ↔ t.Names name payload := by
  rw [payloadOf?, List.lookup_eq_some_iff, Names]
  simp only [bne_iff_ne, ne_comm]

theorem payloadOf?_eq_none_iff : t.payloadOf? name = none ↔ ∀ e ∈ t.entries, e.1 ≠ name := by
  rw [payloadOf?, List.lookup_eq_none_iff]
  simp only [bne_iff_ne, ne_comm]

theorem isSome_payloadOf?_iff : (∃ payload, t.payloadOf? name = some payload) ↔ ∃ e ∈ t.entries, e.1 = name := by
  rw [← Option.ne_none_iff_exists', ne_eq, payloadOf?_eq_none_iff]
  push Not
  rfl

/-- Names that differ lead to their entries. -/
theorem payloadOf?_of_mem (hnames : t.Distinguishes) (he : e ∈ t.entries) : t.payloadOf? e.1 = some e.2 := by
  obtain ⟨before, after, hentries⟩ := List.append_of_mem he
  refine payloadOf?_eq_some_iff.mpr ⟨before, after, hentries, fun d hd heq => ?_⟩
  rw [Distinguishes, hentries, List.map_append, List.nodup_append] at hnames
  exact hnames.2.2 d.1 (List.mem_map_of_mem hd) e.1 (List.mem_map_of_mem List.mem_cons_self) heq

theorem nameOf?_eq_some (h : t.nameOf? payload = some name) : (name, payload) ∈ t.entries := by
  obtain ⟨⟨_, _⟩, hfind, rfl⟩ := Option.map_eq_some_iff.mp h
  have hpayload := List.find?_some hfind
  rw [beq_iff_eq] at hpayload
  exact hpayload ▸ List.mem_of_find?_eq_some hfind

/-! ## Numbers -/

theorem numbered?_eq_some_iff : t.numbered? text = some payload ↔
    ∃ cs word, text.toList = '#' :: cs ∧ Text.WordLiteral cs word ∧ t.backing.truncate word = payload := by
  unfold numbered?
  split
  · rename_i cs htext
    simp only [Option.map_eq_some_iff, Text.payload?_eq_some_iff, htext, List.cons.injEq, true_and]
    constructor
    · rintro ⟨word, hword, htruncate⟩
      exact ⟨cs, word, rfl, hword, htruncate⟩
    · rintro ⟨_, word, rfl, hword, htruncate⟩
      exact ⟨word, hword, htruncate⟩
  · rename_i hother
    constructor
    · intro h
      cases h
    · rintro ⟨cs, word, htext, -⟩
      exact absurd htext (hother cs)

/-- Without names that start like one, a number is no name. -/
theorem payloadOf?_eq_none_of_sharp (hsharp : t.AvoidsSharp) {cs : List Char} (htext : text.toList = '#' :: cs) :
    t.payloadOf? text = none := by
  rw [payloadOf?_eq_none_iff]
  rintro e he rfl
  exact hsharp e he (by rw [htext]; rfl)

/-- A payload in the range is read back from a sharp and its number. -/
theorem numbered?_render (h : t.backing.Normal payload) :
    t.numbered? ("#" ++ t.backing.render payload) = some payload := by
  have hword := Text.payload?_eq_some_iff.mp (IntegerType.payload?_render h)
  exact numbered?_eq_some_iff.mpr ⟨_, payload, String.toList_append, hword, h.truncate_eq⟩

end EnumType

namespace EnumValue

/-- A value of an enumeration stands for a whole number that was brought into its range. -/
structure StandsFor (t : EnumType) (n : Int) (v : EnumValue) : Prop where
  type_eq : v.type = t
  represents : t.backing.Represents n (t.backing.numberOf v.payload)

/-- What a text stands for: the number of the first entry with this name, or, if it is no name, the number of the
literal behind a sharp. -/
inductive Denotes (t : EnumType) (text : String) (v : EnumValue) : Prop
  | name {payload : Int64} : t.Names text payload → StandsFor t payload.toInt v → Denotes t text v
  | number {cs : List Char} {word : Int64} : (∀ e ∈ t.entries, e.1 ≠ text) → text.toList = '#' :: cs →
      Text.WordLiteral cs word → StandsFor t word.toInt v → Denotes t text v

variable {t : EnumType} {text : String} {v : EnumValue} {payload : Int64}

theorem standsFor_iff : StandsFor t payload.toInt v ↔ ofPayload t payload = v := by
  constructor
  · rintro ⟨rfl, hnumber⟩
    rw [IntegerType.represents_iff, ← IntegerType.numberOf_truncate] at hnumber
    rw [ofPayload, IntegerType.numberOf_injective _ hnumber.symm]
  · rintro rfl
    exact ⟨rfl, (t.backing.represents_iff).mpr (t.backing.numberOf_truncate payload)⟩

theorem StandsFor.normal {n : Int} (h : StandsFor t n v) : t.backing.Normal v.payload :=
  h.represents.contains

/-- To bring a payload into the range twice is to do it once. -/
theorem ofPayload_truncate (t : EnumType) (payload : Int64) :
    ofPayload t (t.backing.truncate payload) = ofPayload t payload := by
  rw [ofPayload, IntegerType.truncate_truncate, ofPayload]

theorem parse?_eq_some_iff : parse? t text = some v ↔ Denotes t text v := by
  unfold parse?
  constructor
  · intro h
    -- A text is looked up as a name first, and read as a number only if it is none.
    split at h
    · rename_i payload hname
      exact .name (EnumType.payloadOf?_eq_some_iff.mp hname) (standsFor_iff.mpr (Option.some.inj h))
    · rename_i hnone
      obtain ⟨payload, hnumber, rfl⟩ := Option.map_eq_some_iff.mp h
      obtain ⟨cs, word, htext, hword, rfl⟩ := EnumType.numbered?_eq_some_iff.mp hnumber
      refine .number (EnumType.payloadOf?_eq_none_iff.mp hnone) htext hword (standsFor_iff.mpr ?_)
      exact (ofPayload_truncate t word).symm
  · rintro (⟨hname, hvalue⟩ | @⟨cs, word, hnone, htext, hword, hvalue⟩)
    · rw [EnumType.payloadOf?_eq_some_iff.mpr hname, ← standsFor_iff.mp hvalue]
    · have hnumber : t.numbered? text = some (t.backing.truncate word) :=
        EnumType.numbered?_eq_some_iff.mpr ⟨cs, word, htext, hword, rfl⟩
      rw [EnumType.payloadOf?_eq_none_iff.mpr hnone, hnumber, ← standsFor_iff.mp hvalue]
      exact congrArg some (ofPayload_truncate t _)

/-- Exactly the names, and the literals of words behind a sharp, are read. -/
theorem exists_parse?_iff : (∃ v, parse? t text = some v) ↔
    (∃ e ∈ t.entries, e.1 = text) ∨ ∃ cs word, text.toList = '#' :: cs ∧ Text.WordLiteral cs word := by
  constructor
  · rintro ⟨v, h⟩
    cases parse?_eq_some_iff.mp h with
    | name hname _ =>
        obtain ⟨before, after, hentries, -⟩ := hname
        exact Or.inl ⟨_, hentries ▸ List.mem_append_right _ List.mem_cons_self, rfl⟩
    | number _ htext hword _ => exact Or.inr ⟨_, _, htext, hword⟩
  · intro h
    by_cases hname : ∃ e ∈ t.entries, e.1 = text
    · obtain ⟨payload, hpayload⟩ := EnumType.isSome_payloadOf?_iff.mpr hname
      have hnames := EnumType.payloadOf?_eq_some_iff.mp hpayload
      exact ⟨_, parse?_eq_some_iff.mpr (.name hnames (standsFor_iff.mpr rfl))⟩
    · obtain ⟨cs, word, htext, hword⟩ := h.resolve_left hname
      push Not at hname
      exact ⟨_, parse?_eq_some_iff.mpr (.number hname htext hword (standsFor_iff.mpr rfl))⟩

/-! ## Values and their texts -/

/-- The text of a value is the name of an entry with its payload, or a sharp and its number. -/
theorem text_cases (v : EnumValue) :
    (v.text, v.payload) ∈ v.type.entries ∨ v.text = "#" ++ v.type.backing.render v.payload := by
  unfold text
  cases hname : v.name? with
  | some name => exact Or.inl (EnumType.nameOf?_eq_some hname)
  | none => exact Or.inr rfl

theorem parse?_text (hnames : t.Distinguishes) (hsharp : t.AvoidsSharp) (payload : Int64) :
    parse? t (ofPayload t payload).text = some (ofPayload t payload) := by
  have hnormal : t.backing.Normal (ofPayload t payload).payload := t.backing.normal_truncate payload
  rcases (ofPayload t payload).text_cases with hentry | htext
  · rw [parse?, EnumType.payloadOf?_of_mem hnames hentry]
    exact congrArg some (ofPayload_truncate t payload)
  · have hcs : (ofPayload t payload).text.toList = '#' :: (t.backing.render (t.backing.truncate payload)).toList := by
      rw [htext, String.toList_append]
      rfl
    have hnumber : t.numbered? (ofPayload t payload).text = some (t.backing.truncate payload) :=
      htext ▸ EnumType.numbered?_render hnormal
    rw [parse?, EnumType.payloadOf?_eq_none_of_sharp hsharp hcs, hnumber]
    exact congrArg some (ofPayload_truncate t payload)

/-- A value is read back from its text if names tell entries apart and do not start with a sharp.  Whatever the names
are, exactly they and the literals of words behind a sharp are read; a text is read as what it stands for, which is in
the range of the enumeration. -/
theorem values_read_back (t : EnumType) :
    (t.Distinguishes → t.AvoidsSharp → ∀ payload,
      parse? t (ofPayload t payload).text = some (ofPayload t payload)) ∧
    ∀ text, ((∃ v, parse? t text = some v) ↔
        (∃ e ∈ t.entries, e.1 = text) ∨ ∃ cs word, text.toList = '#' :: cs ∧ Text.WordLiteral cs word) ∧
      ∀ v, (parse? t text = some v ↔ Denotes t text v) ∧
        (parse? t text = some v → v.type = t ∧ t.backing.Normal v.payload) := by
  refine ⟨parse?_text, fun text => ⟨exists_parse?_iff, fun v => ⟨parse?_eq_some_iff, fun h => ?_⟩⟩⟩
  cases parse?_eq_some_iff.mp h with
  | name _ hvalue => exact ⟨hvalue.type_eq, hvalue.normal⟩
  | number _ _ _ hvalue => exact ⟨hvalue.type_eq, hvalue.normal⟩

/-- An enumeration of three bits with a sign, with two names for one payload. -/
def signedBits : EnumType := .declare "Bits" ⟨3, true⟩ [("low", 1), ("first", 1), ("high", 4)]

/-- A payload with a name, one with two names and one without are read back. -/
theorem signedBits_read_back : signedBits.Distinguishes ∧ signedBits.AvoidsSharp ∧
    [4, 1, 7].map (fun payload => (ofPayload signedBits payload).text) = ["high", "low", "#-1"] ∧
    ∀ payload ∈ [4, 1, 7],
      parse? signedBits (ofPayload signedBits payload).text = some (ofPayload signedBits payload) := by
  have hnames : signedBits.Distinguishes := by decide
  have hsharp : signedBits.AvoidsSharp := by decide
  have htexts : [4, 1, 7].map (fun payload => (ofPayload signedBits payload).text) = ["high", "low", "#-1"] := by
    decide +kernel
  exact ⟨hnames, hsharp, htexts, fun payload _ => (values_read_back signedBits).1 hnames hsharp payload⟩

end EnumValue

end ObjectBridge
