import Mathlib.Data.Int.Order.Basic
import Mathlib.Data.List.TakeWhile
import ObjectBridge.Text.Basic

/-!
# Literals and pieces of texts

What the readers of numbers accept, and that they read back what is written.  A literal of a signed number is one or
more digits behind an optional sign; one of an unsigned number has no minus.  A word is read from either, and takes the
number that its 64 bits are as a word of that kind.

Texts without a separator that are joined with it are the pieces of what they are joined to.  A text without blanks at
its ends is not changed by trimming.

* `DigitsOf`, `SignedLiteral` and `UnsignedLiteral` — the texts of numbers.
* `payload?_eq_some_iff` — the words that are read from a text.
* `digitsOf_naturalText` and `signedLiteral_integerText` — numbers are written as literals.
* `splitChars_join` — joined texts are split again.
* `Trimmed` and `Trimmed.trimChars_eq` — texts without blanks at their ends.
* `mem_trimChars` — what is not blank stays.
-/

namespace ObjectBridge.Text

/-- A text is one or more digits, which make up a number. -/
structure DigitsOf (cs : List Char) (n : Nat) : Prop where
  ne_nil : cs ≠ []
  isDigit : ∀ c ∈ cs, c.isDigit = true
  value_eq : Nat.ofDigitChars 10 cs 0 = n

/-- A text is a number behind an optional sign. -/
inductive SignedLiteral : List Char → Int → Prop
  | plain {cs : List Char} {n : Nat} : DigitsOf cs n → SignedLiteral cs n
  | plus {cs : List Char} {n : Nat} : DigitsOf cs n → SignedLiteral ('+' :: cs) n
  | minus {cs : List Char} {n : Nat} : DigitsOf cs n → SignedLiteral ('-' :: cs) (-n)

/-- A text is a number behind an optional plus. -/
inductive UnsignedLiteral : List Char → Nat → Prop
  | plain {cs : List Char} {n : Nat} : DigitsOf cs n → UnsignedLiteral cs n
  | plus {cs : List Char} {n : Nat} : DigitsOf cs n → UnsignedLiteral ('+' :: cs) n

/-- A text is a literal of a word: of its number as a word with a sign, or as one without. -/
def WordLiteral (cs : List Char) (word : Int64) : Prop :=
  SignedLiteral cs word.toInt ∨ UnsignedLiteral cs word.toUInt64.toNat

variable {c : Char} {cs : List Char} {word : Int64}

/-! ## Digits -/

theorem digit?_eq_some_iff {d : Nat} : digit? c = some d ↔ c.isDigit = true ∧ c.toNat - '0'.toNat = d := by
  have hdigit : c.isDigit = true ↔ '0' ≤ c ∧ c ≤ '9' := by
    simp [Char.isDigit, Char.le_def, UInt32.le_iff_toNat_le]
  rw [digit?, hdigit]
  by_cases h : '0' ≤ c ∧ c ≤ '9' <;> simp [h]

theorem digitsOnto?_eq_some_iff {acc n : Nat} :
    digitsOnto? acc cs = some n ↔ (∀ c ∈ cs, c.isDigit = true) ∧ Nat.ofDigitChars 10 cs acc = n := by
  induction cs generalizing acc with
  | nil => simp [digitsOnto?]
  | cons c rest ih =>
      rw [digitsOnto?, List.forall_mem_cons, Nat.ofDigitChars_cons, Nat.mul_comm 10]
      simp only [Option.bind_eq_bind, Option.bind_eq_some_iff, digit?_eq_some_iff, ih]
      constructor
      · rintro ⟨d, ⟨hc, rfl⟩, hrest, hn⟩
        exact ⟨⟨hc, hrest⟩, hn⟩
      · rintro ⟨⟨hc, hrest⟩, hn⟩
        exact ⟨_, ⟨hc, rfl⟩, hrest, hn⟩

theorem natural?_eq_some_iff {n : Nat} : natural? cs = some n ↔ DigitsOf cs n := by
  cases cs with
  | nil =>
      constructor
      · intro h
        cases h
      · exact fun h => absurd rfl h.ne_nil
  | cons c rest =>
      have hread : natural? (c :: rest) = digitsOnto? 0 (c :: rest) := rfl
      rw [hread, digitsOnto?_eq_some_iff]
      exact ⟨fun h => ⟨List.cons_ne_nil c rest, h.1, h.2⟩, fun h => ⟨h.isDigit, h.value_eq⟩⟩

/-- A sign is no digit. -/
theorem DigitsOf.head_ne {n : Nat} {sign : Char} (h : DigitsOf (c :: cs) n) (hsign : sign.isDigit = false) :
    c ≠ sign := by
  rintro rfl
  rw [h.isDigit c List.mem_cons_self] at hsign
  cases hsign

/-! ## Numbers with a sign -/

theorem integer?_eq_some_iff {n : Int} : integer? cs = some n ↔ SignedLiteral cs n := by
  constructor
  · intro h
    unfold integer? at h
    split at h
    all_goals
      simp only [Option.map_eq_some_iff, Option.bind_eq_bind, Option.bind_eq_some_iff, Option.pure_def,
        Option.some.injEq, natural?_eq_some_iff] at h
      obtain ⟨_, ⟨k, hk, rfl⟩, rfl⟩ := h
    · exact .minus hk
    · exact .plus hk
    · exact .plain hk
  · intro h
    cases h with
    | minus h => rw [integer?, natural?_eq_some_iff.mpr h]; rfl
    | plus h => rw [integer?, natural?_eq_some_iff.mpr h]; rfl
    | plain h =>
        -- A text that starts with a digit is not taken for one with a sign.
        rw [integer?, natural?_eq_some_iff.mpr h]
        · rfl
        · rintro rest rfl
          exact h.head_ne rfl rfl
        · rintro rest rfl
          exact h.head_ne rfl rfl

theorem SignedLiteral.unsigned {n : Nat} (h : SignedLiteral cs n) (hpos : 0 < n) : UnsignedLiteral cs n := by
  generalize hm : (n : Int) = m at h
  cases h with
  | plain h => exact Int.ofNat_inj.mp hm ▸ .plain h
  | plus h => exact Int.ofNat_inj.mp hm ▸ .plus h
  | minus h => omega

theorem UnsignedLiteral.signed {n : Nat} (h : UnsignedLiteral cs n) : SignedLiteral cs n := by
  cases h with
  | plain h => exact .plain h
  | plus h => exact .plus h

/-- A literal consists of digits and signs. -/
theorem SignedLiteral.isDigit_or_sign {n : Int} (h : SignedLiteral cs n) (hc : c ∈ cs) :
    c.isDigit = true ∨ c = '+' ∨ c = '-' := by
  cases h with
  | plain h => exact Or.inl (h.isDigit c hc)
  | plus h => exact (List.mem_cons.mp hc).elim (fun heq => Or.inr (Or.inl heq)) fun hc => Or.inl (h.isDigit c hc)
  | minus h => exact (List.mem_cons.mp hc).elim (fun heq => Or.inr (Or.inr heq)) fun hc => Or.inl (h.isDigit c hc)

/-! ## Words -/

theorem ofInt_toNat_toUInt64 (word : Int64) : Int64.ofInt word.toUInt64.toNat = word := by
  have hbits : word.toUInt64.toNat = word.toBitVec.toNat := rfl
  rw [← Int64.toBitVec_inj, Int64.toBitVec_ofInt, BitVec.ofInt_natCast, hbits, BitVec.ofNat_toNat, BitVec.setWidth_eq]

theorem toNat_toUInt64_ofInt {n : Nat} (h : n < UInt64.size) : (Int64.ofInt n).toUInt64.toNat = n := by
  have hbits : (Int64.ofInt n).toUInt64.toNat = (Int64.ofInt n).toBitVec.toNat := rfl
  rw [hbits, Int64.toBitVec_ofInt, BitVec.ofInt_natCast, BitVec.toNat_ofNat]
  exact Nat.mod_eq_of_lt h

/-- A text is read as a word exactly if it is a literal of the word, as one with a sign or as one without. -/
theorem payload?_eq_some_iff : payload? cs = some word ↔ WordLiteral cs word := by
  have hmin : Int64.minValue.toInt = -9223372036854775808 := by decide
  have hsize : UInt64.size = 18446744073709551616 := rfl
  unfold payload? WordLiteral
  simp only [Option.bind_eq_bind, Option.bind_eq_some_iff, integer?_eq_some_iff,
    Option.ite_none_right_eq_some, Option.some.injEq]
  constructor
  · rintro ⟨n, hn, ⟨hlower, hupper⟩, rfl⟩
    by_cases hsmall : n < 9223372036854775808
    · refine Or.inl ?_
      rwa [Int64.toInt_ofInt_of_le (by omega) (by omega)]
    · obtain ⟨k, rfl⟩ := Int.eq_ofNat_of_zero_le (a := n) (by omega)
      refine Or.inr ?_
      rw [toNat_toUInt64_ofInt (by omega)]
      exact hn.unsigned (by omega)
  · rintro (h | h)
    · have hlower := word.minValue_le_toInt
      have hupper := word.toInt_lt
      exact ⟨_, h, ⟨hlower, by omega⟩, Int64.ofInt_toInt word⟩
    · have hupper := word.toUInt64.toNat_lt_size
      exact ⟨_, h.signed, ⟨by omega, by omega⟩, ofInt_toNat_toUInt64 word⟩

theorem payload?_eq_none_iff : payload? cs = none ↔ ¬∃ word, WordLiteral cs word := by
  rw [Option.eq_none_iff_forall_ne_some, not_exists]
  simp only [ne_eq, payload?_eq_some_iff]

theorem WordLiteral.isDigit_or_sign (h : WordLiteral cs word) (hc : c ∈ cs) : c.isDigit = true ∨ c = '+' ∨ c = '-' :=
  h.elim (fun h => h.isDigit_or_sign hc) fun h => h.signed.isDigit_or_sign hc

/-! ## Written numbers -/

theorem digitsOf_naturalText (n : Nat) : DigitsOf (naturalText n).toList n := by
  rw [naturalText, String.toList_ofList]
  exact ⟨Nat.toDigits_ne_nil, fun _ => Nat.isDigit_of_mem_toDigits (by decide) (by decide), Nat.ofDigitChars_ten_toDigits⟩

/-- Numbers are written in the usual decimal notation. -/
theorem integerText_eq_repr (n : Int) : integerText n = n.repr := by
  have hnatural (k : Nat) : naturalText k = k.repr := Nat.repr_eq_ofList_toDigits.symm
  unfold integerText Int.repr
  cases n with
  | ofNat k => exact (if_neg (Int.not_lt.mpr (Int.natCast_nonneg k))).trans (hnatural k)
  | negSucc k => exact (if_pos (Int.negSucc_lt_zero k)).trans (congrArg ("-" ++ ·) (hnatural (k + 1)))

theorem signedLiteral_integerText (n : Int) : SignedLiteral (integerText n).toList n := by
  unfold integerText
  split
  · have hn : n = -(n.natAbs : Int) := by omega
    rw [String.toList_append, hn, Int.natAbs_neg, Int.natAbs_natCast]
    exact .minus (digitsOf_naturalText n.natAbs)
  · have hn : n = (n.natAbs : Int) := by omega
    rw [hn, Int.natAbs_natCast]
    exact .plain (digitsOf_naturalText n.natAbs)

variable {sep : Char} {rest : List Char}

/-! ## Splitting -/

theorem splitChars_of_not_mem (h : sep ∉ cs) : splitChars sep cs = [cs] := by
  induction cs with
  | nil => rfl
  | cons c cs ih =>
      rw [List.mem_cons, not_or] at h
      obtain ⟨hc, hcs⟩ := h
      rw [splitChars, if_neg (Ne.symm hc), ih hcs]

theorem splitChars_append (h : sep ∉ cs) (rest : List Char) :
    splitChars sep (cs ++ sep :: rest) = cs :: splitChars sep rest := by
  induction cs with
  | nil => exact if_pos rfl
  | cons c cs ih =>
      rw [List.mem_cons, not_or] at h
      obtain ⟨hc, hcs⟩ := h
      rw [List.cons_append, splitChars, if_neg (Ne.symm hc), ih hcs]

/-- Texts without the separator are the pieces of the text that they are joined to. -/
theorem splitChars_join {bar : String} (hbar : bar.toList = [sep]) {texts : List String} (hne : texts ≠ [])
    (h : ∀ s ∈ texts, sep ∉ s.toList) : splitChars sep (join bar texts).toList = texts.map String.toList := by
  induction texts with
  | nil => exact absurd rfl hne
  | cons s rest ih =>
      obtain ⟨hs, hrest⟩ := List.forall_mem_cons.mp h
      cases rest with
      | nil => exact splitChars_of_not_mem hs
      | cons s' rest =>
          rw [join, String.toList_append, String.toList_append, hbar, List.append_assoc, List.singleton_append,
            splitChars_append hs, ih (List.cons_ne_nil s' rest) hrest]
          · rfl
          · exact List.cons_ne_nil s' rest

/-- Joined texts are one text, or the separator is among them. -/
theorem mem_join {bar : String} (hbar : bar.toList = [sep]) (texts : List String) :
    texts = [] ∨ (∃ s, texts = [s]) ∨ sep ∈ (join bar texts).toList := by
  match texts with
  | [] => exact Or.inl rfl
  | [s] => exact Or.inr (Or.inl ⟨s, rfl⟩)
  | s :: s' :: rest =>
      refine Or.inr (Or.inr ?_)
      rw [join, String.toList_append, String.toList_append, hbar]
      · simp
      · exact List.cons_ne_nil s' rest

/-! ## Trimming -/

/-- The first and the last character of a text, if it has any, are no blanks. -/
structure Trimmed (cs : List Char) : Prop where
  head : ∀ c, cs.head? = some c → isBlank c = false
  last : ∀ c, cs.getLast? = some c → isBlank c = false

theorem trimFront_eq (h : ∀ c, cs.head? = some c → isBlank c = false) : trimFront cs = cs := by
  cases cs with
  | nil => rfl
  | cons c rest =>
      have hc := h c rfl
      exact List.dropWhile_cons_of_neg (by rw [hc]; exact Bool.false_ne_true)

theorem Trimmed.trimChars_eq (h : Trimmed cs) : trimChars cs = cs := by
  have hlast : ∀ c, cs.reverse.head? = some c → isBlank c = false := by
    rw [List.head?_reverse]
    exact h.last
  rw [trimChars, trimFront_eq h.head, trimFront_eq hlast, List.reverse_reverse]

theorem trimmed_of_forall (h : ∀ c ∈ cs, isBlank c = false) : Trimmed cs where
  head c hc := h c (List.mem_of_mem_head? hc)
  last c hc := h c (List.mem_of_mem_getLast? hc)

theorem mem_trimFront (hc : c ∈ cs) (hblank : isBlank c = false) : c ∈ trimFront cs := by
  rw [← List.takeWhile_append_dropWhile (p := isBlank) (l := cs)] at hc
  refine (List.mem_append.mp hc).resolve_left fun hfront => ?_
  rw [List.mem_takeWhile_imp hfront] at hblank
  cases hblank

/-- Only blanks are taken away. -/
theorem mem_trimChars (hc : c ∈ cs) (hblank : isBlank c = false) : c ∈ trimChars cs := by
  rw [trimChars, List.mem_reverse]
  exact mem_trimFront (List.mem_reverse.mpr (mem_trimFront hc hblank)) hblank

/-! ## Characters of literals -/

/-- A character that occurs in literals is no blank. -/
theorem isBlank_of_isDigit_or_sign (h : c.isDigit = true ∨ c = '+' ∨ c = '-') : isBlank c = false := by
  rcases h with h | rfl | rfl
  · have hrange : 48 ≤ c.toNat ∧ c.toNat ≤ 57 := by
      simp only [Char.isDigit, Bool.and_eq_true, decide_eq_true_eq, ge_iff_le, UInt32.le_iff_toNat_le] at h
      exact h
    rw [Bool.eq_false_iff]
    intro hblank
    unfold isBlank at hblank
    simp only [Bool.or_eq_true, Bool.and_eq_true, decide_eq_true_eq, beq_iff_eq] at hblank
    omega
  · rfl
  · rfl

theorem WordLiteral.trimmed {word : Int64} (h : WordLiteral cs word) : Trimmed cs :=
  trimmed_of_forall fun _ hc => isBlank_of_isDigit_or_sign (h.isDigit_or_sign hc)

/-- A text with a character that occurs in no literal is not read as a word. -/
theorem payload?_eq_none_of_mem (hc : c ∈ cs) (hdigit : c.isDigit = false) (hplus : c ≠ '+') (hminus : c ≠ '-') :
    payload? cs = none := by
  cases hword : payload? cs with
  | none => rfl
  | some word =>
      rcases (payload?_eq_some_iff.mp hword).isDigit_or_sign hc with h | h | h
      · rw [hdigit] at h
        cases h
      · exact absurd h hplus
      · exact absurd h hminus

end ObjectBridge.Text
