import Mathlib.Data.Int.ModEq
import ObjectBridge.Proofs.Value.Unfolding
import ObjectBridge.Proofs.Value.WellTyped

/-!
# Integers that are wrapped

Every integer is brought into the range of the integer type that is declared for it, alone, in boxes, and as a part of
a list or a map.  The result is the only value of the type whose number differs from the integer by a multiple of
`2 ^ width`.

An enumeration reads an unsigned integer as a word with a sign, and refuses the upper half of the unsigned words, which
no such word holds (`upper_half_refused`).

* `IntegerType.Represents` — the number of a type for a whole number; `represents_iff` says that there is one.
* `IntegerType.numberOf_truncate` — payloads are wrapped as numbers are.
* `Ty.Wraps` — the value of a type for a whole number.
* `Conversion.Opens` — what is in boxes.
* `Conversion.Integral`, `Conversion.Excessive` and `Conversion.Wrapped` — values made of integers, the integers that
  are refused, and what becomes of the others.
* `Conversion.integers_wrap` — conversion wraps integers.
-/

namespace ObjectBridge

/-! ## Numbers of a type -/

namespace IntegerType

/-- A whole number is in the range of the type. -/
def Contains (t : IntegerType) (m : Int) : Prop :=
  if t.signed then -2 ^ (t.width - 1) ≤ m ∧ m < 2 ^ (t.width - 1) else 0 ≤ m ∧ m < 2 ^ t.width

/-- A number of the type stands for a whole number, from which it differs by a multiple of `2 ^ width`. -/
structure Represents (t : IntegerType) (n m : Int) : Prop where
  contains : t.Contains m
  congruent : m ≡ n [ZMOD 2 ^ t.width]

/-- The number that a payload of an enumeration over the type stands for. -/
def numberOf (t : IntegerType) (payload : Int64) : Int :=
  if t.signed then payload.toInt else payload.toUInt64.toNat

variable (t : IntegerType) {n m : Int}

theorem natCast_size : (t.size : Int) = 2 ^ t.width := by
  simp [size]

/-- Reducing a number leaves it as it is exactly if it is in the range. -/
theorem reduce_eq_self_iff : t.reduce m = m ↔ t.Contains m := by
  have hpos : (0 : Int) < 2 ^ t.width := by positivity
  unfold reduce Contains
  split
  · exact t.bmod_size_eq_iff m
  · rw [natCast_size]
    exact ⟨fun h => ⟨h ▸ Int.emod_nonneg m hpos.ne', h ▸ Int.emod_lt_of_pos m hpos⟩,
      fun h => Int.emod_eq_of_lt h.1 h.2⟩

theorem reduce_modEq (n : Int) : t.reduce n ≡ n [ZMOD 2 ^ t.width] := by
  rw [← natCast_size]
  unfold reduce
  split
  · exact Int.bmod_emod
  · exact Int.mod_modEq n _

theorem reduce_congr (h : m ≡ n [ZMOD 2 ^ t.width]) : t.reduce m = t.reduce n := by
  rw [← natCast_size] at h
  unfold reduce
  split
  · rw [← Int.emod_bmod, h.eq, Int.emod_bmod]
  · exact h

/-- There is exactly one number of the type for a whole number. -/
theorem represents_iff : t.Represents n m ↔ m = t.reduce n := by
  constructor
  · intro h
    rw [← (t.reduce_eq_self_iff).mpr h.contains, t.reduce_congr h.congruent]
  · rintro rfl
    exact ⟨(t.reduce_eq_self_iff).mp (t.reduce_reduce n), t.reduce_modEq n⟩

/-! ## Payloads -/

/-- A payload that is brought into the type stands for the number that its own number is reduced to. -/
theorem numberOf_truncate (payload : Int64) : t.numberOf (t.truncate payload) = t.reduce payload.toInt := by
  have hle := t.width_le
  have hdvd : 2 ^ t.width ∣ 2 ^ 64 := Nat.pow_dvd_pow 2 hle
  have hbits := t.toBitVec_truncate payload
  have hint : payload.toInt = Int.bmod payload.toBitVec.toNat (2 ^ 64) := BitVec.toInt_eq_toNat_bmod _
  unfold numberOf reduce
  -- The width divides that of a payload, so to reduce twice is to reduce to the smaller width.
  cases hsigned : t.signed with
  | true =>
      rw [hsigned, if_pos rfl] at hbits
      show (t.truncate payload).toBitVec.toInt = payload.toInt.bmod (2 ^ t.width)
      rw [hbits, BitVec.toInt_signExtend_of_le hle, BitVec.toInt_setWidth, hint,
        Int.bmod_bmod_of_dvd hdvd]
  | false =>
      rw [hsigned, if_neg Bool.false_ne_true] at hbits
      have hlt : payload.toBitVec.toNat % 2 ^ t.width < 2 ^ 64 :=
        Nat.lt_of_lt_of_le (Nat.mod_lt _ t.size_pos) t.size_le
      show ((t.truncate payload).toBitVec.toNat : Int) = payload.toInt % (t.size : Int)
      rw [hbits, BitVec.toNat_setWidth, BitVec.toNat_setWidth, Nat.mod_eq_of_lt hlt, hint, Int.natCast_emod]
      have hsize : (t.size : Int) ∣ (2 ^ 64 : Nat) := Int.natCast_dvd_natCast.mpr hdvd
      rw [← Int.emod_emod_of_dvd (Int.bmod _ _) hsize, Int.bmod_emod, Int.emod_emod_of_dvd _ hsize]
      rfl

theorem numberOf_injective {p q : Int64} (h : t.numberOf p = t.numberOf q) : p = q := by
  unfold numberOf at h
  split at h
  · exact Int64.toInt_inj.mp h
  · have hword : p.toUInt64 = q.toUInt64 := UInt64.toNat_inj.mp (Int.ofNat_inj.mp h)
    rw [← p.toInt64_toUInt64, ← q.toInt64_toUInt64, hword]

end IntegerType

/-! ## Values that stand for integers -/

/-- The number of an integer value. -/
def Value.whole? : Value → Option Int
  | .int n => some n.toInt
  | .uint n => some n.toNat
  | _ => none

namespace Ty

/-- The integer type that values of a type are numbers or payloads of. -/
def integerType? : Ty → Option IntegerType
  | .int t => some t
  | .enum t | .flags t => some t.backing
  | _ => none

/-- The number that a value of such a type stands for. -/
def number? : Ty → Value → Option Int
  | .int t, .int n => if t.signed then some n.toInt else none
  | .int t, .uint n => if t.signed then none else some n.toNat
  | .enum t, .enum e => if e.type = t then some (t.backing.numberOf e.payload) else none
  | .flags t, .flags f => if f.type = t then some (t.backing.numberOf f.bits) else none
  | _, _ => none

/-- A value of a type stands for a whole number that was brought into the range of the type. -/
def Wraps (type : Ty) (n : Int) (u : Value) : Prop :=
  ∃ t m, type.integerType? = some t ∧ type.number? u = some m ∧ t.Represents n m

variable {type : Ty} {n m : Int} {u v : Value}

theorem number?_injective (hu : type.number? u = some m) (hv : type.number? v = some m) : u = v := by
  cases type <;> cases u <;> try cases hu
  all_goals cases v <;> try cases hv
  all_goals simp only [number?, Option.ite_none_left_eq_some, Option.ite_none_right_eq_some,
    Option.some.injEq] at hu hv
  case int.int.int t k l => rw [Int64.toInt_inj.mp (hu.2.trans hv.2.symm)]
  case int.uint.uint t k l => rw [UInt64.toNat_inj.mp (Int.ofNat_inj.mp (hu.2.trans hv.2.symm))]
  case int.int.uint t k l => exact absurd hu.1 hv.1
  case int.uint.int t k l => exact absurd hv.1 hu.1
  case enum.enum.enum t e f =>
      obtain ⟨type, payload⟩ := e
      obtain ⟨_, other⟩ := f
      obtain ⟨⟨rfl, he⟩, rfl, hf⟩ := And.intro hu hv
      obtain rfl : payload = other := IntegerType.numberOf_injective _ (he.trans hf.symm)
      rfl
  case flags.flags.flags t e f =>
      obtain ⟨type, bits⟩ := e
      obtain ⟨_, other⟩ := f
      obtain ⟨⟨rfl, he⟩, rfl, hf⟩ := And.intro hu hv
      obtain rfl : bits = other := IntegerType.numberOf_injective _ (he.trans hf.symm)
      rfl

/-- There is only one value of the type for a whole number. -/
theorem Wraps.iff_eq (h : type.Wraps n u) : type.Wraps n v ↔ v = u := by
  constructor
  · rintro ⟨t, m, ht, hv, hm⟩
    obtain ⟨t', m', ht', hu, hm'⟩ := h
    obtain rfl : t = t' := Option.some.inj (ht.symm.trans ht')
    rw [t.represents_iff.mp hm] at hv
    rw [t.represents_iff.mp hm'] at hu
    exact number?_injective hv hu
  · rintro rfl
    exact h

theorem wraps_wrap (t : IntegerType) (n : Int) : (Ty.int t).Wraps n (t.wrap n) := by
  refine ⟨t, t.reduce n, rfl, ?_, t.represents_iff.mpr rfl⟩
  have hread := Conversion.toInteger?_wrap t n
  rw [IntegerType.wrap_eq] at hread ⊢
  split at hread
  · rename_i hsigned
    rw [if_pos hsigned, number?, if_pos hsigned]
    exact congrArg some (Prod.mk.inj (Option.some.inj hread)).1
  · rename_i hunsigned
    rw [if_neg hunsigned, number?, if_neg hunsigned]
    exact congrArg some (Prod.mk.inj (Option.some.inj hread)).1

theorem wraps_ofPayload (t : EnumType) (payload : Int64) :
    (Ty.enum t).Wraps payload.toInt (.enum (.ofPayload t payload)) := by
  refine ⟨t.backing, _, rfl, if_pos rfl, ?_⟩
  exact t.backing.represents_iff.mpr (t.backing.numberOf_truncate payload)

theorem wraps_ofBits (t : EnumType) (bits : Int64) :
    (Ty.flags t).Wraps bits.toInt (.flags (.ofBits t bits)) := by
  refine ⟨t.backing, _, rfl, if_pos rfl, ?_⟩
  exact t.backing.represents_iff.mpr (t.backing.numberOf_truncate bits)

end Ty

namespace Conversion

variable {w : World} {type : Ty} {passing : Passing} {u v x : Value} {cost : Nat} {n : Int}

/-! ## Opening boxes -/

/-- A value, or what is in the box that it is, and in the box that this may be. -/
inductive Opens (cells : Cells) : Value → Value → Prop
  | self (v : Value) : Opens cells v v
  | box {b : BoxId} {v : Value} : Opens cells (cells.content b) v → Opens cells (.box b) v

/-- Boxes are looked through as far as they go. -/
theorem Opens.behind_eq {cells : Cells} (h : Opens cells v x) (hbox : x.box? = none) :
    behind cells (cells.size + 1) v = x := by
  obtain ⟨depth, hdepth⟩ : ∃ depth, behind cells depth v = x := by
    induction h with
    | self v => exact ⟨0, rfl⟩
    | box _ ih =>
        obtain ⟨depth, hdepth⟩ := ih hbox
        exact ⟨depth + 1, hdepth⟩
  have hend : (behind cells (cells.size + 1) v).box? = none := box?_behind_size (hdepth ▸ hbox)
  -- Going on from either depth changes nothing, and both lead as far in the end.
  have hfrom := behind_add cells depth (cells.size + 1) v
  rw [hdepth, behind_of_box?_eq_none hbox, Nat.add_comm, behind_add, behind_of_box?_eq_none hend] at hfrom
  exact hfrom

theorem Opens.throughBoxes_eq {f : Value → Except Refusal Converted} (h : Opens w.cells v x) (hbox : x.box? = none)
    (hnil : x.isNil = false) : throughBoxes w type passing v f = f x := by
  unfold throughBoxes
  simp only [h.behind_eq hbox, hnil, Bool.false_eq_true, if_false]

/-! ## Parts -/

theorem isSome_items?_iff {item : Value → Except Refusal Converted} {vs : List Value} :
    (∃ c, items? item vs = some c) ↔ ∀ x ∈ vs, ∃ c, item x = .ok c := by
  induction vs with
  | nil => simp [items?]
  | cons x rest ih =>
      rw [List.forall_mem_cons, ← ih, items?]
      cases item x with
      | error cause => simp
      | ok c => simp

theorem isSome_entries?_iff {key value : Value → Except Refusal Converted} {es : List (Value × Value)} :
    (∃ c, entries? key value es = some c) ↔
      ∀ e ∈ es, (∃ c, key e.1 = .ok c) ∧ ∃ c, value e.2 = .ok c := by
  induction es with
  | nil => simp [entries?]
  | cons e rest ih =>
      rw [List.forall_mem_cons, ← ih, entries?]
      cases key e.1 with
      | error cause => simp
      | ok k =>
          cases value e.2 with
          | error cause => simp
          | ok c => simp

/-- A list is converted exactly if all its items are. -/
theorem Opens.exists_convert_list_iff {item : Ty} {vs : List Value} (h : Opens w.cells v (.list vs)) :
    (∃ c, convert w (.list item) passing v = .ok c) ↔ ∀ x ∈ vs, ∃ c, convert w item .value x = .ok c := by
  rw [← isSome_items?_iff, convert_list, h.throughBoxes_eq rfl rfl]
  simp only [toList, Cells.orMismatch_eq_ok_iff, Value.list?, Option.bind_eq_bind, Option.bind_some]
  cases items? (convert w item .value) vs <;> simp

/-- A map is converted exactly if all its keys and values are. -/
theorem Opens.exists_convert_map_iff {key value : Ty} {es : List (Value × Value)} (h : Opens w.cells v (.map es)) :
    (∃ c, convert w (.map key value) passing v = .ok c) ↔
      ∀ e ∈ es, (∃ c, convert w key .value e.1 = .ok c) ∧ ∃ c, convert w value .value e.2 = .ok c := by
  rw [← isSome_entries?_iff, convert_map, h.throughBoxes_eq rfl rfl]
  simp only [toMap, Cells.orMismatch_eq_ok_iff, Value.map?, Option.bind_eq_bind, Option.bind_some]
  cases entries? (convert w key .value) (convert w value .value) es <;> simp

/-! ## Integers -/

theorem int64?_eq_none {k : UInt64} (hlarge : 2 ^ 63 ≤ k.toNat) : (Value.uint k).int64? = none :=
  if_neg (Nat.not_lt.mpr hlarge)

/-- An integer is in the range of the words with a sign, or in the upper half of those without. -/
theorem int64?_of_whole? (hx : x.whole? = some n) :
    (∃ word, x.int64? = some word ∧ word.toInt = n) ∨ ∃ k, x = .uint k ∧ 2 ^ 63 ≤ k.toNat := by
  cases x <;> try cases hx
  case int k => exact Or.inl ⟨k, rfl, rfl⟩
  case uint k =>
    by_cases hlt : k.toNat < 2 ^ 63
    · have hsmall : 2 * k.toBitVec.toNat < 2 ^ 64 := by
        show 2 * k.toNat < 2 ^ 64
        omega
      exact Or.inl ⟨k.toInt64, if_pos hlt, BitVec.toInt_eq_toNat_of_lt hsmall⟩
    · exact Or.inr ⟨k, rfl, Nat.le_of_not_lt hlt⟩

theorem toInteger?_of_whole? (hx : x.whole? = some n) : toInteger? x = some (n, 0) := by
  cases x <;> cases hx <;> rfl

theorem toPayload?_of_whole? (t : EnumType) (hx : x.whole? = some n) :
    toPayload? t x = x.int64?.map fun word => (word, 1) := by
  cases x <;> cases hx <;> rfl

theorem toBits?_of_whole? (t : EnumType) (hx : x.whole? = some n) :
    toBits? t x = x.int64?.map fun word => (word, 1) := by
  cases x <;> cases hx <;> rfl

theorem box?_of_whole? (hx : x.whole? = some n) : x.box? = none := by
  cases x <;> cases hx <;> rfl

theorem isNil_of_whole? (hx : x.whole? = some n) : x.isNil = false := by
  cases x <;> cases hx <;> rfl

/-- An integer is converted by itself, however many boxes it is in. -/
theorem Opens.convert_whole {t : IntegerType} (h : Opens w.cells v x) (ht : type.integerType? = some t)
    (hx : x.whole? = some n) : convert w type passing v = orMismatch type x (scalar? type x) := by
  have hscalar : isScalar type = true := by
    cases type <;> first | rfl | cases ht
  rw [convert_scalar hscalar, h.throughBoxes_eq (box?_of_whole? hx) (isNil_of_whole? hx), toScalar]

/-- The form of a converted integer. -/
theorem wraps_of_scalar? {t : IntegerType} (ht : type.integerType? = some t) (hx : x.whole? = some n)
    (h : scalar? type x = some (u, cost)) : type.Wraps n u := by
  -- A word that stands for the number has its value; a larger number has no word.
  have hword (word : Int64) (hword : x.int64? = some word) : word.toInt = n := by
    rcases int64?_of_whole? hx with ⟨word', hword', hn⟩ | ⟨k, rfl, hlarge⟩
    · rwa [Option.some.inj (hword.symm.trans hword')]
    · rw [int64?_eq_none hlarge] at hword
      cases hword
  cases type with
  | int t =>
      rw [scalar?, toInteger?_of_whole? hx] at h
      rw [← (Prod.mk.inj (Option.some.inj h)).1]
      exact Ty.wraps_wrap t n
  | enum t =>
      rw [scalar?, toPayload?_of_whole? t hx, Option.map_map, Option.map_eq_some_iff] at h
      obtain ⟨word, hx, heq⟩ := h
      rw [← (Prod.mk.inj heq).1, ← hword word hx]
      exact Ty.wraps_ofPayload t word
  | flags t =>
      rw [scalar?, toBits?_of_whole? t hx, Option.map_map, Option.map_eq_some_iff] at h
      obtain ⟨word, hx, heq⟩ := h
      rw [← (Prod.mk.inj heq).1, ← hword word hx]
      exact Ty.wraps_ofBits t word
  | _ => cases ht

/-! ## Integers anywhere in a value -/

/-- A value has integers, alone or in boxes, where a type asks for them, and is convertible elsewhere. -/
inductive Integral (w : World) : Ty → Passing → Value → Prop
  | whole {type : Ty} {t : IntegerType} {passing : Passing} {v x : Value} {n : Int} :
      type.integerType? = some t → Opens w.cells v x → x.whole? = some n → Integral w type passing v
  | list {item : Ty} {passing : Passing} {v : Value} {vs : List Value} :
      Opens w.cells v (.list vs) → (∀ x ∈ vs, Integral w item .value x) → Integral w (.list item) passing v
  | map {key value : Ty} {passing : Passing} {v : Value} {es : List (Value × Value)} :
      Opens w.cells v (.map es) → (∀ e ∈ es, Integral w key .value e.1) →
      (∀ e ∈ es, Integral w value .value e.2) → Integral w (.map key value) passing v
  | other {type : Ty} {passing : Passing} {v : Value} :
      (∃ c, convert w type passing v = .ok c) → Integral w type passing v

/-- A value has somewhere an integer that no word with a sign holds, and there the type asks for an enumeration. -/
inductive Excessive (w : World) : Ty → Value → Prop
  | enum {t : EnumType} {v : Value} {n : UInt64} :
      Opens w.cells v (.uint n) → 2 ^ 63 ≤ n.toNat → Excessive w (.enum t) v
  | flags {t : EnumType} {v : Value} {n : UInt64} :
      Opens w.cells v (.uint n) → 2 ^ 63 ≤ n.toNat → Excessive w (.flags t) v
  | item {item : Ty} {v x : Value} {vs : List Value} :
      Opens w.cells v (.list vs) → x ∈ vs → Excessive w item x → Excessive w (.list item) v
  | key {key value : Ty} {v : Value} {es : List (Value × Value)} {e : Value × Value} :
      Opens w.cells v (.map es) → e ∈ es → Excessive w key e.1 → Excessive w (.map key value) v
  | value {key value : Ty} {v : Value} {es : List (Value × Value)} {e : Value × Value} :
      Opens w.cells v (.map es) → e ∈ es → Excessive w value e.2 → Excessive w (.map key value) v

/-- What became of a value: wherever the type asks for an integer and the value has one, it is the only value of the
type that stands for it.  The entries of a map are made from what became of its entries, in order. -/
def Wrapped (w : World) : Ty → Value → Value → Prop
  | .list item, v, u => ∀ vs, Opens w.cells v (.list vs) →
      ∃ us, u = .list us ∧ List.Forall₂ (fun x y => Wrapped w item x y) vs us
  | .map key value, v, u => ∀ es, Opens w.cells v (.map es) →
      ∃ ds, u = .map (ValueMap.ofEntries w.eqv ds) ∧
        List.Forall₂ (fun e d => Wrapped w key e.1 d.1 ∧ Wrapped w value e.2 d.2) es ds
  | type, v, u => type.integerType?.isSome = true → ∀ x n, Opens w.cells v x → x.whole? = some n →
      ∀ y, type.Wraps n y ↔ y = u

/-- What is converted is wrapped. -/
theorem wrapped_of_convert (h : convert w type passing v = .ok (u, cost)) : Wrapped w type v u := by
  induction type generalizing passing v u cost with
  | list item ih =>
      intro vs hopens
      rw [convert_list, hopens.throughBoxes_eq rfl rfl] at h
      obtain ⟨_, us, heq, rfl, hitems⟩ := exists_items_of_toList h
      obtain rfl := Value.list.inj heq
      exact ⟨us, rfl, (forall₂_of_items? hitems).imp fun _ _ ⟨_, hx⟩ => ih hx⟩
  | map key value ihKey ihValue =>
      intro es hopens
      rw [convert_map, hopens.throughBoxes_eq rfl rfl] at h
      obtain ⟨_, ds, heq, rfl, hentries⟩ := exists_entries_of_toMap h
      obtain rfl := Value.map.inj heq
      exact ⟨ds, rfl, (forall₂_of_entries? hentries).imp fun _ _ ⟨⟨_, hk⟩, _, hx⟩ => ⟨ihKey hk, ihValue hx⟩⟩
  | object cls | any =>
      intro hsome
      cases hsome
  | _ =>
      intro hsome x n hopens hx y
      obtain ⟨t, ht⟩ := Option.isSome_iff_exists.mp hsome
      rw [hopens.convert_whole ht hx] at h
      exact (wraps_of_scalar? ht hx (Cells.orMismatch_eq_ok_iff.mp h)).iff_eq

/-- An integer in the upper half of the words without a sign is not converted to an enumeration. -/
theorem Excessive.convert_ne_ok (h : Excessive w type v) : ¬∃ c, convert w type passing v = .ok c := by
  induction h generalizing passing with
  | enum hopens hlarge =>
      rw [hopens.convert_whole rfl rfl, scalar?, toPayload?_of_whole? _ rfl, int64?_eq_none hlarge]
      rintro ⟨c, hc⟩
      cases hc
  | flags hopens hlarge =>
      rw [hopens.convert_whole rfl rfl, scalar?, toBits?_of_whole? _ rfl, int64?_eq_none hlarge]
      rintro ⟨c, hc⟩
      cases hc
  | item hopens hx _ ih => exact fun hall => ih (hopens.exists_convert_list_iff.mp hall _ hx)
  | key hopens he _ ih => exact fun hall => ih (hopens.exists_convert_map_iff.mp hall _ he).1
  | value hopens he _ ih => exact fun hall => ih (hopens.exists_convert_map_iff.mp hall _ he).2

theorem Integral.exists_convert (h : Integral w type passing v) (hsmall : ¬Excessive w type v) :
    ∃ c, convert w type passing v = .ok c := by
  induction h with
  | @whole type t passing v x n ht hopens hx =>
      rw [hopens.convert_whole ht hx]
      cases type with
      | int t => exact ⟨_, by rw [scalar?, toInteger?_of_whole? hx]; rfl⟩
      | enum t =>
          rcases int64?_of_whole? hx with ⟨word, hword, -⟩ | ⟨k, rfl, hlarge⟩
          · exact ⟨_, by rw [scalar?, toPayload?_of_whole? t hx, hword]; rfl⟩
          · exact absurd (.enum hopens hlarge) hsmall
      | flags t =>
          rcases int64?_of_whole? hx with ⟨word, hword, -⟩ | ⟨k, rfl, hlarge⟩
          · exact ⟨_, by rw [scalar?, toBits?_of_whole? t hx, hword]; rfl⟩
          · exact absurd (.flags hopens hlarge) hsmall
      | _ => cases ht
  | list hopens _ ih =>
      exact hopens.exists_convert_list_iff.mpr fun x hx => ih x hx fun hlarge => hsmall (.item hopens hx hlarge)
  | map hopens _ _ ihKey ihValue =>
      refine hopens.exists_convert_map_iff.mpr fun e he => ⟨ihKey e he fun hlarge => ?_, ihValue e he fun hlarge => ?_⟩
      · exact hsmall (.key hopens he hlarge)
      · exact hsmall (.value hopens he hlarge)
  | other hconv => exact hconv

/-- Integers become the only values of their types that stand for them, alone, in boxes, and as parts of lists and
maps.  A value that has integers where a type asks for them is converted, except if one of them stands for an
enumeration and is in the upper half of the words without a sign. -/
theorem integers_wrap (w : World) (type : Ty) (passing : Passing) (v : Value) :
    (Integral w type passing v → ((∃ c, convert w type passing v = .ok c) ↔ ¬Excessive w type v)) ∧
      ∀ u cost, convert w type passing v = .ok (u, cost) → Wrapped w type v u :=
  ⟨fun hintegral => ⟨fun hconv hlarge => hlarge.convert_ne_ok hconv, hintegral.exists_convert⟩,
    fun _ _ => wrapped_of_convert⟩

/-- A set of three flags. -/
def threeFlags : EnumType := ⟨"Mode", ⟨3, false⟩, []⟩

/-- A map from bytes to lists of sets of flags. -/
def narrowType : Ty := .map (.int .uint8) (.list (.flags threeFlags))

/-- A number that is no byte, in two boxes. -/
def nestedBoxes : World where
  cells := #[.uint 300, .box 0]

/-- A map with numbers that do not fit. -/
def wideNumbers : Value :=
  .map [(.box 1, .list [.int (-1)]), (.int (-1), .list [.int 9, .uint 8])]

/-- The same map with the numbers that do. -/
def narrowNumbers : Value :=
  .map [(.uint 44, .list [.flags ⟨threeFlags, 7⟩]),
    (.uint 255, .list [.flags ⟨threeFlags, 1⟩, .flags ⟨threeFlags, 0⟩])]

/-- Numbers in boxes, negative numbers and numbers that are too large become what they stand for. -/
theorem wideNumbers_wrap : Integral nestedBoxes narrowType .value wideNumbers ∧
    convert nestedBoxes narrowType .value wideNumbers = .ok (narrowNumbers, 1) ∧
    ¬Excessive nestedBoxes narrowType wideNumbers ∧ Wrapped nestedBoxes narrowType wideNumbers narrowNumbers := by
  have hconv : convert nestedBoxes narrowType .value wideNumbers = .ok (narrowNumbers, 1) := rfl
  have hkeys : ∀ e ∈ wideNumbers.map?.getD [], Integral nestedBoxes (.int .uint8) .value e.1 := by
    simp only [wideNumbers, Value.map?, Option.getD_some, List.forall_mem_cons]
    exact ⟨.whole rfl (.box (.box (.self _))) rfl, .whole rfl (.self _) rfl, fun _ he => absurd he List.not_mem_nil⟩
  have hvalues : ∀ e ∈ wideNumbers.map?.getD [], Integral nestedBoxes (.list (.flags threeFlags)) .value e.2 := by
    have hlist (numbers : List Value) (h : ∀ x ∈ numbers, ∃ n, x.whole? = some n) :
        Integral nestedBoxes (.list (.flags threeFlags)) .value (.list numbers) := by
      refine .list (.self _) fun x hx => ?_
      obtain ⟨n, hn⟩ := h x hx
      exact .whole rfl (.self _) hn
    simp only [wideNumbers, Value.map?, Option.getD_some, List.forall_mem_cons]
    exact ⟨hlist _ (by simp [Value.whole?]), hlist _ (by simp [Value.whole?]), fun _ he => absurd he List.not_mem_nil⟩
  have hintegral : Integral nestedBoxes narrowType .value wideNumbers := .map (.self _) hkeys hvalues
  obtain ⟨hiff, hwrapped⟩ := integers_wrap nestedBoxes narrowType .value wideNumbers
  exact ⟨hintegral, hconv, (hiff hintegral).mp ⟨_, hconv⟩, hwrapped _ _ hconv⟩

/-- An enumeration over the words without a sign. -/
def wordEnum : EnumType := ⟨"Word", .uint64, []⟩

/-- A word in the upper half is refused by an enumeration over the words without a sign, which it is in the range of. -/
theorem upper_half_refused : ¬∀ (w : World) (type : Ty) (passing : Passing) (t : IntegerType) (v x : Value) (n : Int),
    type.integerType? = some t → Opens w.cells v x → x.whole? = some n →
      ∃ u cost, convert w type passing v = .ok (u, cost) ∧ ∀ y, type.Wraps n y ↔ y = u := by
  intro hall
  obtain ⟨u, cost, hconv, -⟩ :=
    hall {} (.enum wordEnum) .value .uint64 (.uint 0x8000000000000000) _ _ rfl (.self _) rfl
  have hrefused : convert {} (.enum wordEnum) .value (.uint 0x8000000000000000) = .error (.mismatch "Word" "uint") := rfl
  rw [hrefused] at hconv
  cases hconv

end Conversion

end ObjectBridge
