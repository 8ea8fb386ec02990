import Mathlib.Data.List.Forall2
import ObjectBridge.Proofs.Value.Payload
import ObjectBridge.Value.Native

/-!
# Native values that come back

A native value is encoded by its type and taken again by the same type.  It comes back as it was, however deep sequences
and options are nested, if no option has a content that may be nil itself: an option around an option, or around any
value at all, takes such a content for no content.  Only types with such an option in them lose values.

A list is taken item by item, and the first item that is refused decides about the failure.

* `NativeType.decodeAll_eq_ok_iff` and `NativeType.decodeAll_eq_error_iff` — the items of a sequence.
* `NativeType.Survives` and `NativeType.survives_iff` — the types all values of which come back.
* `NativeType.natives_survive` — both together.
-/

namespace ObjectBridge

/-- A member of the first list has a partner in the second. -/
theorem exists_of_forall₂_mem {α β : Type} {r : α → β → Prop} {xs : List α} {ys : List β} (h : List.Forall₂ r xs ys)
    {x : α} (hx : x ∈ xs) : ∃ y ∈ ys, r x y := by
  induction h with
  | nil => cases hx
  | cons hfirst hrest ih =>
      rcases List.mem_cons.mp hx with rfl | hx
      · exact ⟨_, List.mem_cons_self, hfirst⟩
      · obtain ⟨y, hy, hr⟩ := ih hx
        exact ⟨y, List.mem_cons_of_mem _ hy, hr⟩

namespace NativeType

/-! ## Sequences -/

section Sequences

variable {α : Type} {decodeItem : Value → Except Error α} {v : Value} {rest vs : List Value} {xs : List α} {e : Error}

/-- A list is taken if all its items are. -/
theorem decodeAll_eq_ok_iff :
    decodeAll decodeItem vs = .ok xs ↔ List.Forall₂ (fun v x => decodeItem v = .ok x) vs xs := by
  induction vs generalizing xs with
  | nil => rw [decodeAll, Except.ok.injEq, List.forall₂_nil_left_iff, eq_comm]
  | cons v rest ih =>
      rw [decodeAll, List.forall₂_cons_left_iff]
      cases decodeItem v with
      | error e => simp
      | ok x =>
          simp only [← ih]
          cases decodeAll decodeItem rest with
          | error e => simp
          | ok ys => simp [eq_comm]

/-- What is taken of a list is taken of one of its items. -/
theorem exists_of_mem_decodeAll {x : α} (h : decodeAll decodeItem vs = .ok xs) (hx : x ∈ xs) :
    ∃ v ∈ vs, decodeItem v = .ok x :=
  exists_of_forall₂_mem (decodeAll_eq_ok_iff.mp h).flip hx

theorem decodeAll_any {items : List Value} (h : decodeAll (α := Value) Except.ok vs = .ok items) : items = vs := by
  rw [decodeAll_eq_ok_iff] at h
  simp only [Except.ok.injEq, List.forall₂_eq_eq_eq] at h
  exact h.symm

/-- Some item fails with an error, and all items in front of it are taken. -/
def FailsFirst (decodeItem : Value → Except Error α) (vs : List Value) (e : Error) : Prop :=
  ∃ taken v rest, vs = taken ++ v :: rest ∧ (∀ u ∈ taken, ∃ x, decodeItem u = .ok x) ∧ decodeItem v = .error e

theorem not_failsFirst_nil : ¬FailsFirst decodeItem [] e := by
  rintro ⟨taken, v, rest, heq, -, -⟩
  exact List.append_ne_nil_of_right_ne_nil taken (List.cons_ne_nil v rest) heq.symm

theorem failsFirst_cons_iff :
    FailsFirst decodeItem (v :: rest) e ↔
      decodeItem v = .error e ∨ (∃ x, decodeItem v = .ok x) ∧ FailsFirst decodeItem rest e := by
  constructor
  · rintro ⟨taken, u, after, heq, htaken, hu⟩
    cases taken with
    | nil =>
        obtain ⟨rfl, -⟩ := List.cons.inj heq
        exact Or.inl hu
    | cons w taken =>
        obtain ⟨rfl, hrest⟩ := List.cons.inj heq
        obtain ⟨hw, htaken⟩ := List.forall_mem_cons.mp htaken
        exact Or.inr ⟨hw, taken, u, after, hrest, htaken, hu⟩
  · rintro (hv | ⟨hv, taken, u, after, rfl, htaken, hu⟩)
    · exact ⟨[], v, rest, rfl, by simp, hv⟩
    · exact ⟨v :: taken, u, after, rfl, List.forall_mem_cons.mpr ⟨hv, htaken⟩, hu⟩

/-- A list fails with its first item that fails. -/
theorem decodeAll_eq_error_iff : decodeAll decodeItem vs = .error e ↔ FailsFirst decodeItem vs e := by
  induction vs with
  | nil => simp [decodeAll, not_failsFirst_nil]
  | cons v rest ih =>
      rw [decodeAll, failsFirst_cons_iff, ← ih]
      cases decodeItem v with
      | error e => simp
      | ok x => cases decodeAll decodeItem rest <;> simp

/-- If some item fails, one of them is the first. -/
theorem exists_failsFirst_iff :
    (∃ e, FailsFirst decodeItem vs e) ↔ ∃ v ∈ vs, ∃ e, decodeItem v = .error e := by
  induction vs with
  | nil => simp [not_failsFirst_nil]
  | cons v rest ih =>
      simp only [failsFirst_cons_iff, exists_or, exists_and_left, ih, List.exists_mem_cons_iff]
      cases decodeItem v <;> simp

end Sequences

/-! ## Types whose values come back -/

/-- Every value of the type is taken back as it was. -/
def Survives (t : NativeType) : Prop :=
  ∀ x : t.Carrier, t.decode (t.encode x) = .ok x

/-- Whether a value of the type may be encoded as nil. -/
def admitsNil : NativeType → Bool
  | .any | .option _ => true
  | _ => false

/-- Whether no option in the type has a content that may be nil. -/
def unambiguous : NativeType → Bool
  | .sequence item => item.unambiguous
  | .option content => !content.admitsNil && content.unambiguous
  | _ => true

theorem exists_isNil_encode_iff {t : NativeType} :
    (∃ x : t.Carrier, (t.encode x).isNil = true) ↔ t.admitsNil = true := by
  cases t with
  | any => exact ⟨fun _ => rfl, fun _ => ⟨Value.nil, rfl⟩⟩
  | option content => exact ⟨fun _ => rfl, fun _ => ⟨none, rfl⟩⟩
  | _ =>
      constructor
      · rintro ⟨x, hx⟩
        cases hx
      · intro h
        cases h

variable {item content : NativeType}

/-- A sequence comes back if its items do. -/
theorem survives_sequence_iff : item.sequence.Survives ↔ item.Survives := by
  constructor
  · intro h x
    have hlist : decodeAll item.decode [item.encode x] = .ok [x] := h [x]
    rw [decodeAll_eq_ok_iff, List.forall₂_cons] at hlist
    exact hlist.1
  · intro h (xs : List item.Carrier)
    have hlist : decodeAll item.decode (xs.map item.encode) = .ok xs := by
      rw [decodeAll_eq_ok_iff, List.forall₂_map_left_iff, List.forall₂_same]
      exact fun x _ => h x
    exact hlist

/-- An option comes back if its content does and is never nil. -/
theorem survives_option_iff : content.option.Survives ↔ content.admitsNil = false ∧ content.Survives := by
  have hdecode (v : Value) : content.option.decode v = if v.isNil then .ok none else (content.decode v).map some := rfl
  -- A content that is nil is taken for none, and every other content is taken by its own type.
  rw [Bool.eq_false_iff, Ne, ← exists_isNil_encode_iff, not_exists]
  constructor
  · intro h
    rw [Survives, ← forall_and]
    intro x
    have hx : content.option.decode (content.encode x) = .ok (some x) := h (some x)
    rw [hdecode] at hx
    split at hx
    · cases hx
    · rename_i hnil
      obtain ⟨y, hy, heq⟩ := map_eq_ok_iff.mp hx
      exact ⟨hnil, Option.some.inj heq ▸ hy⟩
  · rintro ⟨hnil, h⟩ (_ | x)
    · rfl
    · have hx : content.option.decode (content.encode x) = .ok (some x) := by
        rw [hdecode, if_neg (hnil x), h x]
        rfl
      exact hx

/-- The bits that a wider word repeats the sign in are dropped again. -/
theorem setWidth_signExtend_self {m k : Nat} (y : BitVec m) (h : m ≤ k) : (y.signExtend k).setWidth m = y :=
  (Word.setWidth_signExtend y h).trans (BitVec.signExtend_eq y)

theorem narrow_int8 (n : Int8) : n.toInt64.toUInt64.toUInt8.toInt8 = n :=
  Int8.toBitVec_inj.mp (setWidth_signExtend_self (k := 64) n.toBitVec (by decide))

theorem narrow_int16 (n : Int16) : n.toInt64.toUInt64.toUInt16.toInt16 = n :=
  Int16.toBitVec_inj.mp (setWidth_signExtend_self (k := 64) n.toBitVec (by decide))

theorem narrow_int32 (n : Int32) : n.toInt64.toUInt64.toUInt32.toInt32 = n :=
  Int32.toBitVec_inj.mp (setWidth_signExtend_self (k := 64) n.toBitVec (by decide))

/-- Exactly the types without ambiguous options are those all values of which come back. -/
theorem survives_iff {t : NativeType} : t.Survives ↔ t.unambiguous = true := by
  -- Without options nothing is lost: integers are widened to a word and narrowed again, and all else is kept.
  induction t with
  | int8 => exact ⟨fun _ => rfl, fun _ n => congrArg Except.ok (narrow_int8 n)⟩
  | int16 => exact ⟨fun _ => rfl, fun _ n => congrArg Except.ok (narrow_int16 n)⟩
  | int32 => exact ⟨fun _ => rfl, fun _ n => congrArg Except.ok (narrow_int32 n)⟩
  | int64 => exact ⟨fun _ => rfl, fun _ n => congrArg Except.ok (Int64.toInt64_toUInt64 n)⟩
  | uint8 => exact ⟨fun _ => rfl, fun _ n => congrArg Except.ok (UInt8.toUInt8_toUInt64 n)⟩
  | uint16 => exact ⟨fun _ => rfl, fun _ n => congrArg Except.ok (UInt16.toUInt16_toUInt64 n)⟩
  | uint32 => exact ⟨fun _ => rfl, fun _ n => congrArg Except.ok (UInt32.toUInt32_toUInt64 n)⟩
  | size => exact ⟨fun _ => rfl, fun _ n => congrArg Except.ok (USize.toUSize_toUInt64 n)⟩
  | sequence item ih => rw [survives_sequence_iff, ih, unambiguous]
  | option content ih => simp [survives_option_iff, ih, unambiguous]
  | _ => exact ⟨fun _ => rfl, fun _ _ => rfl⟩

/-- All values of a type come back if and only if the type has no ambiguous options.  A list is taken for a sequence
if all its items are taken, and otherwise fails with the first that is not. -/
theorem natives_survive (t : NativeType) :
    ((∀ x : t.Carrier, t.decode (t.encode x) = .ok x) ↔ t.unambiguous = true) ∧
      ∀ vs : List Value,
        (∀ e, t.sequence.decode (.list vs) = .error e ↔ FailsFirst t.decode vs e) ∧
        ((∃ e, t.sequence.decode (.list vs) = .error e) ↔ ∃ v ∈ vs, ∃ e, t.decode v = .error e) ∧
        ∀ xs : List t.Carrier,
          t.sequence.decode (.list vs) = .ok xs ↔ List.Forall₂ (fun v x => t.decode v = .ok x) vs xs := by
  refine ⟨survives_iff, fun vs => ⟨fun e => decodeAll_eq_error_iff, ?_, fun xs => decodeAll_eq_ok_iff⟩⟩
  rw [← exists_failsFirst_iff]
  exact exists_congr fun e => decodeAll_eq_error_iff

/-- Options in a list in an option. -/
def nestedOptions : NativeType := .option (.sequence (.option .uint64))

/-- Nil in a list comes back as none, and a list of numbers fails with the text in front of the nil. -/
theorem nestedOptions_survive :
    let numbers : Option (List (Option UInt64)) := some [none, some 0xFFFFFFFFFFFFFFFF]
    nestedOptions.unambiguous = true ∧
      nestedOptions.encode numbers = .list [.nil, .uint 0xFFFFFFFFFFFFFFFF] ∧
      nestedOptions.decode (nestedOptions.encode numbers) = .ok numbers ∧
      (¬∀ x : (option nestedOptions).Carrier, (option nestedOptions).decode ((option nestedOptions).encode x) = .ok x) ∧
      (sequence .int32).decode (.list [.int 1, .text "two", .nil]) = .error (.unexpectedValue "int" "string") := by
  intro numbers
  refine ⟨rfl, rfl, (natives_survive nestedOptions).1.mpr rfl numbers, ?_, ?_⟩
  · rw [(natives_survive (option nestedOptions)).1]
    exact Bool.false_ne_true
  · refine ((natives_survive .int32).2 _).1 _ |>.mpr ⟨[.int 1], .text "two", [.nil], rfl, ?_, rfl⟩
    exact List.forall_mem_singleton.mpr ⟨(1 : Int32), rfl⟩

end NativeType

end ObjectBridge
