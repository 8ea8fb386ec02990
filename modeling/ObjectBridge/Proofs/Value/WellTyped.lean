import ObjectBridge.Proofs.Value.Equivalence

/-!
# Well-typed values

A value is well typed if it has the form that its declared type asks for, all the way down: numbers in the range of
the width, payloads of the declared enumeration, lists and maps of well-typed parts with keys that differ, and live
objects of the class or of one that derives from it.  Conversion gives such values and leaves them as they are.

* `Conversion.WellTyped` — the form of the values of a type.
* `Conversion.wellTyped_of_convert` and `Conversion.convert_of_wellTyped` — what conversion gives, and what it keeps.
* `Conversion.carriesOver_of_convert` — which items and entries the parts of a converted value come from.
* `Conversion.retraction` — conversion maps onto the well-typed values and is the identity on them.
-/

namespace ObjectBridge

/-! ## Numbers in range -/

namespace IntegerType

/-- A value is a number of an integer type: it has the kind of the signedness and is in the range of the width. -/
def Holds (t : IntegerType) : Value → Prop
  | .int n => t.signed = true ∧ -2 ^ (t.width - 1) ≤ n.toInt ∧ n.toInt < 2 ^ (t.width - 1)
  | .uint n => t.signed = false ∧ n.toNat < 2 ^ t.width
  | _ => False

variable (t : IntegerType)

theorem size_eq : t.size = 2 * 2 ^ (t.width - 1) := by
  have hpos := t.width_pos
  rw [size, Nat.pow_eq, ← Nat.pow_succ', Nat.succ_eq_add_one, Nat.sub_add_cancel hpos]

/-- A signed number is in the range exactly if reducing it leaves it as it is. -/
theorem bmod_size_eq_iff (n : Int) :
    n.bmod t.size = n ↔ -2 ^ (t.width - 1) ≤ n ∧ n < 2 ^ (t.width - 1) := by
  have hsize := t.size_eq
  have hpos := t.size_pos
  have hcast : (t.size : Int) = 2 * 2 ^ (t.width - 1) := by
    rw [hsize]
    push_cast
    rfl
  constructor
  · intro h
    have hlower := Int.le_bmod (x := n) hpos
    have hupper := Int.bmod_lt (x := n) hpos
    omega
  · rintro ⟨hlower, hupper⟩
    exact Int.bmod_eq_of_le (by omega) (by omega)

theorem holds_wrap (n : Int) : t.Holds (t.wrap n) := by
  have hread := Conversion.toInteger?_wrap t n
  -- A number is of the type if it is reduced to itself, and a reduced one is.
  have htwice := t.reduce_reduce n
  rw [wrap_eq] at hread ⊢
  split at hread
  · rename_i hsigned
    rw [if_pos hsigned]
    obtain ⟨hint, -⟩ := Prod.mk.inj (Option.some.inj hread)
    rw [Holds, hint]
    rw [reduce, if_pos hsigned] at htwice
    exact ⟨hsigned, (t.bmod_size_eq_iff _).mp htwice⟩
  · rename_i hunsigned
    rw [if_neg hunsigned]
    obtain ⟨hint, -⟩ := Prod.mk.inj (Option.some.inj hread)
    have hupper : t.reduce n < t.size := by
      rw [reduce, if_neg hunsigned]
      exact Int.emod_lt_of_pos n (Int.natCast_pos.mpr t.size_pos)
    refine ⟨Bool.eq_false_iff.mpr hunsigned, ?_⟩
    show _ < t.size
    omega

/-- A number of the type is read as a number that becomes itself. -/
theorem Holds.read {t : IntegerType} {v : Value} (h : t.Holds v) :
    v.box? = none ∧ v.isNil = false ∧ ∃ n, Conversion.toInteger? v = some (n, 0) ∧ t.wrap n = v := by
  cases v with
  | int n =>
      obtain ⟨hsigned, hrange⟩ := h
      refine ⟨rfl, rfl, n.toInt, rfl, ?_⟩
      rw [wrap_eq, if_pos hsigned, reduce, if_pos hsigned, (t.bmod_size_eq_iff _).mpr hrange, Int64.ofInt_toInt]
  | uint n =>
      obtain ⟨hunsigned, hrange⟩ := h
      refine ⟨rfl, rfl, n.toNat, rfl, ?_⟩
      have hsigned : ¬t.signed = true := by rw [hunsigned]; exact Bool.false_ne_true
      have hreduce : t.reduce n.toNat = n.toNat := by
        rw [reduce, if_neg hsigned]
        exact Int.emod_eq_of_lt (Int.natCast_nonneg _) (Int.ofNat_lt.mpr hrange)
      rw [wrap_eq, if_neg hsigned, hreduce, Int.toNat_natCast, UInt64.ofNat_toNat]
  | _ => exact h.elim

end IntegerType

namespace Conversion

variable {w : World} {type : Ty} {passing : Passing} {u v : Value} {cost : Nat}

/-! ## The form of the values of a type -/

/-- The form of the values of a type without parts. -/
def OfScalar : Ty → Value → Prop
  | .bool, v => ∃ b, v = .bool b
  | .int t, v => t.Holds v
  | .double, v => ∃ x, v = .float x
  | .text, v => ∃ s, v = .text s
  | .bytes, v => ∃ data, v = .bytes data
  | .enum t, v => ∃ payload, v = .enum ⟨t, payload⟩ ∧ t.backing.truncate payload = payload
  | .flags t, v => ∃ bits, v = .flags ⟨t, bits⟩ ∧ t.backing.truncate bits = bits
  | _, _ => False

/-- A live object of a class or of one that derives from it, and not a const one where it may be changed. -/
structure OfClass (w : World) (cls : String) (passing : Passing) (h : Handle) : Prop where
  isDestroyed_eq : w.arena.isDestroyed h = false
  exists_class : ∃ expected, w.classes.lookup? cls = some expected ∧
    (h.cls = expected ∨ w.classes.isSubclassOf h.cls expected = true)
  isConst_eq : passing.writesBack = true → w.isConst h = false

/-- The form of the values of a type: nil where nil may pass, or a value that is of the type with all its parts. -/
def WellTyped (w : World) : Ty → Passing → Value → Prop
  | .any, _, _ => True
  | .list item, passing, v =>
      (passing.isNullable = true ∧ v = .nil) ∨ ∃ items, v = .list items ∧ ∀ x ∈ items, WellTyped w item .value x
  | .map key value, passing, v =>
      (passing.isNullable = true ∧ v = .nil) ∨
        ∃ m, v = .map m ∧ ValueMap.Distinct w.eqv m ∧
          ∀ e ∈ m, WellTyped w key .value e.1 ∧ WellTyped w value .value e.2
  | .object cls, passing, v =>
      (passing.isNullable = true ∧ v = .nil) ∨ ∃ h, v = .object h ∧ OfClass w cls passing h
  | type, passing, v => (passing.isNullable = true ∧ v = .nil) ∨ OfScalar type v

/-- A value has, where the type asks for an object, an instance of a class that derives from the declared one. -/
def derives (w : World) : Ty → Value → Bool
  | .list item, .list items => items.any (derives w item)
  | .map key value, .map m => m.any fun e => derives w key e.1 || derives w value e.2
  | .object cls, .object h =>
      (w.classes.lookup? cls).any fun declared => h.cls != declared && w.classes.isSubclassOf h.cls declared
  | _, _ => false

theorem wellTyped_scalar_iff (hscalar : isScalar type = true) :
    WellTyped w type passing v ↔ (passing.isNullable = true ∧ v = .nil) ∨ OfScalar type v := by
  cases type with
  | list item => cases hscalar
  | map key value => cases hscalar
  | object cls => cases hscalar
  | any => cases hscalar
  | _ => exact Iff.rfl

theorem derives_scalar (hscalar : isScalar type = true) (w : World) (v : Value) : derives w type v = false := by
  cases type with
  | list item => cases hscalar
  | map key value => cases hscalar
  | object cls => cases hscalar
  | any => cases hscalar
  | _ => simp only [derives]

/-! ## Single values -/

theorem cost_le_one_of_scalar? {content : Value} (h : scalar? type content = some (u, cost)) : cost ≤ 1 := by
  cases type with
  | bool =>
      obtain ⟨b, -, heq⟩ := Option.map_eq_some_iff.mp h
      rw [← (Prod.mk.inj heq).2]
      exact Nat.zero_le 1
  | list item => cases h
  | map key value => cases h
  | object cls => cases h
  | any => cases h
  | _ =>
      obtain ⟨⟨x, c⟩, hread, heq⟩ := Option.map_eq_some_iff.mp h
      rw [← (Prod.mk.inj heq).2]
      cases content <;> simp_all [toInteger?, toDouble?, toText?, toBytes?, toPayload?, toBits?, Value.int64?]
      all_goals grind

theorem ofScalar_of_scalar? {content : Value} (h : scalar? type content = some (u, cost)) : OfScalar type u := by
  cases type with
  | int t =>
      obtain ⟨⟨n, c⟩, -, heq⟩ := Option.map_eq_some_iff.mp h
      rw [← (Prod.mk.inj heq).1]
      exact t.holds_wrap n
  | enum t =>
      obtain ⟨⟨n, c⟩, -, heq⟩ := Option.map_eq_some_iff.mp h
      exact ⟨_, (Prod.mk.inj heq).1.symm, t.backing.truncate_truncate n⟩
  | flags t =>
      obtain ⟨⟨n, c⟩, -, heq⟩ := Option.map_eq_some_iff.mp h
      exact ⟨_, (Prod.mk.inj heq).1.symm, t.backing.truncate_truncate n⟩
  | list item => cases h
  | map key value => cases h
  | object cls => cases h
  | any => cases h
  | _ =>
      obtain ⟨x, -, heq⟩ := Option.map_eq_some_iff.mp h
      exact ⟨_, (Prod.mk.inj heq).1.symm⟩

theorem scalar?_of_ofScalar (h : OfScalar type v) :
    v.box? = none ∧ v.isNil = false ∧ scalar? type v = some (v, 0) := by
  cases type with
  | int t =>
      obtain ⟨hbox, hnil, n, hread, hwrap⟩ := IntegerType.Holds.read h
      exact ⟨hbox, hnil, by rw [scalar?, hread, Option.map_some, ← hwrap]⟩
  | enum t =>
      obtain ⟨payload, rfl, hpayload⟩ := h
      exact ⟨rfl, rfl, by simp [scalar?, toPayload?, EnumValue.ofPayload, hpayload]⟩
  | flags t =>
      obtain ⟨bits, rfl, hbits⟩ := h
      exact ⟨rfl, rfl, by simp [scalar?, toBits?, FlagSet.ofBits, hbits]⟩
  | list item => exact h.elim
  | map key value => exact h.elim
  | object cls => exact h.elim
  | any => exact h.elim
  | _ =>
      obtain ⟨x, rfl⟩ := h
      exact ⟨rfl, rfl, rfl⟩

theorem ofScalar_zero (hscalar : isScalar type = true) : OfScalar type type.zero := by
  obtain ⟨cost, h⟩ := (keeps_zero hscalar).exists_cost
  exact ofScalar_of_scalar? (Cells.orMismatch_eq_ok_iff.mp h)

/-! ## Objects -/

theorem ofClass_of_toObject {cls : String} {h : Handle} (hobject : toObject w cls passing h = .ok (u, cost)) :
    OfClass w cls passing h ∧ cost ≤ 1 := by
  unfold toObject at hobject
  split at hobject
  · cases hobject
  · rename_i hlive
    split at hobject
    · cases hobject
    · rename_i expected hclass
      split at hobject
      · rename_i hderives
        split at hobject
        · cases hobject
        · rename_i hconst
          refine ⟨⟨Bool.eq_false_iff.mpr hlive, ⟨expected, hclass, hderives⟩, fun hwrites => ?_⟩, ?_⟩
          · rw [hwrites, Bool.true_and] at hconst
            exact Bool.eq_false_iff.mpr hconst
          · rw [← (Prod.mk.inj (Except.ok.inj hobject)).2]
            split <;> omega
      · cases hobject

theorem OfClass.toObject_eq {cls : String} {h : Handle} (hof : OfClass w cls passing h) :
    toObject w cls passing h = .ok (.object h, (derives w (.object cls) (.object h)).toNat) := by
  obtain ⟨expected, hclass, hderives⟩ := hof.exists_class
  have hchangeable : (passing.writesBack && w.isConst h) = false := by
    cases hwrites : passing.writesBack with
    | false => rfl
    | true => rw [hof.isConst_eq hwrites, Bool.and_false]
  rw [toObject, if_neg (by rw [hof.isDestroyed_eq]; exact Bool.false_ne_true), hclass]
  simp only [if_pos hderives, hchangeable, Bool.false_eq_true, if_false, derives, hclass]
  by_cases hsame : h.cls = expected
  · simp [hsame]
  · simp [hsame, hderives.resolve_left hsame, bne_iff_ne.mpr hsame]

/-! ## Items and entries -/

theorem forall₂_of_items? {item : Value → Except Refusal Converted} {vs us : List Value}
    (h : items? item vs = some (us, cost)) :
    List.Forall₂ (fun v u => ∃ cost, item v = .ok (u, cost)) vs us := by
  induction vs generalizing us cost with
  | nil =>
      rw [← (Prod.mk.inj (Option.some.inj h)).1]
      exact List.Forall₂.nil
  | cons v rest ih =>
      rw [items?] at h
      split at h
      · cases h
      · rename_i x c hx
        obtain ⟨⟨xs, cs⟩, hrest, heq⟩ := Option.map_eq_some_iff.mp h
        rw [← (Prod.mk.inj heq).1]
        exact List.Forall₂.cons ⟨c, hx⟩ (ih hrest)

theorem cost_le_one_of_items? {item : Value → Except Refusal Converted} {vs us : List Value}
    (hitem : ∀ v u cost, item v = .ok (u, cost) → cost ≤ 1) (h : items? item vs = some (us, cost)) : cost ≤ 1 := by
  induction vs generalizing us cost with
  | nil =>
      rw [← (Prod.mk.inj (Option.some.inj h)).2]
      exact Nat.zero_le 1
  | cons v rest ih =>
      rw [items?] at h
      split at h
      · cases h
      · rename_i x c hx
        obtain ⟨⟨xs, cs⟩, hrest, heq⟩ := Option.map_eq_some_iff.mp h
        rw [← (Prod.mk.inj heq).2]
        exact max_le (hitem v x c hx) (ih hrest)

theorem items?_of_forall {item : Value → Except Refusal Converted} {derived : Value → Bool} {vs : List Value}
    (h : ∀ v ∈ vs, item v = .ok (v, (derived v).toNat)) : items? item vs = some (vs, (vs.any derived).toNat) := by
  induction vs with
  | nil => rfl
  | cons v rest ih =>
      obtain ⟨hv, hrest⟩ := List.forall_mem_cons.mp h
      rw [items?, hv, ih hrest]
      cases hd : derived v <;> cases hr : rest.any derived <;> simp [hd, hr]

theorem forall₂_of_entries? {key value : Value → Except Refusal Converted} {es us : List (Value × Value)}
    (h : entries? key value es = some (us, cost)) :
    List.Forall₂ (fun e u => (∃ cost, key e.1 = .ok (u.1, cost)) ∧ ∃ cost, value e.2 = .ok (u.2, cost)) es us := by
  induction es generalizing us cost with
  | nil =>
      rw [← (Prod.mk.inj (Option.some.inj h)).1]
      exact List.Forall₂.nil
  | cons e rest ih =>
      rw [entries?] at h
      split at h
      · rename_i k ck x cx hk hx
        obtain ⟨⟨xs, cs⟩, hrest, heq⟩ := Option.map_eq_some_iff.mp h
        rw [← (Prod.mk.inj heq).1]
        exact List.Forall₂.cons ⟨⟨ck, hk⟩, cx, hx⟩ (ih hrest)
      · cases h

theorem cost_le_one_of_entries? {key value : Value → Except Refusal Converted} {es us : List (Value × Value)}
    (hkey : ∀ v u cost, key v = .ok (u, cost) → cost ≤ 1) (hvalue : ∀ v u cost, value v = .ok (u, cost) → cost ≤ 1)
    (h : entries? key value es = some (us, cost)) : cost ≤ 1 := by
  induction es generalizing us cost with
  | nil =>
      rw [← (Prod.mk.inj (Option.some.inj h)).2]
      exact Nat.zero_le 1
  | cons e rest ih =>
      rw [entries?] at h
      split at h
      · rename_i k ck x cx hk hx
        obtain ⟨⟨xs, cs⟩, hrest, heq⟩ := Option.map_eq_some_iff.mp h
        rw [← (Prod.mk.inj heq).2]
        exact max_le (max_le (hkey e.1 k ck hk) (hvalue e.2 x cx hx)) (ih hrest)
      · cases h

theorem entries?_of_forall {key value : Value → Except Refusal Converted} {derivedKey derivedValue : Value → Bool}
    {es : List (Value × Value)}
    (h : ∀ e ∈ es, key e.1 = .ok (e.1, (derivedKey e.1).toNat) ∧ value e.2 = .ok (e.2, (derivedValue e.2).toNat)) :
    entries? key value es = some (es, (es.any fun e => derivedKey e.1 || derivedValue e.2).toNat) := by
  induction es with
  | nil => rfl
  | cons e rest ih =>
      obtain ⟨⟨hk, hv⟩, hrest⟩ := List.forall_mem_cons.mp h
      rw [entries?, hk, hv, ih hrest, List.any_cons]
      cases derivedKey e.1 <;> cases derivedValue e.2 <;>
        cases rest.any fun e => derivedKey e.1 || derivedValue e.2 <;> rfl

/-! ## Lists and maps -/

theorem exists_items_of_toList {item : Ty} {content : Value} (h : toList w item content = .ok (u, cost)) :
    ∃ vs us, content = .list vs ∧ u = .list us ∧ items? (convert w item .value) vs = some (us, cost) := by
  obtain ⟨vs, hvs, hrest⟩ := Option.bind_eq_some_iff.mp (Cells.orMismatch_eq_ok_iff.mp h)
  obtain ⟨⟨us, c⟩, hitems, hpure⟩ := Option.bind_eq_some_iff.mp hrest
  obtain ⟨hu, rfl⟩ := Prod.mk.inj (Option.some.inj hpure)
  refine ⟨vs, us, ?_, hu.symm, hitems⟩
  cases content <;> first | exact congrArg Value.list (Option.some.inj hvs) | cases hvs

theorem exists_entries_of_toMap {key value : Ty} {content : Value}
    (h : toMap w key value content = .ok (u, cost)) :
    ∃ es kvs, content = .map es ∧ u = .map (ValueMap.ofEntries w.eqv kvs) ∧
      entries? (convert w key .value) (convert w value .value) es = some (kvs, cost) := by
  obtain ⟨es, hes, hrest⟩ := Option.bind_eq_some_iff.mp (Cells.orMismatch_eq_ok_iff.mp h)
  obtain ⟨⟨kvs, c⟩, hentries, hpure⟩ := Option.bind_eq_some_iff.mp hrest
  obtain ⟨hu, rfl⟩ := Prod.mk.inj (Option.some.inj hpure)
  refine ⟨es, kvs, ?_, hu.symm, hentries⟩
  cases content <;> first | exact congrArg Value.map (Option.some.inj hes) | cases hes

/-! ## Costs -/

theorem cost_le_one_of_throughBoxes {f : Value → Except Refusal Converted}
    (hf : ∀ content u cost, f content = .ok (u, cost) → cost ≤ 1)
    (h : throughBoxes w type passing v f = .ok (u, cost)) : cost ≤ 1 := by
  unfold throughBoxes fromNil at h
  simp only at h
  split at h
  · split at h
    · rw [← (Prod.mk.inj (Except.ok.inj h)).2]
      exact Nat.zero_le 1
    · split at h
      · rw [← (Prod.mk.inj (Except.ok.inj h)).2]
        exact Nat.zero_le 1
      · cases h
  · exact hf _ u cost h

/-- A conversion costs nothing, or it is an implicit one. -/
theorem cost_le_one_of_convert (h : convert w type passing v = .ok (u, cost)) : cost ≤ 1 := by
  induction type generalizing passing v u cost with
  | any =>
      rw [← (Prod.mk.inj (Except.ok.inj h)).2]
      exact Nat.zero_le 1
  | object cls =>
      rw [convert] at h
      refine cost_le_one_of_throughBoxes (fun content x c hobject => ?_) h
      split at hobject
      · exact (ofClass_of_toObject hobject).2
      · cases hobject
  | list item ih =>
      rw [convert_list] at h
      refine cost_le_one_of_throughBoxes (fun content x c hlist => ?_) h
      obtain ⟨vs, us, -, -, hitems⟩ := exists_items_of_toList hlist
      exact cost_le_one_of_items? (fun _ _ _ => ih) hitems
  | map key value ihKey ihValue =>
      rw [convert_map] at h
      refine cost_le_one_of_throughBoxes (fun content x c hmap => ?_) h
      obtain ⟨es, kvs, -, -, hentries⟩ := exists_entries_of_toMap hmap
      exact cost_le_one_of_entries? (fun _ _ _ => ihKey) (fun _ _ _ => ihValue) hentries
  | _ =>
      rw [convert_scalar rfl] at h
      exact cost_le_one_of_throughBoxes
        (fun content x c hscalar => cost_le_one_of_scalar? (Cells.orMismatch_eq_ok_iff.mp hscalar)) h

/-! ## Conversion gives well-typed values -/

/-- What is converted to a type is well typed. -/
theorem wellTyped_of_convert (h : convert w type passing v = .ok (u, cost)) : WellTyped w type passing u := by
  induction type generalizing passing v u cost with
  | any => trivial
  | object cls =>
      rw [convert] at h
      rcases throughBoxes_cases h with hnil | ⟨hnot, -⟩ | hobject
      · exact Or.inl hnil
      · cases hnot
      · split at hobject
        · rename_i k _
          exact Or.inr ⟨k, eq_object_of_toObject hobject, (ofClass_of_toObject hobject).1⟩
        · cases hobject
  | list item ih =>
      rw [convert_list] at h
      rcases throughBoxes_cases h with hnil | ⟨-, hzero⟩ | hlist
      · exact Or.inl hnil
      · exact Or.inr ⟨[], hzero, fun x hx => by cases hx⟩
      · obtain ⟨vs, rfl, hvs⟩ := exists_of_toList hlist
        refine Or.inr ⟨vs, rfl, fun x hx => ?_⟩
        obtain ⟨raw, c, hraw⟩ := hvs x hx
        exact ih hraw
  | map key value ihKey ihValue =>
      rw [convert_map] at h
      rcases throughBoxes_cases h with hnil | ⟨-, hzero⟩ | hmap
      · exact Or.inl hnil
      · exact Or.inr ⟨[], hzero, List.Pairwise.nil, fun e he => by cases he⟩
      · obtain ⟨m, rfl, hdistinct, hm⟩ := exists_of_toMap hmap
        refine Or.inr ⟨m, rfl, hdistinct, fun e he => ?_⟩
        obtain ⟨⟨rawKey, costKey, hk⟩, rawValue, costValue, hv⟩ := hm e he
        exact ⟨ihKey hk, ihValue hv⟩
  | _ =>
      rw [convert_scalar rfl] at h
      rw [wellTyped_scalar_iff rfl]
      rcases throughBoxes_cases h with hnil | ⟨-, rfl⟩ | hscalar
      · exact Or.inl hnil
      · exact Or.inr (ofScalar_zero rfl)
      · exact Or.inr (ofScalar_of_scalar? (Cells.orMismatch_eq_ok_iff.mp hscalar))

/-! ## Well-typed values are kept -/

theorem throughBoxes_of_content {f : Value → Except Refusal Converted} (hbox : v.box? = none)
    (hnil : v.isNil = false) : throughBoxes w type passing v f = f v := by
  unfold throughBoxes
  simp only [behind_of_box?_eq_none hbox, hnil, Bool.false_eq_true, if_false]

theorem convert_nil_eq_derives (w : World) (type : Ty) (hnull : passing.isNullable = true) :
    convert w type passing .nil = .ok (.nil, (derives w type .nil).toNat) := by
  rw [convert_nil w type hnull]
  cases type <;> simp [derives]

/-- A well-typed value is converted to itself.  The conversion is an implicit one exactly if some part is an instance
of a derived class. -/
theorem convert_of_wellTyped (h : WellTyped w type passing v) :
    convert w type passing v = .ok (v, (derives w type v).toNat) := by
  induction type generalizing passing v with
  | any =>
      rw [convert]
      simp [derives]
  | object cls =>
      rcases h with ⟨hnull, rfl⟩ | ⟨k, rfl, hof⟩
      · exact convert_nil_eq_derives w _ hnull
      · rw [convert, throughBoxes_of_content rfl rfl]
        exact hof.toObject_eq
  | list item ih =>
      rcases h with ⟨hnull, rfl⟩ | ⟨items, rfl, hitems⟩
      · exact convert_nil_eq_derives w _ hnull
      · have hall := items?_of_forall fun x hx => ih (hitems x hx)
        rw [convert_list, throughBoxes_of_content rfl rfl, toList, Cells.orMismatch_eq_ok_iff]
        simp [Value.list?, hall, derives]
  | map key value ihKey ihValue =>
      rcases h with ⟨hnull, rfl⟩ | ⟨m, rfl, hdistinct, hm⟩
      · exact convert_nil_eq_derives w _ hnull
      · have hall := entries?_of_forall fun e he =>
          ⟨ihKey (hm e he).1, ihValue (hm e he).2⟩
        rw [convert_map, throughBoxes_of_content rfl rfl, toMap, Cells.orMismatch_eq_ok_iff]
        simp [Value.map?, hall, derives, hdistinct.ofEntries_eq]
  | _ =>
      rcases (wellTyped_scalar_iff rfl).mp h with ⟨hnull, rfl⟩ | hof
      · exact convert_nil_eq_derives w _ hnull
      · obtain ⟨hbox, hnil, hscalar⟩ := scalar?_of_ofScalar hof
        rw [convert_scalar rfl, throughBoxes_of_content hbox hnil, derives_scalar rfl]
        exact Cells.orMismatch_eq_ok_iff.mpr hscalar

/-! ## Where the parts come from -/

/-- A value becomes another one as a part of a collection. -/
def Becomes (w : World) (type : Ty) (raw u : Value) : Prop :=
  ∃ cost, convert w type .value raw = .ok (u, cost)

/-- What is behind the boxes that a value may be. -/
def content (w : World) (v : Value) : Value :=
  behind w.cells (w.cells.size + 1) v

/-- The entry of a converted map has the value that comes from the last one of the given entries whose key becomes
the same as its own. -/
def FromLast (w : World) (key value : Ty) (entries : List (Value × Value)) (e : Value × Value) : Prop :=
  ∃ before last after, entries = before ++ last :: after ∧
    (∃ k, Becomes w key last.1 k ∧ w.eqv e.1 k = true) ∧ Becomes w value last.2 e.2 ∧
      ∀ later ∈ after, ∃ k, Becomes w key later.1 k ∧ w.eqv e.1 k = false

/-- Where the parts of a converted value come from.  The items of a list become the items in order.  Each entry of
a map comes from the last entry with a key that becomes the same, unless the key differs from itself, and the key of
each given entry is there. -/
def CarriesOver (w : World) : Ty → Value → Value → Prop
  | .list item, v, .list us => List.Forall₂ (Becomes w item) ((content w v).list?.getD []) us
  | .map key value, v, .map m =>
      (∀ e ∈ m, w.eqv e.1 e.1 = true → FromLast w key value ((content w v).map?.getD []) e) ∧
        ∀ raw ∈ (content w v).map?.getD [], ∃ k, Becomes w key raw.1 k ∧ ∃ e ∈ m, e.1 = k ∨ w.eqv e.1 k = true
  | _, _, _ => True

theorem content_of_isNil {f : Value → Except Refusal Converted} (h : throughBoxes w type passing v f = .ok (u, cost)) :
    ((content w v).isNil = true ∧ (u = .nil ∨ u = type.zero)) ∨ f (content w v) = .ok (u, cost) := by
  unfold throughBoxes at h
  simp only at h
  split at h
  · rename_i hnil
    refine Or.inl ⟨hnil, ?_⟩
    unfold fromNil at h
    split at h
    · exact Or.inl (Prod.mk.inj (Except.ok.inj h)).1.symm
    · split at h
      · exact Or.inr (Prod.mk.inj (Except.ok.inj h)).1.symm
      · cases h
  · exact Or.inr h

theorem exists_of_forall₂_append {α β : Type} {r : α → β → Prop} {xs : List α} {before after : List β} {y : β}
    (h : List.Forall₂ r xs (before ++ y :: after)) :
    ∃ before' x after', xs = before' ++ x :: after' ∧ r x y ∧ List.Forall₂ r after' after := by
  induction before generalizing xs with
  | nil =>
      obtain ⟨x, after', hx, hafter, rfl⟩ := List.forall₂_cons_right_iff.mp h
      exact ⟨[], x, after', rfl, hx, hafter⟩
  | cons first before ih =>
      obtain ⟨x, rest, -, hrest, rfl⟩ := List.forall₂_cons_right_iff.mp h
      obtain ⟨before', x', after', rfl, hx', hafter⟩ := ih hrest
      exact ⟨x :: before', x', after', rfl, hx', hafter⟩

theorem fromLast_of_mem {key value : Ty} {es kvs : List (Value × Value)}
    (hentries : entries? (convert w key .value) (convert w value .value) es = some (kvs, cost)) {e : Value × Value}
    (he : e ∈ ValueMap.ofEntries w.eqv kvs) (hself : w.eqv e.1 e.1 = true) : FromLast w key value es e := by
  obtain ⟨before, k, after, rfl, hsame, hlater⟩ :=
    ValueMap.last_of_mem_ofEntries (Value.symmetric_eqv w.cells) (Value.transitive_eqv w.cells) he hself
  obtain ⟨before', last, after', rfl, ⟨hkey, hvalue⟩, hafter⟩ :=
    exists_of_forall₂_append (forall₂_of_entries? hentries)
  refine ⟨before', last, after', rfl, ⟨k, hkey, hsame⟩, hvalue, fun later hmem => ?_⟩
  obtain ⟨x, hx, hkey', -⟩ := exists_of_forall₂_mem hafter hmem
  exact ⟨x.1, hkey', hlater x hx⟩

/-- The parts of a converted value come from the parts of the given one. -/
theorem carriesOver_of_convert (h : convert w type passing v = .ok (u, cost)) : CarriesOver w type v u := by
  cases type with
  | list item =>
      rw [convert_list] at h
      rcases content_of_isNil h with ⟨hnil, rfl | rfl⟩ | hlist
      · trivial
      · cases hv : content w v <;> simp_all [CarriesOver, Ty.zero, Value.list?, Value.isNil]
      · obtain ⟨vs, us, hvs, rfl, hitems⟩ := exists_items_of_toList hlist
        rw [CarriesOver, hvs]
        exact forall₂_of_items? hitems
  | map key value =>
      rw [convert_map] at h
      rcases content_of_isNil h with ⟨hnil, rfl | rfl⟩ | hmap
      · trivial
      · cases hv : content w v <;> simp_all [CarriesOver, Ty.zero, Value.map?, Value.isNil]
      · obtain ⟨es, kvs, hes, rfl, hentries⟩ := exists_entries_of_toMap hmap
        rw [CarriesOver, hes]
        refine ⟨fun e he hself => fromLast_of_mem hentries he hself, fun raw hraw => ?_⟩
        obtain ⟨x, hx, hkey, -⟩ := exists_of_forall₂_mem (forall₂_of_entries? hentries) hraw
        exact ⟨x.1, hkey, ValueMap.mem_ofEntries_of_mem hx⟩
  | _ => trivial

/-- Conversion to a type is a retraction onto the well-typed values.  What it gives is well typed, comes from the
parts of the given value and is converted to itself, and a well-typed value is converted to itself.  The cost is zero
or one, and for a value that is kept it is one exactly if some part is an instance of a derived class. -/
theorem retraction (w : World) (type : Ty) (passing : Passing) (v : Value) :
    (∀ u cost, convert w type passing v = .ok (u, cost) →
      cost ≤ 1 ∧ WellTyped w type passing u ∧ CarriesOver w type v u ∧
        convert w type passing u = .ok (u, (derives w type u).toNat)) ∧
      (WellTyped w type passing v → convert w type passing v = .ok (v, (derives w type v).toNat)) := by
  refine ⟨fun u cost h => ?_, convert_of_wellTyped⟩
  have htyped := wellTyped_of_convert h
  exact ⟨cost_le_one_of_convert h, htyped, carriesOver_of_convert h, convert_of_wellTyped htyped⟩

/-! ## Keys that become the same -/

/-- A class without members. -/
def kin (id : ClassId) (name : String) (base : Option ClassId) : ClassInfo := {
  id := id, name := name, base := base, kind := .object, mixins := [], constants := [], enums := [],
  methods := [], constructors := [], events := [], lazyConstructor := none }

/-- The first handle of the object in a slot. -/
def kinHandle (slot : Nat) (cls : ClassId) (className : String) : Handle :=
  ⟨⟨slot, ⟨slot, ⟨slot, 0⟩⟩, cls, className⟩, false⟩

/-- A handle with its object in a slot. -/
def kinSlot (h : Handle) : Slot where
  occupant := some {
    cls := h.cls, className := h.className, kind := .object, native := none, keep := .managed,
    anchor := h.proxy.anchor, proxy := h.proxy, overrides := none }

/-- An object of the base class. -/
def elder : Handle := kinHandle 0 0 "Base"

/-- An object of the derived class. -/
def younger : Handle := kinHandle 1 1 "Derived"

/-- A world with both classes and objects, and a box that holds a number beyond eight bits. -/
def kinWorld : World where
  classes := .ofClasses [kin 0 "Base" none, kin 1 "Derived" (some 0)]
  arena := { slots := #[kinSlot elder, kinSlot younger] }
  cells := #[.int 257]

/-- Two keys become one when they are narrowed to eight bits.  The entry keeps the place of the first key and has the
value of the last one, which is an instance of the derived class, so that the conversion is an implicit one. -/
theorem narrowed_keys_retracted :
    convert kinWorld (.map (.int .int8) (.object "Base")) .value
        (.map [(.int 1, .object elder), (.box 0, .object younger)]) =
      .ok (.map [(.int 1, .object younger)], 1) ∧
    WellTyped kinWorld (.map (.int .int8) (.object "Base")) .value (.map [(.int 1, .object younger)]) ∧
    FromLast kinWorld (.int .int8) (.object "Base") [(.int 1, .object elder), (.box 0, .object younger)]
      (.int 1, .object younger) ∧
    convert kinWorld (.map (.int .int8) (.object "Base")) .value (.map [(.int 1, .object younger)]) =
      .ok (.map [(.int 1, .object younger)], 1) := by
  have hconv : convert kinWorld (.map (.int .int8) (.object "Base")) .value
      (.map [(.int 1, .object elder), (.box 0, .object younger)]) =
      .ok (.map [(.int 1, .object younger)], 1) := rfl
  obtain ⟨-, htyped, hcarries, htwice⟩ := (retraction kinWorld _ _ _).1 _ _ hconv
  exact ⟨hconv, htyped, hcarries.1 _ List.mem_cons_self rfl, htwice⟩

end Conversion

end ObjectBridge
