import ObjectBridge.Proofs.Value.Boxed
import ObjectBridge.Proofs.Value.Equivalence

/-!
# Keys and the entries under them

What an insert and a removal do to a map, for any comparison of keys that is symmetric and transitive: to what is
found under each key, and to the entries in order.

A value is fit to be a key if no part of it is a box or a float that is no number.  Such a value is equal to itself,
and what it is equal to does not depend on the cells.  So equality is an equivalence on keys.  Its classes are the
labels that a map has entries for.

* `ValueMap.get?_insert` and `ValueMap.get?_erase` — what is found afterwards.
* `ValueMap.map_fst_insert` and `ValueMap.insert_eq_append` — the keys after an insert.
* `ValueMap.erase_eq_filter` — the entries after a removal.
* `Value.IsKey` — values that are fit to be keys, and `Value.Key`, the type of them.
* `Value.IsKey.eqv_self` and `Value.IsKey.eqv_eq` — how keys are compared.
* `Value.Label` and `Value.Key.label_eq_iff` — keys up to equality.
-/

namespace ObjectBridge

namespace Value

variable {same : Value → Value → Bool} {k l u : Value}

/-- Values that are the same compare alike with a third one. -/
theorem same_eq_same (hsymm : Symmetric same) (htrans : Transitive same) (h : same k l = true) :
    same k u = same l u :=
  Bool.eq_iff_iff.mpr ⟨htrans _ _ _ (hsymm _ _ h), htrans _ _ _ h⟩

end Value

namespace ValueMap

/-- The key that a step is about. -/
def Step.key : Step → Value
  | .insert key _ => key
  | .get key => key
  | .remove key => key

variable {same same' : Value → Value → Bool} {m : ValueMap} {key u value : Value}

/-! ## Presence -/

theorem get?_eq_none_iff : get? same key m = none ↔ ∀ e ∈ m, same e.1 key = false := by
  induction m with
  | nil => simp [get?]
  | cons first rest ih =>
      rw [get?, List.forall_mem_cons]
      split
      · rename_i hsame
        simp [hsame]
      · rename_i hother
        rw [ih, Bool.eq_false_iff]
        exact (and_iff_right hother).symm

theorem isSome_get?_iff : (get? same key m).isSome ↔ ∃ e ∈ m, same e.1 key = true := by
  rw [Option.isSome_iff_ne_none, Ne, get?_eq_none_iff]
  simp only [not_forall, Bool.not_eq_false, exists_prop]

/-! ## Inserts -/

/-- After an insert, the value is found under the keys that are the same, and nothing changes under others. -/
theorem get?_insert (hsymm : Value.Symmetric same) (htrans : Value.Transitive same) :
    get? same u (insert same key value m) = if same key u then some value else get? same u m := by
  induction m with
  | nil => rw [insert, get?, get?, get?]
  | cons first rest ih =>
      rw [insert]
      split
      · -- The key that stays in place is found exactly where the new one would be.
        rename_i hfirst
        rw [get?, get?, Value.same_eq_same hsymm htrans hfirst]
        split <;> rfl
      · rename_i hfirst
        rw [get?, get?, ih]
        by_cases hu : same first.1 u = true
        · have hkey : same key u ≠ true := fun h => hfirst (htrans _ _ _ hu (hsymm _ _ h))
          rw [if_pos hu, if_neg hkey, if_pos hu]
        · rw [if_neg hu, if_neg hu]

/-- An insert under a key that is present changes no key. -/
theorem map_fst_insert (h : (get? same key m).isSome) : (insert same key value m).map Prod.fst = m.map Prod.fst := by
  induction m with
  | nil => cases h
  | cons first rest ih =>
      rw [get?] at h
      rw [insert]
      split
      · rfl
      · rename_i hother
        rw [if_neg hother] at h
        rw [List.map_cons, List.map_cons, ih h]

/-! ## Removals -/

/-- A removal leaves the entries with other keys, in order. -/
theorem erase_eq_filter (hsymm : Value.Symmetric same) (htrans : Value.Transitive same) (hm : Distinct same m) :
    erase same key m = m.filter fun e => !same e.1 key := by
  induction m with
  | nil => rfl
  | cons first rest ih =>
      obtain ⟨hfirst, hrest⟩ := List.pairwise_cons.mp hm
      rw [erase]
      split
      · rename_i hsame
        rw [List.filter_cons_of_neg (by simp [hsame])]
        refine (List.filter_eq_self.mpr fun e he => ?_).symm
        rw [Bool.not_eq_true', Bool.eq_false_iff]
        intro h
        have hdouble : same first.1 e.1 = true := htrans _ _ _ hsame (hsymm _ _ h)
        rw [hfirst e he] at hdouble
        cases hdouble
      · rename_i hother
        rw [List.filter_cons_of_pos (by simpa using hother), ih hrest]

theorem Distinct.erase (hsymm : Value.Symmetric same) (htrans : Value.Transitive same) (hm : Distinct same m)
    (key : Value) : Distinct same (erase same key m) := by
  rw [erase_eq_filter hsymm htrans hm]
  exact hm.sublist List.filter_sublist

/-- After a removal, nothing is found under the keys that are the same, and nothing changes under others. -/
theorem get?_erase (hsymm : Value.Symmetric same) (htrans : Value.Transitive same) (hm : Distinct same m) :
    get? same u (erase same key m) = if same key u then none else get? same u m := by
  rw [erase_eq_filter hsymm htrans hm]
  clear hm
  induction m with
  | nil => simp [get?]
  | cons first rest ih =>
      by_cases hfirst : same first.1 key = true
      · rw [List.filter_cons_of_neg (by simp [hfirst]), ih, get?, Value.same_eq_same hsymm htrans hfirst]
        split <;> rfl
      · rw [List.filter_cons_of_pos (by simpa using hfirst), get?, get?, ih]
        by_cases hu : same first.1 u = true
        · have hkey : same key u ≠ true := fun h => hfirst (htrans _ _ _ hu (hsymm _ _ h))
          rw [if_pos hu, if_neg hkey, if_pos hu]
        · rw [if_neg hu, if_neg hu]

/-- A removal goes alike for comparisons that agree on its key and those of the map. -/
theorem erase_congr (h : ∀ e ∈ m, same e.1 key = same' e.1 key) :
    ValueMap.erase same key m = ValueMap.erase same' key m := by
  induction m with
  | nil => rfl
  | cons first rest ih =>
      obtain ⟨hfirst, hrest⟩ := List.forall_mem_cons.mp h
      rw [ValueMap.erase, ValueMap.erase, hfirst, ih hrest]

end ValueMap

namespace Value

/-! ## Keys -/

/-- One value occurs in another one: it is the value itself, or it occurs in an item, a key or a value of it. -/
inductive Part (part : Value) : Value → Prop where
  | self : Part part part
  | item {v : Value} {items : List Value} (hv : v ∈ items) (h : Part part v) : Part part (.list items)
  | key {e : Value × Value} {entries : List (Value × Value)} (he : e ∈ entries) (h : Part part e.1) :
      Part part (.map entries)
  | value {e : Value × Value} {entries : List (Value × Value)} (he : e ∈ entries) (h : Part part e.2) :
      Part part (.map entries)

/-- A value that is fit to be a key. -/
structure IsKey (v : Value) : Prop where
  ne_box (b : BoxId) : ¬ Part (.box b) v
  isNaN_eq {x : Float} (hx : Part (.float x) v) : x.isNaN = false

theorem closed_isKey : Closed IsKey where
  item _ h _ hv := ⟨fun b hb => h.ne_box b (.item hv hb), fun hx => h.isNaN_eq (.item hv hx)⟩
  entry _ h _ he :=
    ⟨⟨fun b hb => h.ne_box b (.key he hb), fun hx => h.isNaN_eq (.key he hx)⟩,
      ⟨fun b hb => h.ne_box b (.value he hb), fun hx => h.isNaN_eq (.value he hx)⟩⟩

theorem IsKey.boxes_eq {v : Value} (h : v.IsKey) : v.boxes = [] := by
  refine List.eq_nil_iff_forall_not_mem.mpr fun b hb => ?_
  exact (closed_isKey.box h hb).ne_box b .self

/-! ## Comparing keys -/

section Reflexivity

variable {sameBox : BoxId → BoxId → Bool}

theorem listEqvWith_self {items : List Value} (h : ∀ v ∈ items, eqvWith sameBox v v = true) :
    listEqvWith sameBox items items = true := by
  induction items with
  | nil => rw [listEqvWith]
  | cons v rest ih =>
      obtain ⟨hv, hrest⟩ := List.forall_mem_cons.mp h
      rw [listEqvWith, hv, ih hrest, Bool.and_self]

theorem entriesEqvWith_self {entries : List (Value × Value)}
    (h : ∀ e ∈ entries, eqvWith sameBox e.1 e.1 = true ∧ eqvWith sameBox e.2 e.2 = true) :
    entriesEqvWith sameBox entries entries = true := by
  induction entries with
  | nil => rw [entriesEqvWith]
  | cons e rest ih =>
      obtain ⟨⟨hk, hv⟩, hrest⟩ := List.forall_mem_cons.mp h
      rw [entriesEqvWith, hk, hv, ih hrest, Bool.and_self, Bool.and_self]

theorem IsKey.eqvWith_self {v : Value} (h : v.IsKey) : eqvWith sameBox v v = true := by
  have hparts : Inductive fun v => v.IsKey → eqvWith sameBox v v = true := by
    refine ⟨?_, ?_, ?_⟩
    · intro items ih h
      rw [eqvWith]
      exact listEqvWith_self fun v hv => ih v hv (closed_isKey.item items h v hv)
    · intro entries ih h
      rw [eqvWith]
      refine entriesEqvWith_self fun e he => ?_
      have hentry := closed_isKey.entry entries h e he
      exact ⟨(ih e he).1 hentry.1, (ih e he).2 hentry.2⟩
    · intro v hlist hmap h
      cases v with
      | list items => exact absurd rfl (hlist items)
      | map entries => exact absurd rfl (hmap entries)
      | box b => exact absurd .self (h.ne_box b)
      | float x =>
          have hnumber : x.isNaN = false := h.isNaN_eq .self
          rw [eqvWith, Float.beq_self_iff]
          simpa using hnumber
      | _ => simp [eqvWith, EnumValue.same, FlagSet.same, Handle.sameObject]
  exact hparts.value v h

end Reflexivity

/-- A key is equal to itself. -/
theorem IsKey.eqv_self {v : Value} (h : v.IsKey) (cells : Cells) : eqv cells v v = true :=
  h.eqvWith_self

/-- What a key is equal to does not depend on the cells. -/
theorem IsKey.eqv_eq {v : Value} (h : v.IsKey) (cells cells' : Cells) (u : Value) :
    eqv cells v u = eqv cells' v u := by
  refine eqvWith_congr fun b hb => ?_
  rw [h.boxes_eq] at hb
  cases hb

/-! ## Keys up to equality -/

/-- The values that are fit to be keys. -/
abbrev Key := { v : Value // v.IsKey }

instance Key.setoid : Setoid Key where
  r k l := eqv #[] k.1 l.1 = true
  iseqv :=
    { refl := fun k => k.2.eqv_self _
      symm := fun {k l} => symmetric_eqv _ k.1 l.1
      trans := fun {k l j} => transitive_eqv _ k.1 l.1 j.1 }

instance (k l : Key) : Decidable (k ≈ l) :=
  inferInstanceAs (Decidable (eqv #[] k.1 l.1 = true))

/-- What equal keys have in common. -/
def Label := Quotient Key.setoid

instance : DecidableEq Label :=
  inferInstanceAs (DecidableEq (Quotient Key.setoid))

/-- The label of a key. -/
def Key.label (k : Key) : Label :=
  Quotient.mk _ k

theorem Key.label_eq_iff {k l : Key} (cells : Cells) : k.label = l.label ↔ eqv cells k.1 l.1 = true := by
  rw [k.2.eqv_eq cells #[] l.1]
  exact Quotient.eq

theorem Key.label_ne_iff {k l : Key} (cells : Cells) : k.label ≠ l.label ↔ eqv cells k.1 l.1 = false := by
  rw [Ne, Key.label_eq_iff cells, Bool.not_eq_true]

theorem Label.exists_key (x : Label) : ∃ k : Key, k.label = x :=
  Quotient.exists_rep x

end Value

end ObjectBridge
