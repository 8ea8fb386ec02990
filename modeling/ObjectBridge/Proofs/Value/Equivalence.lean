import Mathlib
import ObjectBridge.Proofs.Value.Declared

/-!
# Equality of values as an equivalence

Equality of values is symmetric and transitive.  It is not reflexive, since a float that is no number differs from
itself, and with it every value that holds one.

So the entries of a map that is built by successive inserts can be traced back: under a key that equals itself the map
has what was inserted last under an equal key.

* `Value.symmetric_eqv` and `Value.transitive_eqv` — equality over any cells, also over cells that hold each other in
  a circle.
* `ValueMap.last_of_mem_ofEntries` — what a map that is built by inserts has under a key.
* `ValueMap.mem_ofEntries_of_mem` — no key that is inserted gets lost.
-/

namespace ObjectBridge

/-! ## Symmetry -/

namespace Value

/-- Whether two things are the same does not depend on their order. -/
def Symmetric {α : Type} (same : α → α → Bool) : Prop :=
  ∀ a b, same a b = true → same b a = true

/-- Things that are the same as a third one are the same. -/
def Transitive {α : Type} (same : α → α → Bool) : Prop :=
  ∀ a b c, same a b = true → same b c = true → same a c = true

theorem symmetric_beq {α : Type} [BEq α] [PartialEquivBEq α] : Symmetric (α := α) (· == ·) :=
  fun _ _ h => PartialEquivBEq.symm h

theorem transitive_beq {α : Type} [BEq α] [PartialEquivBEq α] : Transitive (α := α) (· == ·) :=
  fun _ _ _ h h' => PartialEquivBEq.trans h h'

variable {sameBox : BoxId → BoxId → Bool}

theorem listEqvWith_symm {vs us : List Value}
    (hitems : ∀ v ∈ vs, ∀ u, eqvWith sameBox v u = true → eqvWith sameBox u v = true)
    (h : listEqvWith sameBox vs us = true) : listEqvWith sameBox us vs = true := by
  induction vs generalizing us with
  | nil => cases us <;> simp_all [listEqvWith]
  | cons v rest ih =>
      obtain ⟨hv, hrest⟩ := List.forall_mem_cons.mp hitems
      cases us with
      | nil => simp [listEqvWith] at h
      | cons u us =>
          rw [listEqvWith, Bool.and_eq_true] at h ⊢
          exact ⟨hv u h.1, ih hrest h.2⟩

theorem entriesEqvWith_symm {es ds : List (Value × Value)}
    (hentries : ∀ e ∈ es, (∀ u, eqvWith sameBox e.1 u = true → eqvWith sameBox u e.1 = true) ∧
      ∀ u, eqvWith sameBox e.2 u = true → eqvWith sameBox u e.2 = true)
    (h : entriesEqvWith sameBox es ds = true) : entriesEqvWith sameBox ds es = true := by
  induction es generalizing ds with
  | nil => cases ds <;> simp_all [entriesEqvWith]
  | cons e rest ih =>
      obtain ⟨⟨hk, hv⟩, hrest⟩ := List.forall_mem_cons.mp hentries
      cases ds with
      | nil => simp [entriesEqvWith] at h
      | cons d ds =>
          rw [entriesEqvWith, Bool.and_eq_true, Bool.and_eq_true] at h ⊢
          exact ⟨⟨hk d.1 h.1.1, hv d.2 h.1.2⟩, ih hrest h.2⟩

theorem symmetric_eqvWith (hbox : Symmetric sameBox) : Symmetric (eqvWith sameBox) := by
  have hparts : Inductive fun v => ∀ u, eqvWith sameBox v u = true → eqvWith sameBox u v = true := by
    refine ⟨?_, ?_, ?_⟩
    · intro items ih u h
      cases u with
      | list others =>
          rw [eqvWith] at h ⊢
          exact listEqvWith_symm ih h
      | _ => simp [eqvWith] at h
    · intro entries ih u h
      cases u with
      | map others =>
          rw [eqvWith] at h ⊢
          exact entriesEqvWith_symm ih h
      | _ => simp [eqvWith] at h
    · intro v hlist hmap u h
      cases v with
      | list items => exact absurd rfl (hlist items)
      | map entries => exact absurd rfl (hmap entries)
      | float x =>
          cases u with
          | float y =>
              rw [eqvWith] at h ⊢
              exact symmetric_beq x y h
          | _ => simp [eqvWith] at h
      | box b =>
          cases u with
          | box c =>
              rw [eqvWith] at h ⊢
              exact hbox b c h
          | _ => simp [eqvWith] at h
      | _ => cases u <;> simp_all [eqvWith, EnumValue.same, FlagSet.same, Handle.sameObject]
  exact hparts.value

/-! ## Transitivity -/

theorem listEqvWith_trans {vs us ts : List Value}
    (hitems : ∀ v ∈ vs, ∀ u t, eqvWith sameBox v u = true → eqvWith sameBox u t = true → eqvWith sameBox v t = true)
    (h : listEqvWith sameBox vs us = true) (h' : listEqvWith sameBox us ts = true) :
    listEqvWith sameBox vs ts = true := by
  induction vs generalizing us ts with
  | nil => cases us <;> simp_all [listEqvWith]
  | cons v rest ih =>
      obtain ⟨hv, hrest⟩ := List.forall_mem_cons.mp hitems
      cases us with
      | nil => simp [listEqvWith] at h
      | cons u us =>
          cases ts with
          | nil => simp [listEqvWith] at h'
          | cons t ts =>
              rw [listEqvWith, Bool.and_eq_true] at h h' ⊢
              exact ⟨hv u t h.1 h'.1, ih hrest h.2 h'.2⟩

theorem entriesEqvWith_trans {es ds fs : List (Value × Value)}
    (hentries : ∀ e ∈ es,
      (∀ u t, eqvWith sameBox e.1 u = true → eqvWith sameBox u t = true → eqvWith sameBox e.1 t = true) ∧
        ∀ u t, eqvWith sameBox e.2 u = true → eqvWith sameBox u t = true → eqvWith sameBox e.2 t = true)
    (h : entriesEqvWith sameBox es ds = true) (h' : entriesEqvWith sameBox ds fs = true) :
    entriesEqvWith sameBox es fs = true := by
  induction es generalizing ds fs with
  | nil => cases ds <;> simp_all [entriesEqvWith]
  | cons e rest ih =>
      obtain ⟨⟨hk, hv⟩, hrest⟩ := List.forall_mem_cons.mp hentries
      cases ds with
      | nil => simp [entriesEqvWith] at h
      | cons d ds =>
          cases fs with
          | nil => simp [entriesEqvWith] at h'
          | cons f fs =>
              rw [entriesEqvWith, Bool.and_eq_true, Bool.and_eq_true] at h h' ⊢
              exact ⟨⟨hk d.1 f.1 h.1.1 h'.1.1, hv d.2 f.2 h.1.2 h'.1.2⟩, ih hrest h.2 h'.2⟩

theorem transitive_eqvWith (hbox : Transitive sameBox) : Transitive (eqvWith sameBox) := by
  have hparts : Inductive fun v => ∀ u t, eqvWith sameBox v u = true → eqvWith sameBox u t = true →
      eqvWith sameBox v t = true := by
    refine ⟨?_, ?_, ?_⟩
    · intro items ih u t h h'
      cases u with
      | list others =>
          cases t with
          | list more =>
              rw [eqvWith] at h h' ⊢
              exact listEqvWith_trans ih h h'
          | _ => simp [eqvWith] at h'
      | _ => simp [eqvWith] at h
    · intro entries ih u t h h'
      cases u with
      | map others =>
          cases t with
          | map more =>
              rw [eqvWith] at h h' ⊢
              exact entriesEqvWith_trans ih h h'
          | _ => simp [eqvWith] at h'
      | _ => simp [eqvWith] at h
    · intro v hlist hmap u t h h'
      cases v with
      | list items => exact absurd rfl (hlist items)
      | map entries => exact absurd rfl (hmap entries)
      | float x =>
          cases u with
          | float y =>
              cases t with
              | float z =>
                  rw [eqvWith] at h h' ⊢
                  exact transitive_beq x y z h h'
              | _ => simp [eqvWith] at h'
          | _ => simp [eqvWith] at h
      | box b =>
          cases u with
          | box c =>
              cases t with
              | box d =>
                  rw [eqvWith] at h h' ⊢
                  exact hbox b c d h h'
              | _ => simp [eqvWith] at h'
          | _ => simp [eqvWith] at h
      | _ =>
          cases u <;> simp [eqvWith] at h
          cases t <;> simp_all [eqvWith, EnumValue.same, FlagSet.same, Handle.sameObject]
  exact hparts.value

end Value

/-! ## Boxes -/

namespace Cells

variable {cells : Cells}

theorem symmetric_sameBox (cells : Cells) (depth : Nat) : Value.Symmetric (cells.sameBox depth) := by
  induction depth with
  | zero => exact Value.symmetric_beq
  | succ depth ih =>
      intro a b h
      rw [sameBox, Bool.or_eq_true] at h ⊢
      exact h.imp (Value.symmetric_beq a b) (Value.symmetric_eqvWith ih _ _)

theorem transitive_sameBox (cells : Cells) (depth : Nat) : Value.Transitive (cells.sameBox depth) := by
  induction depth with
  | zero => exact Value.transitive_beq
  | succ depth ih =>
      intro a b c h h'
      rw [sameBox, Bool.or_eq_true] at h h'
      rcases h with h | h
      · rw [beq_iff_eq.mp h, sameBox, Bool.or_eq_true]
        exact h'
      · rcases h' with h' | h'
        · rw [← beq_iff_eq.mp h', sameBox, Bool.or_eq_true]
          exact Or.inr h
        · rw [sameBox, Bool.or_eq_true]
          exact Or.inr (Value.transitive_eqvWith ih _ _ _ h h')

end Cells

namespace Value

theorem symmetric_eqv (cells : Cells) : Symmetric (eqv cells) :=
  symmetric_eqvWith (cells.symmetric_sameBox cells.size)

theorem transitive_eqv (cells : Cells) : Transitive (eqv cells) :=
  transitive_eqvWith (cells.transitive_sameBox cells.size)

end Value

/-! ## Maps that are built by inserts -/

namespace ValueMap

variable {same : Value → Value → Bool} {m : ValueMap} {entries : List (Value × Value)} {e : Value × Value}

/-- What a map has after an insert: the value with a key that is the same, or an entry under another key. -/
theorem mem_insert (hsymm : Value.Symmetric same) (htrans : Value.Transitive same) (hm : Distinct same m)
    {key value : Value} (he : e ∈ insert same key value m) (hself : same e.1 e.1 = true) :
    (e.2 = value ∧ same e.1 key = true) ∨ (e ∈ m ∧ same e.1 key = false) := by
  induction m with
  | nil =>
      obtain rfl := List.mem_singleton.mp he
      exact Or.inl ⟨rfl, hself⟩
  | cons first rest ih =>
      obtain ⟨hfirst, hrest⟩ := List.pairwise_cons.mp hm
      rw [insert] at he
      split at he
      · rename_i hsame
        rcases List.mem_cons.mp he with rfl | he
        · exact Or.inl ⟨rfl, hsame⟩
        · refine Or.inr ⟨List.mem_cons_of_mem _ he, Bool.eq_false_iff.mpr fun hkey => ?_⟩
          -- Another entry with the key would be the same as the first one, and keys are distinct.
          have hdouble : same first.1 e.1 = true := htrans _ _ _ hsame (hsymm _ _ hkey)
          rw [hfirst e he] at hdouble
          cases hdouble
      · rename_i hother
        rcases List.mem_cons.mp he with rfl | he
        · exact Or.inr ⟨List.mem_cons_self, Bool.eq_false_iff.mpr hother⟩
        · exact (ih hrest he).imp id (And.imp_left (List.mem_cons_of_mem _))

theorem ofEntries_append_singleton (same : Value → Value → Bool) (entries : List (Value × Value))
    (last : Value × Value) :
    ofEntries same (entries ++ [last]) = insert same last.1 last.2 (ofEntries same entries) := by
  simp [ofEntries, List.foldl_append]

/-- Under a key that is the same as itself, a map that is built by inserts has the value that came last with a key
that is the same. -/
theorem last_of_mem_ofEntries (hsymm : Value.Symmetric same) (htrans : Value.Transitive same)
    (he : e ∈ ofEntries same entries) (hself : same e.1 e.1 = true) :
    ∃ before key after, entries = before ++ (key, e.2) :: after ∧ same e.1 key = true ∧
      ∀ later ∈ after, same e.1 later.1 = false := by
  induction entries using List.reverseRecOn with
  | nil => cases he
  | append_singleton entries last ih =>
      rw [ofEntries_append_singleton] at he
      rcases mem_insert hsymm htrans (distinct_ofEntries same entries) he hself with ⟨hvalue, hkey⟩ | ⟨hmem, hkey⟩
      · refine ⟨entries, last.1, [], by rw [hvalue], hkey, fun _ h => by cases h⟩
      · obtain ⟨before, key, after, rfl, hsame, hlater⟩ := ih hmem
        refine ⟨before, key, after ++ [last], by simp, hsame, fun later h => ?_⟩
        rcases List.mem_append.mp h with h | h
        · exact hlater later h
        · rw [List.mem_singleton.mp h]
          exact hkey

theorem exists_mem_insert (same : Value → Value → Bool) (key value : Value) (m : ValueMap) :
    (∃ e ∈ insert same key value m, e.1 = key ∨ same e.1 key = true) ∧
      ∀ e ∈ m, ∃ e' ∈ insert same key value m, e'.1 = e.1 := by
  induction m with
  | nil => exact ⟨⟨_, List.mem_singleton_self _, Or.inl rfl⟩, fun e he => by cases he⟩
  | cons first rest ih =>
      rw [insert]
      split
      · rename_i hsame
        refine ⟨⟨_, List.mem_cons_self, Or.inr hsame⟩, fun e he => ?_⟩
        rcases List.mem_cons.mp he with rfl | he
        · exact ⟨_, List.mem_cons_self, rfl⟩
        · exact ⟨e, List.mem_cons_of_mem _ he, rfl⟩
      · obtain ⟨⟨x, hx, hkey⟩, hkept⟩ := ih
        refine ⟨⟨x, List.mem_cons_of_mem _ hx, hkey⟩, fun e he => ?_⟩
        rcases List.mem_cons.mp he with rfl | he
        · exact ⟨_, List.mem_cons_self, rfl⟩
        · obtain ⟨x, hx, heq⟩ := hkept e he
          exact ⟨x, List.mem_cons_of_mem _ hx, heq⟩

/-- Every key that is inserted is in the map, or one that is the same. -/
theorem mem_ofEntries_of_mem (he : e ∈ entries) :
    ∃ x ∈ ofEntries same entries, x.1 = e.1 ∨ same x.1 e.1 = true := by
  induction entries using List.reverseRecOn with
  | nil => cases he
  | append_singleton entries last ih =>
      obtain ⟨hnew, hkept⟩ := exists_mem_insert same last.1 last.2 (ofEntries same entries)
      rw [ofEntries_append_singleton]
      rcases List.mem_append.mp he with he | he
      · obtain ⟨x, hx, hkey⟩ := ih he
        obtain ⟨x', hx', heq⟩ := hkept x hx
        exact ⟨x', hx', by rwa [heq]⟩
      · rw [List.mem_singleton.mp he]
        exact hnew

end ValueMap

end ObjectBridge
