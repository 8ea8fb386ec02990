import ObjectBridge.Proofs.Value.Circles

/-!
# How deep comparisons look

Values are compared by looking through at most as many boxes as there are cells.  To look through more of them would
not tell more, even of boxes that hold each other in a circle.

The argument unfolds boxes to a depth and leaves the values at the ends away.  Boxes with one unfolding keep having
one at every greater depth.  As long as one box more brings boxes together, there are fewer unfoldings than before,
so after as many steps as there are cells nothing changes any more.

* `Cells.unfold` — what a box looks like down to a depth.
* `Cells.sameBox_eq_of_le` — boxes are compared in the same way from the number of cells on.
* `Conversion.behind_eq_or_isSome` — what is behind boxes is the same from the number of cells on, or it is a box.
-/

namespace ObjectBridge

/-- What values look like without the values at the ends. -/
inductive Outline where
  | leaf
  | unopened (b : BoxId)
  | opened (content : Outline)
  | list (items : List Outline)
  | map (entries : List (Outline × Outline))

namespace Value

mutual

/-- The outline of a value, given the outlines of what is in boxes. -/
def outline (g : BoxId → Outline) : Value → Outline
  | .box b => .opened (g b)
  | .list items => .list (outlineItems g items)
  | .map entries => .map (outlineEntries g entries)
  | _ => .leaf

/-- The outlines of the items of a list. -/
def outlineItems (g : BoxId → Outline) : List Value → List Outline
  | [] => []
  | v :: rest => outline g v :: outlineItems g rest

/-- The outlines of the entries of a map. -/
def outlineEntries (g : BoxId → Outline) : List (Value × Value) → List (Outline × Outline)
  | [] => []
  | (k, v) :: rest => (outline g k, outline g v) :: outlineEntries g rest

end

variable {g g' : BoxId → Outline} {same same' : BoxId → BoxId → Bool}

/-! ## Parts in pairs -/

theorem eqvWith_list_iff {as bs : List Value} :
    eqvWith same (list as) (list bs) = true ↔
      as.length = bs.length ∧ ∀ p ∈ as.zip bs, eqvWith same p.1 p.2 = true := by
  rw [eqvWith]
  induction as generalizing bs with
  | nil => cases bs <;> simp [listEqvWith]
  | cons a as ih => cases bs <;> simp [listEqvWith, ih, and_left_comm]

theorem eqvWith_map_iff {as bs : List (Value × Value)} :
    eqvWith same (map as) (map bs) = true ↔ as.length = bs.length ∧
      ∀ p ∈ as.zip bs, eqvWith same p.1.1 p.2.1 = true ∧ eqvWith same p.1.2 p.2.2 = true := by
  rw [eqvWith]
  induction as generalizing bs with
  | nil => cases bs <;> simp [entriesEqvWith]
  | cons a as ih => cases bs <;> simp [entriesEqvWith, ih, and_left_comm, and_assoc]

theorem outline_list_iff {as bs : List Value} :
    (list as).outline g = (list bs).outline g ↔
      as.length = bs.length ∧ ∀ p ∈ as.zip bs, p.1.outline g = p.2.outline g := by
  rw [outline, outline, Outline.list.injEq]
  induction as generalizing bs with
  | nil => cases bs <;> simp [outlineItems]
  | cons a as ih => cases bs <;> simp [outlineItems, ih, and_left_comm]

theorem outline_map_iff {as bs : List (Value × Value)} :
    (map as).outline g = (map bs).outline g ↔ as.length = bs.length ∧
      ∀ p ∈ as.zip bs, p.1.1.outline g = p.2.1.outline g ∧ p.1.2.outline g = p.2.2.outline g := by
  rw [outline, outline, Outline.map.injEq]
  induction as generalizing bs with
  | nil => cases bs <;> simp [outlineEntries]
  | cons a as ih => cases bs <;> simp [outlineEntries, ih, and_left_comm, and_assoc]

/-- Values with one outline keep having one if their boxes do. -/
theorem outline_congr {v u : Value} (h : v.outline g = u.outline g)
    (hboxes : ∀ b ∈ v.boxes, ∀ c ∈ u.boxes, g b = g c → g' b = g' c) : v.outline g' = u.outline g' := by
  have hparts : Inductive fun v => ∀ u, outline g v = outline g u →
      (∀ b ∈ v.boxes, ∀ c ∈ boxes u, g b = g c → g' b = g' c) → outline g' v = outline g' u := by
    refine ⟨fun as ih u h hboxes => ?_, fun as ih u h hboxes => ?_, fun v hlist hmap u h hboxes => ?_⟩
    · cases u with
      | list bs =>
          rw [outline_list_iff] at h ⊢
          simp only [boxes_list, mem_listBoxes] at hboxes
          refine ⟨h.1, fun p hp => ih p.1 (List.of_mem_zip hp).1 p.2 (h.2 p hp) fun b hb c hc => ?_⟩
          exact hboxes b ⟨p.1, (List.of_mem_zip hp).1, hb⟩ c ⟨p.2, (List.of_mem_zip hp).2, hc⟩
      | _ => simp only [outline, reduceCtorEq] at h
    · cases u with
      | map bs =>
          rw [outline_map_iff] at h ⊢
          simp only [mem_boxes_map] at hboxes
          refine ⟨h.1, fun p hp => ⟨?_, ?_⟩⟩
          · refine (ih p.1 (List.of_mem_zip hp).1).1 p.2.1 (h.2 p hp).1 fun b hb c hc => ?_
            exact hboxes b ⟨p.1, (List.of_mem_zip hp).1, Or.inl hb⟩ c ⟨p.2, (List.of_mem_zip hp).2, Or.inl hc⟩
          · refine (ih p.1 (List.of_mem_zip hp).1).2 p.2.2 (h.2 p hp).2 fun b hb c hc => ?_
            exact hboxes b ⟨p.1, (List.of_mem_zip hp).1, Or.inr hb⟩ c ⟨p.2, (List.of_mem_zip hp).2, Or.inr hc⟩
      | _ => simp only [outline, reduceCtorEq] at h
    · cases v with
      | list items => exact absurd rfl (hlist items)
      | map entries => exact absurd rfl (hmap entries)
      | box b =>
          cases u with
          | box c =>
              simp only [outline, Outline.opened.injEq] at h ⊢
              exact hboxes b (by simp) c (by simp) h
          | _ => simp only [outline, reduceCtorEq] at h
      | _ => cases u <;> simp only [outline, reduceCtorEq] at h ⊢
  exact hparts.value v u h hboxes

/-- Equal values have one outline if equal boxes have. -/
theorem outline_eq_of_eqvWith {v u : Value} (h : eqvWith same v u = true)
    (hboxes : ∀ b c, same b c = true → g b = g c) : v.outline g = u.outline g := by
  have hparts : Inductive fun v => ∀ u, eqvWith same v u = true → outline g v = outline g u := by
    refine ⟨fun as ih u h => ?_, fun as ih u h => ?_, fun v hlist hmap u h => ?_⟩
    · cases u with
      | list bs =>
          rw [eqvWith_list_iff] at h
          exact outline_list_iff.mpr ⟨h.1, fun p hp => ih p.1 (List.of_mem_zip hp).1 p.2 (h.2 p hp)⟩
      | _ => simp only [eqvWith, Bool.false_eq_true] at h
    · cases u with
      | map bs =>
          rw [eqvWith_map_iff] at h
          refine outline_map_iff.mpr ⟨h.1, fun p hp => ⟨?_, ?_⟩⟩
          · exact (ih p.1 (List.of_mem_zip hp).1).1 p.2.1 (h.2 p hp).1
          · exact (ih p.1 (List.of_mem_zip hp).1).2 p.2.2 (h.2 p hp).2
      | _ => simp only [eqvWith, Bool.false_eq_true] at h
    · cases v with
      | list items => exact absurd rfl (hlist items)
      | map entries => exact absurd rfl (hmap entries)
      | box b =>
          cases u with
          | box c =>
              simp only [eqvWith] at h
              simp only [outline, hboxes b c h]
          | _ => simp only [eqvWith, Bool.false_eq_true] at h
      | _ => cases u <;> first | rfl | simp only [eqvWith, Bool.false_eq_true] at h
  exact hparts.value v u h

/-- Equal values with one outline are equal in another way if boxes that are equal and have one outline are. -/
theorem eqvWith_of_outline_eq {v u : Value} (h : eqvWith same v u = true) (houtline : v.outline g = u.outline g)
    (hboxes : ∀ b c, same b c = true → g b = g c → same' b c = true) : eqvWith same' v u = true := by
  have hparts : Inductive fun v => ∀ u, eqvWith same v u = true → outline g v = outline g u →
      eqvWith same' v u = true := by
    refine ⟨fun as ih u h houtline => ?_, fun as ih u h houtline => ?_, fun v hlist hmap u h houtline => ?_⟩
    · cases u with
      | list bs =>
          rw [eqvWith_list_iff] at h ⊢
          rw [outline_list_iff] at houtline
          exact ⟨h.1, fun p hp => ih p.1 (List.of_mem_zip hp).1 p.2 (h.2 p hp) (houtline.2 p hp)⟩
      | _ => simp only [eqvWith, Bool.false_eq_true] at h
    · cases u with
      | map bs =>
          rw [eqvWith_map_iff] at h ⊢
          rw [outline_map_iff] at houtline
          refine ⟨h.1, fun p hp => ⟨?_, ?_⟩⟩
          · exact (ih p.1 (List.of_mem_zip hp).1).1 p.2.1 (h.2 p hp).1 (houtline.2 p hp).1
          · exact (ih p.1 (List.of_mem_zip hp).1).2 p.2.2 (h.2 p hp).2 (houtline.2 p hp).2
      | _ => simp only [eqvWith, Bool.false_eq_true] at h
    · cases v with
      | list items => exact absurd rfl (hlist items)
      | map entries => exact absurd rfl (hmap entries)
      | box b =>
          cases u with
          | box c =>
              simp only [eqvWith] at h ⊢
              simp only [outline, Outline.opened.injEq] at houtline
              exact hboxes b c h houtline
          | _ => simp only [eqvWith, Bool.false_eq_true] at h
      | _ => cases u <;> simp_all only [eqvWith, Bool.false_eq_true]
  exact hparts.value v u h houtline

end Value

namespace Cells

variable {cells : Cells}

/-- What a box looks like, down to a depth. -/
def unfold (cells : Cells) : Nat → BoxId → Outline
  | 0, b => .unopened b
  | depth + 1, b => (cells.content b).outline (cells.unfold depth)

/-- The contents of the cells mention boxes that are there. -/
def Closed (cells : Cells) : Prop :=
  ∀ b, ∀ c ∈ (cells.content b).boxes, c < cells.size

theorem Closed.holds (h : cells.Closed) {b c : BoxId} (hc : cells.Holds b c) : c < cells.size := h b c hc

/-! ## Unfoldings -/

/-- Boxes that look the same down to a depth look the same further down. -/
theorem unfold_succ_eq {depth : Nat} {a b : BoxId} (h : cells.unfold depth a = cells.unfold depth b) :
    cells.unfold (depth + 1) a = cells.unfold (depth + 1) b := by
  induction depth generalizing a b with
  | zero => rw [Outline.unopened.inj h]
  | succ depth ih => exact Value.outline_congr h fun _ _ _ _ => ih

/-- If one box more does not tell boxes apart, two boxes more do not. -/
theorem unfold_eq_of_stable (hclosed : cells.Closed) {depth : Nat}
    (hstable : ∀ a < cells.size, ∀ b < cells.size, cells.unfold (depth + 1) a = cells.unfold (depth + 1) b →
      cells.unfold depth a = cells.unfold depth b) (more : Nat) {a b : BoxId} (ha : a < cells.size)
    (hb : b < cells.size) (h : cells.unfold (depth + more) a = cells.unfold (depth + more) b) :
    cells.unfold depth a = cells.unfold depth b := by
  induction more generalizing a b with
  | zero => exact h
  | succ more ih =>
      refine hstable a ha b hb (Value.outline_congr h fun c hc d hd hcd => ?_)
      exact ih (hclosed a c hc) (hclosed b d hd) hcd

open Classical in
/-- The boxes that are the first ones with their unfolding. -/
noncomputable def firsts (cells : Cells) (depth : Nat) : Finset BoxId :=
  (Finset.range cells.size).filter fun b => ∀ a < b, cells.unfold depth a ≠ cells.unfold depth b

theorem mem_firsts_iff {depth : Nat} {b : BoxId} :
    b ∈ cells.firsts depth ↔ b < cells.size ∧ ∀ a < b, cells.unfold depth a ≠ cells.unfold depth b := by
  classical
  rw [firsts, Finset.mem_filter, Finset.mem_range]

/-- Every box looks like one of the first ones. -/
theorem exists_mem_firsts (depth : Nat) {b : BoxId} (hb : b < cells.size) :
    ∃ a ∈ cells.firsts depth, cells.unfold depth a = cells.unfold depth b := by
  induction b using Nat.strong_induction_on with
  | h b ih =>
      by_cases hfirst : ∀ a < b, cells.unfold depth a ≠ cells.unfold depth b
      · exact ⟨b, mem_firsts_iff.mpr ⟨hb, hfirst⟩, rfl⟩
      · push Not at hfirst
        obtain ⟨a, hab, hsame⟩ := hfirst
        obtain ⟨c, hc, heq⟩ := ih a hab (hab.trans hb)
        exact ⟨c, hc, heq.trans hsame⟩

/-- There are fewer unfoldings where one box more brings boxes together. -/
theorem card_firsts_lt {depth : Nat} {a b : BoxId} (ha : a < cells.size) (hb : b < cells.size)
    (hsame : cells.unfold (depth + 1) a = cells.unfold (depth + 1) b)
    (hapart : cells.unfold depth a ≠ cells.unfold depth b) :
    (cells.firsts (depth + 1)).card < (cells.firsts depth).card := by
  obtain ⟨c, hc, hca⟩ := exists_mem_firsts depth ha
  obtain ⟨d, hd, hdb⟩ := exists_mem_firsts depth hb
  have hcd : cells.unfold (depth + 1) c = cells.unfold (depth + 1) d :=
    (unfold_succ_eq hca).trans (hsame.trans (unfold_succ_eq hdb).symm)
  have hne : c ≠ d := by
    rintro rfl
    exact hapart (hca.symm.trans hdb)
  refine Finset.card_lt_card (Finset.ssubset_iff_subset_ne.mpr ⟨fun x hx => ?_, fun heq => ?_⟩)
  · obtain ⟨hlt, hx⟩ := mem_firsts_iff.mp hx
    exact mem_firsts_iff.mpr ⟨hlt, fun y hy hyx => hx y hy (unfold_succ_eq hyx)⟩
  · -- The later one of the two is no longer the first one that looks as it does.
    rcases Nat.lt_or_gt_of_ne hne with hlt | hlt
    · exact (mem_firsts_iff.mp (heq ▸ hd)).2 c hlt hcd
    · exact (mem_firsts_iff.mp (heq ▸ hc)).2 d hlt hcd.symm

/-- After as many boxes as there are cells, another one does not bring boxes together. -/
theorem exists_stable (cells : Cells) : ∃ depth ≤ cells.size, ∀ a < cells.size, ∀ b < cells.size,
    cells.unfold (depth + 1) a = cells.unfold (depth + 1) b → cells.unfold depth a = cells.unfold depth b := by
  by_contra hnone
  push Not at hnone
  -- Each depth that brings boxes together leaves fewer of them, and there are only finitely many.
  have hcard : ∀ depth ≤ cells.size + 1, (cells.firsts depth).card + depth ≤ cells.size := by
    intro depth hdepth
    induction depth with
    | zero =>
        have hsub : cells.firsts 0 ⊆ Finset.range cells.size := fun b hb =>
          Finset.mem_range.mpr (mem_firsts_iff.mp hb).1
        simpa using Finset.card_le_card hsub
    | succ depth ih =>
        obtain ⟨a, ha, b, hb, hsame, hapart⟩ := hnone depth (Nat.le_of_succ_le_succ hdepth)
        have hlt := card_firsts_lt ha hb hsame hapart
        have hle := ih (Nat.le_of_succ_le hdepth)
        omega
  have hle := hcard (cells.size + 1) (Nat.le_refl _)
  omega

/-- Boxes that look the same at some depth look the same at the depth of the number of cells. -/
theorem unfold_size_eq (hclosed : cells.Closed) {depth : Nat} {a b : BoxId} (ha : a < cells.size)
    (hb : b < cells.size) (h : cells.unfold depth a = cells.unfold depth b) :
    cells.unfold cells.size a = cells.unfold cells.size b := by
  have hmore (d more : Nat) (h : cells.unfold d a = cells.unfold d b) :
      cells.unfold (d + more) a = cells.unfold (d + more) b := by
    induction more with
    | zero => exact h
    | succ more ih => exact unfold_succ_eq ih
  obtain ⟨d, hd, hstable⟩ := cells.exists_stable
  have hsame := unfold_eq_of_stable hclosed hstable depth ha hb (Nat.add_comm d depth ▸ hmore depth d h)
  have hsize := hmore d (cells.size - d) hsame
  rwa [Nat.add_sub_cancel' hd] at hsize

/-! ## Comparisons -/

theorem unfold_eq_of_sameBox {depth : Nat} {a b : BoxId} (h : cells.sameBox depth a b = true) :
    cells.unfold depth a = cells.unfold depth b := by
  induction depth generalizing a b with
  | zero => rw [beq_iff_eq.mp h]
  | succ depth ih =>
      rw [sameBox, Bool.or_eq_true, beq_iff_eq] at h
      rcases h with rfl | h
      · rfl
      · exact Value.outline_eq_of_eqvWith h fun _ _ => ih

/-- Boxes that are equal by looking through some boxes are so by looking through others, as far as these show them the
same. -/
theorem sameBox_of_unfold_eq {depth depth' : Nat} {a b : BoxId} (h : cells.sameBox depth a b = true)
    (hunfold : cells.unfold depth' a = cells.unfold depth' b) : cells.sameBox depth' a b = true := by
  induction depth' generalizing depth a b with
  | zero => exact beq_iff_eq.mpr (Outline.unopened.inj hunfold)
  | succ depth' ih =>
      rw [sameBox, Bool.or_eq_true, beq_iff_eq]
      cases depth with
      | zero => exact Or.inl (beq_iff_eq.mp h)
      | succ depth =>
          rw [sameBox, Bool.or_eq_true, beq_iff_eq] at h
          exact h.imp id fun h => Value.eqvWith_of_outline_eq h hunfold fun _ _ => ih

/-- Boxes are compared in the same way from the number of cells on. -/
theorem sameBox_eq_of_le (hclosed : cells.Closed) {depth : Nat} (hdepth : cells.size ≤ depth) {a b : BoxId}
    (ha : a < cells.size) (hb : b < cells.size) : cells.sameBox depth a b = cells.sameBox cells.size a b := by
  refine Bool.eq_iff_iff.mpr ⟨fun h => ?_, fun h => ?_⟩
  · exact sameBox_of_unfold_eq h (unfold_size_eq hclosed ha hb (unfold_eq_of_sameBox h))
  · have hmore (more : Nat) : cells.unfold (cells.size + more) a = cells.unfold (cells.size + more) b := by
      induction more with
      | zero => exact unfold_eq_of_sameBox h
      | succ more ih => exact unfold_succ_eq ih
    exact sameBox_of_unfold_eq h (Nat.add_sub_cancel' hdepth ▸ hmore (depth - cells.size))

end Cells

namespace Conversion

variable {cells : Cells} {v : Value}

/-! ## Reading -/

theorem behind_succ (cells : Cells) (depth : Nat) (v : Value) :
    behind cells (depth + 1) v = behind cells depth (behind cells 1 v) := by
  cases v with
  | box b => rfl
  | _ => exact (behind_of_box?_eq_none rfl).trans (behind_of_box?_eq_none rfl).symm

theorem behind_add (cells : Cells) (m n : Nat) (v : Value) :
    behind cells (m + n) v = behind cells n (behind cells m v) := by
  induction m generalizing v with
  | zero => rw [Nat.zero_add, behind]
  | succ m ih => rw [Nat.add_right_comm, behind_succ, ih, ← behind_succ]

/-- If looking through boxes comes to an end, it does so after as many boxes as there are cells and one more step. -/
theorem box?_behind_size {depth : Nat} (hend : (behind cells depth v).box? = none) :
    (behind cells (cells.size + 1) v).box? = none := by
  classical
  have hex : ∃ depth, (behind cells depth v).box? = none := ⟨depth, hend⟩
  have hlast := Nat.find_spec hex
  have hbox (i : Nat) (hi : i < Nat.find hex) : ∃ b, behind cells i v = .box b := by
    cases hv : behind cells i v with
    | box b => exact ⟨b, rfl⟩
    | _ => exact absurd (by rw [hv]; rfl) (Nat.find_min hex hi)
  choose! number hnumber using hbox
  -- The boxes on the way are all different, or it would lead around for ever.
  have hinj : Set.InjOn number (Finset.range (Nat.find hex - 1)) := by
    intro i hi j hj hij
    rw [Finset.mem_coe, Finset.mem_range] at hi hj
    by_contra hne
    wlog hlt : i < j generalizing i j
    · exact this hj hi hij.symm (Ne.symm hne) (Nat.lt_of_le_of_ne (Nat.le_of_not_lt hlt) (Ne.symm hne))
    have hsame : behind cells (i + (Nat.find hex - j)) v = behind cells (Nat.find hex) v := by
      rw [behind_add, hnumber i (by omega), hij, ← hnumber j (by omega), ← behind_add,
        Nat.add_sub_cancel' (by omega)]
    exact Nat.find_min hex (m := i + (Nat.find hex - j)) (by omega) (hsame ▸ hlast)
  have hmaps : ∀ i ∈ Finset.range (Nat.find hex - 1), number i ∈ Finset.range cells.size := by
    intro i hi
    rw [Finset.mem_range] at hi ⊢
    by_contra hle
    have hnext : behind cells (i + 1) v = .box (number (i + 1)) := hnumber (i + 1) (by omega)
    rw [behind_add, hnumber i (by omega), behind, behind] at hnext
    have hnil : cells.content (number i) = .nil := by
      simp [Cells.content, Array.getD_eq_getD_getElem?, Nat.not_lt.mp hle]
    rw [hnil] at hnext
    cases hnext
  have hcard := Finset.card_le_card_of_injOn number hmaps hinj
  rw [Finset.card_range, Finset.card_range] at hcard
  have hsplit : cells.size + 1 = Nat.find hex + (cells.size + 1 - Nat.find hex) := by omega
  rw [hsplit, behind_add, behind_of_box?_eq_none hlast]
  exact hlast

/-- What is behind boxes is the same from the number of cells on, or it is a box for ever. -/
theorem behind_eq_or_isSome {depth : Nat} (hdepth : cells.size < depth) (v : Value) :
    behind cells depth v = behind cells (cells.size + 1) v ∨
      ((behind cells depth v).box?.isSome = true ∧ (behind cells (cells.size + 1) v).box?.isSome = true) := by
  rcases Option.eq_none_or_eq_some (behind cells (cells.size + 1) v).box? with hnone | ⟨b, hb⟩
  · refine Or.inl ?_
    have hsplit : depth = cells.size + 1 + (depth - (cells.size + 1)) := by omega
    rw [hsplit, behind_add, behind_of_box?_eq_none hnone]
  · refine Or.inr ⟨Option.isSome_iff_ne_none.mpr fun hend => ?_, by rw [hb]; rfl⟩
    rw [box?_behind_size hend] at hb
    cases hb

end Conversion

end ObjectBridge
