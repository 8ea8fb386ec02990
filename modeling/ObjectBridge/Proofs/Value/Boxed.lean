import ObjectBridge.Proofs.Value.Mentions
import ObjectBridge.Value.Equality
import ObjectBridge.Value.Text

/-!
# Values up to their boxes

What a value is compared with and how it is displayed depends on boxes only through the ones that occur in it.

* `Value.eqvWith_congr` — equality of values.
* `Value.displayWith_congr` — the text of a value.
-/

namespace ObjectBridge.Value

/-! ## Equality -/

variable {sameBox sameBox' : BoxId → BoxId → Bool}

theorem listEqvWith_congr {vs us : List Value}
    (h : ∀ v ∈ vs, ∀ u ∈ us, eqvWith sameBox v u = eqvWith sameBox' v u) :
    listEqvWith sameBox vs us = listEqvWith sameBox' vs us := by
  induction vs generalizing us with
  | nil => cases us <;> simp only [listEqvWith]
  | cons v rest ih =>
      obtain ⟨hv, hrest⟩ := List.forall_mem_cons.mp h
      cases us with
      | nil => simp only [listEqvWith]
      | cons u us =>
          rw [listEqvWith, listEqvWith, hv u List.mem_cons_self,
            ih fun x hx y hy => hrest x hx y (List.mem_cons_of_mem _ hy)]

theorem entriesEqvWith_congr {es ds : List (Value × Value)}
    (h : ∀ e ∈ es, ∀ d ∈ ds, eqvWith sameBox e.1 d.1 = eqvWith sameBox' e.1 d.1 ∧
      eqvWith sameBox e.2 d.2 = eqvWith sameBox' e.2 d.2) :
    entriesEqvWith sameBox es ds = entriesEqvWith sameBox' es ds := by
  induction es generalizing ds with
  | nil => cases ds <;> simp only [entriesEqvWith]
  | cons e rest ih =>
      obtain ⟨he, hrest⟩ := List.forall_mem_cons.mp h
      cases ds with
      | nil => simp only [entriesEqvWith]
      | cons d ds =>
          obtain ⟨hk, hv⟩ := he d List.mem_cons_self
          rw [entriesEqvWith, entriesEqvWith, hk, hv,
            ih fun x hx y hy => hrest x hx y (List.mem_cons_of_mem _ hy)]

/-- Values are compared in the same way if their boxes are. -/
theorem eqvWith_congr {v u : Value} (h : ∀ b ∈ v.boxes, ∀ c ∈ u.boxes, sameBox b c = sameBox' b c) :
    eqvWith sameBox v u = eqvWith sameBox' v u := by
  -- The parts of the other value vary with those of the first, so the induction quantifies over it.
  have hparts : Inductive fun v => ∀ u, (∀ b ∈ v.boxes, ∀ c ∈ u.boxes, sameBox b c = sameBox' b c) →
      eqvWith sameBox v u = eqvWith sameBox' v u := by
    refine ⟨?_, ?_, ?_⟩
    · intro items ih u h
      cases u with
      | list others =>
          rw [eqvWith, eqvWith]
          refine listEqvWith_congr fun x hx y hy => ih x hx y fun b hb c hc => h b ?_ c ?_
          · exact boxes_list items ▸ mem_listBoxes.mpr ⟨x, hx, hb⟩
          · exact boxes_list others ▸ mem_listBoxes.mpr ⟨y, hy, hc⟩
      | _ => simp only [eqvWith]
    · intro entries ih u h
      cases u with
      | map others =>
          rw [eqvWith, eqvWith]
          refine entriesEqvWith_congr fun e he d hd =>
            ⟨(ih e he).1 d.1 fun b hb c hc => h b ?_ c ?_, (ih e he).2 d.2 fun b hb c hc => h b ?_ c ?_⟩
          · exact mem_boxes_map.mpr ⟨e, he, Or.inl hb⟩
          · exact mem_boxes_map.mpr ⟨d, hd, Or.inl hc⟩
          · exact mem_boxes_map.mpr ⟨e, he, Or.inr hb⟩
          · exact mem_boxes_map.mpr ⟨d, hd, Or.inr hc⟩
      | _ => simp only [eqvWith]
    · intro v hlist hmap u h
      cases v with
      | list items => exact absurd rfl (hlist items)
      | map entries => exact absurd rfl (hmap entries)
      | box b =>
          cases u with
          | box c =>
              rw [eqvWith, eqvWith]
              exact h b (by simp) c (by simp)
          | _ => simp only [eqvWith]
      | _ => cases u <;> simp only [eqvWith]
  exact hparts.value v u h

/-! ## Text -/

variable {content content' : BoxId → String}

theorem listDisplayWith_congr {vs : List Value} (h : ∀ v ∈ vs, displayWith content v = displayWith content' v) :
    listDisplayWith content vs = listDisplayWith content' vs := by
  induction vs with
  | nil => simp only [listDisplayWith]
  | cons v rest ih =>
      obtain ⟨hv, hrest⟩ := List.forall_mem_cons.mp h
      rw [listDisplayWith, listDisplayWith, hv, ih hrest]

theorem entriesDisplayWith_congr {es : List (Value × Value)}
    (h : ∀ e ∈ es, displayWith content e.1 = displayWith content' e.1 ∧
      displayWith content e.2 = displayWith content' e.2) :
    entriesDisplayWith content es = entriesDisplayWith content' es := by
  induction es with
  | nil => simp only [entriesDisplayWith]
  | cons e rest ih =>
      obtain ⟨⟨hk, hv⟩, hrest⟩ := List.forall_mem_cons.mp h
      rw [entriesDisplayWith, entriesDisplayWith, hk, hv, ih hrest]

/-- A value is displayed in the same way if its boxes are. -/
theorem displayWith_congr {v : Value} (h : ∀ b ∈ v.boxes, content b = content' b) :
    displayWith content v = displayWith content' v := by
  have hparts : Inductive fun v => (∀ b ∈ v.boxes, content b = content' b) →
      displayWith content v = displayWith content' v := by
    refine ⟨?_, ?_, ?_⟩
    · intro items ih h
      rw [displayWith, displayWith, listDisplayWith_congr fun x hx => ih x hx fun b hb => h b ?_]
      exact boxes_list items ▸ mem_listBoxes.mpr ⟨x, hx, hb⟩
    · intro entries ih h
      rw [displayWith, displayWith, entriesDisplayWith_congr fun e he =>
        ⟨(ih e he).1 fun b hb => h b ?_, (ih e he).2 fun b hb => h b ?_⟩]
      · exact mem_boxes_map.mpr ⟨e, he, Or.inl hb⟩
      · exact mem_boxes_map.mpr ⟨e, he, Or.inr hb⟩
    · intro v hlist hmap h
      cases v with
      | list items => exact absurd rfl (hlist items)
      | map entries => exact absurd rfl (hmap entries)
      | box b =>
          rw [displayWith, displayWith, h b (by simp)]
      | _ => simp only [displayWith]
  exact hparts.value v h

end ObjectBridge.Value
