import Mathlib.Tactic
import ObjectBridge.Proofs.Value.Boxed
import ObjectBridge.Proofs.Value.Parts
import ObjectBridge.Value.Equality
import ObjectBridge.Value.Map

/-!
# Values with other numbers for their boxes

A box is known by the number of its cell, and what the number is does not matter.  `Value.renumber` gives the boxes
in a value other numbers and leaves everything else as it is.

* `mem_boxes_renumber` and `mem_handles_renumber` — what a renumbered value mentions.
* `renumber_eq_self` — a value whose boxes keep their numbers.
* `eqvWith_renumber` and `ofEntries_renumber` — comparisons, and the maps that rest on them.
-/

namespace ObjectBridge.Value

mutual

/-- A value with other numbers for its boxes. -/
def renumber (f : BoxId → BoxId) : Value → Value
  | .box b => .box (f b)
  | .list items => .list (renumberItems f items)
  | .map entries => .map (renumberEntries f entries)
  | v => v

/-- The items of a list with other numbers for their boxes. -/
def renumberItems (f : BoxId → BoxId) : List Value → List Value
  | [] => []
  | v :: rest => renumber f v :: renumberItems f rest

/-- The entries of a map with other numbers for their boxes. -/
def renumberEntries (f : BoxId → BoxId) : List (Value × Value) → List (Value × Value)
  | [] => []
  | (k, v) :: rest => (renumber f k, renumber f v) :: renumberEntries f rest

end

/-- A key and its value with other numbers for their boxes. -/
def renumberEntry (f : BoxId → BoxId) (e : Value × Value) : Value × Value :=
  (e.1.renumber f, e.2.renumber f)

variable {f : BoxId → BoxId}

theorem renumberItems_eq_map (f : BoxId → BoxId) (vs : List Value) : renumberItems f vs = vs.map (renumber f) := by
  induction vs with
  | nil => rfl
  | cons v rest ih => rw [renumberItems, ih, List.map_cons]

theorem renumberEntries_eq_map (f : BoxId → BoxId) (es : List (Value × Value)) :
    renumberEntries f es = es.map (renumberEntry f) := by
  induction es with
  | nil => rfl
  | cons e rest ih =>
      obtain ⟨k, v⟩ := e
      rw [renumberEntries, ih, List.map_cons, renumberEntry]

@[simp] theorem renumber_box (b : BoxId) : (box b).renumber f = box (f b) := rfl

@[simp] theorem renumber_object (h : Handle) : (object h).renumber f = object h := rfl

@[simp] theorem renumber_nil : nil.renumber f = nil := rfl

@[simp] theorem renumber_list (items : List Value) : (list items).renumber f = list (items.map (renumber f)) :=
  congrArg list (renumberItems_eq_map f items)

@[simp] theorem renumber_map (entries : List (Value × Value)) :
    (map entries).renumber f = map (entries.map (renumberEntry f)) :=
  congrArg map (renumberEntries_eq_map f entries)

/-! ## What is mentioned -/

/-- A renumbered value mentions the same handles. -/
theorem mem_handles_renumber {h : Handle} {v : Value} : h ∈ (v.renumber f).handles ↔ h ∈ v.handles := by
  have hparts : Inductive fun v => h ∈ (v.renumber f).handles ↔ h ∈ v.handles := by
    refine ⟨fun items ih => ?_, fun entries ih => ?_, fun v hlist hmap => ?_⟩
    · simp only [renumber_list, handles_list, mem_listHandles, List.mem_map, exists_exists_and_eq_and]
      exact exists_congr fun v => and_congr_right (ih v)
    · simp only [renumber_map, mem_handles_map, List.mem_map, exists_exists_and_eq_and, renumberEntry]
      exact exists_congr fun e => and_congr_right fun he => or_congr (ih e he).1 (ih e he).2
    · cases v with
      | list items => exact absurd rfl (hlist items)
      | map entries => exact absurd rfl (hmap entries)
      | _ => exact Iff.rfl
  exact hparts.value v

/-- A renumbered value mentions the boxes with their new numbers. -/
theorem mem_boxes_renumber {c : BoxId} {v : Value} : c ∈ (v.renumber f).boxes ↔ ∃ b ∈ v.boxes, f b = c := by
  have hparts : Inductive fun v => c ∈ (v.renumber f).boxes ↔ ∃ b ∈ v.boxes, f b = c := by
    refine ⟨fun items ih => ?_, fun entries ih => ?_, fun v hlist hmap => ?_⟩
    · simp only [renumber_list, boxes_list, mem_listBoxes, List.mem_map, exists_exists_and_eq_and]
      constructor
      · rintro ⟨v, hv, hc⟩
        obtain ⟨b, hb, heq⟩ := (ih v hv).mp hc
        exact ⟨b, ⟨v, hv, hb⟩, heq⟩
      · rintro ⟨b, ⟨v, hv, hb⟩, heq⟩
        exact ⟨v, hv, (ih v hv).mpr ⟨b, hb, heq⟩⟩
    · simp only [renumber_map, mem_boxes_map, List.mem_map, exists_exists_and_eq_and, renumberEntry]
      constructor
      · rintro ⟨e, he, hc | hc⟩
        · obtain ⟨b, hb, heq⟩ := (ih e he).1.mp hc
          exact ⟨b, ⟨e, he, Or.inl hb⟩, heq⟩
        · obtain ⟨b, hb, heq⟩ := (ih e he).2.mp hc
          exact ⟨b, ⟨e, he, Or.inr hb⟩, heq⟩
      · rintro ⟨b, ⟨e, he, hb | hb⟩, heq⟩
        · exact ⟨e, he, Or.inl ((ih e he).1.mpr ⟨b, hb, heq⟩)⟩
        · exact ⟨e, he, Or.inr ((ih e he).2.mpr ⟨b, hb, heq⟩)⟩
    · cases v with
      | list items => exact absurd rfl (hlist items)
      | map entries => exact absurd rfl (hmap entries)
      | box b => simp [eq_comm]
      | _ => exact ⟨fun h => absurd h List.not_mem_nil, fun ⟨b, hb, _⟩ => absurd hb List.not_mem_nil⟩
  exact hparts.value v

/-- A list is the same if each of its items is. -/
theorem map_eq_self {α : Type} {g : α → α} {xs : List α} (h : ∀ x ∈ xs, g x = x) : xs.map g = xs :=
  (List.map_congr_left h).trans (List.map_id xs)

/-- A value is the same if its boxes keep their numbers. -/
theorem renumber_eq_self {v : Value} (h : ∀ b ∈ v.boxes, f b = b) : v.renumber f = v := by
  have hparts : Inductive fun v => (∀ b ∈ v.boxes, f b = b) → v.renumber f = v := by
    refine ⟨fun items ih h => ?_, fun entries ih h => ?_, fun v hlist hmap h => ?_⟩
    · rw [renumber_list]
      refine congrArg list (map_eq_self fun v hv => ih v hv fun b hb => h b ?_)
      rw [boxes_list, mem_listBoxes]
      exact ⟨v, hv, hb⟩
    · rw [renumber_map]
      refine congrArg map (map_eq_self fun e he => Prod.ext ?_ ?_)
      · exact (ih e he).1 fun b hb => h b (mem_boxes_map.mpr ⟨e, he, Or.inl hb⟩)
      · exact (ih e he).2 fun b hb => h b (mem_boxes_map.mpr ⟨e, he, Or.inr hb⟩)
    · cases v with
      | list items => exact absurd rfl (hlist items)
      | map entries => exact absurd rfl (hmap entries)
      | box b => rw [renumber_box, h b (by simp)]
      | _ => rfl
  exact hparts.value v h

theorem renumber_of_isPlain {v : Value} (hv : v.IsPlain) : v.renumber f = v := by
  refine renumber_eq_self fun b hb => ?_
  rw [hv.2] at hb
  cases hb

/-! ## Comparisons -/

/-- Renumbered values are compared like the values themselves, if their boxes are. -/
theorem eqvWith_renumber {same : BoxId → BoxId → Bool} (v u : Value) :
    eqvWith same (v.renumber f) (u.renumber f) = eqvWith (fun b c => same (f b) (f c)) v u := by
  have hparts : Inductive fun v => ∀ u,
      eqvWith same (v.renumber f) (u.renumber f) = eqvWith (fun b c => same (f b) (f c)) v u := by
    refine ⟨fun items ih u => ?_, fun entries ih u => ?_, fun v hlist hmap u => ?_⟩
    · cases u with
      | list others =>
          rw [renumber_list, renumber_list, eqvWith, eqvWith]
          induction items generalizing others with
          | nil => cases others <;> simp only [List.map_nil, List.map_cons, listEqvWith]
          | cons v rest ihRest =>
              obtain ⟨hv, hrest⟩ := List.forall_mem_cons.mp ih
              cases others with
              | nil => simp only [List.map_nil, List.map_cons, listEqvWith]
              | cons w others => rw [List.map_cons, List.map_cons, listEqvWith, listEqvWith, hv, ihRest hrest]
      | map others => rw [renumber_list, renumber_map, eqvWith, eqvWith] <;> simp
      | _ => rw [renumber_list, renumber, eqvWith, eqvWith] <;> simp
    · cases u with
      | map others =>
          rw [renumber_map, renumber_map, eqvWith, eqvWith]
          induction entries generalizing others with
          | nil => cases others <;> simp only [List.map_nil, List.map_cons, entriesEqvWith]
          | cons e rest ihRest =>
              obtain ⟨he, hrest⟩ := List.forall_mem_cons.mp ih
              cases others with
              | nil => simp only [List.map_nil, List.map_cons, entriesEqvWith]
              | cons d others =>
                  rw [List.map_cons, List.map_cons, renumberEntry, renumberEntry, entriesEqvWith, entriesEqvWith,
                    he.1, he.2, ihRest hrest]
      | list others => rw [renumber_list, renumber_map, eqvWith, eqvWith] <;> simp
      | _ => rw [renumber_map, renumber, eqvWith, eqvWith] <;> simp
    · cases v with
      | list items => exact absurd rfl (hlist items)
      | map entries => exact absurd rfl (hmap entries)
      | _ => cases u <;> rfl
  exact hparts.value v u

end ObjectBridge.Value

namespace ObjectBridge.ValueMap

open Value

variable {f : BoxId → BoxId} {same same' : Value → Value → Bool} {P : Value → Prop}

theorem insert_renumber {key : Value} (value : Value) {m : ValueMap}
    (h : ∀ e ∈ m, same' (e.1.renumber f) (key.renumber f) = same e.1 key) :
    insert same' (key.renumber f) (value.renumber f) (m.map (renumberEntry f)) =
      (insert same key value m).map (renumberEntry f) := by
  induction m with
  | nil => rfl
  | cons e rest ih =>
      obtain ⟨he, hrest⟩ := List.forall_mem_cons.mp h
      rw [List.map_cons, renumberEntry, insert, insert, he, ih hrest]
      split <;> rfl

/-- The map of renumbered entries is the renumbered map, if their keys are compared like the keys themselves. -/
theorem ofEntries_renumber (hsame : ∀ k l, P k → P l → same' (k.renumber f) (l.renumber f) = same k l)
    {entries : List (Value × Value)} (hkeys : ∀ e ∈ entries, P e.1) :
    ofEntries same' (entries.map (renumberEntry f)) = (ofEntries same entries).map (renumberEntry f) := by
  have hfold (m : ValueMap) (hm : ∀ e ∈ m, P e.1) :
      (entries.map (renumberEntry f)).foldl (fun m e => insert same' e.1 e.2 m) (m.map (renumberEntry f)) =
        (entries.foldl (fun m e => insert same e.1 e.2 m) m).map (renumberEntry f) := by
    induction entries generalizing m with
    | nil => rfl
    | cons e rest ih =>
        obtain ⟨he, hrest⟩ := List.forall_mem_cons.mp hkeys
        rw [List.map_cons, List.foldl_cons, List.foldl_cons, renumberEntry,
          insert_renumber e.2 fun d hd => hsame d.1 e.1 (hm d hd) he]
        have hkept : ∀ d ∈ insert same e.1 e.2 m, P d.1 ∧ True :=
          forall_insert (P := P) (Q := fun _ => True) he trivial fun d hd => ⟨hm d hd, trivial⟩
        exact ih hrest _ fun d hd => (hkept d hd).1
  exact hfold [] (by simp)

end ObjectBridge.ValueMap
