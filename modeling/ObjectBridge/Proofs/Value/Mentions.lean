import ObjectBridge.Value.Cells

/-!
# What values mention

Handles and boxes occur in a value, in the items of a list and in the keys and values of a map.  The
order of the occurrences plays no role here.

* `Value.handles` — the handles that occur in a value.
* `mem_listHandles` and `mem_listBoxes` — what occurs in a list of values occurs in one of them.
* `handles_list`, `mem_handles_map`, `boxes_list` and `mem_boxes_map` — what occurs in a list or a map.
* `Closed.object` and `Closed.box` — what occurs in a value is among its parts.
-/

namespace ObjectBridge.Value

/-- The handles that occur in a value. -/
def handles (v : Value) : List Handle :=
  addHandles [] v

mutual

theorem addHandles_eq (others : List Handle) (v : Value) :
    addHandles others v = addHandles [] v ++ others := by
  cases v with
  | list items =>
      rw [addHandles, addHandles]
      exact addListHandles_eq others items
  | map entries =>
      rw [addHandles, addHandles]
      exact addEntryHandles_eq others entries
  | _ => simp [addHandles]

theorem addListHandles_eq (others : List Handle) (vs : List Value) :
    addListHandles others vs = addListHandles [] vs ++ others := by
  cases vs with
  | nil => simp [addListHandles]
  | cons v rest =>
      rw [addListHandles, addListHandles, addHandles_eq, addListHandles_eq others rest,
        addHandles_eq (addListHandles [] rest) v, List.append_assoc]

theorem addEntryHandles_eq (others : List Handle) (entries : List (Value × Value)) :
    addEntryHandles others entries = addEntryHandles [] entries ++ others := by
  match entries with
  | [] => simp [addEntryHandles]
  | (k, v) :: rest =>
      rw [addEntryHandles, addEntryHandles, addHandles_eq, addHandles_eq _ v,
        addEntryHandles_eq others rest, addHandles_eq (addHandles (addEntryHandles [] rest) v) k,
        addHandles_eq (addEntryHandles [] rest) v]
      simp only [List.append_assoc]

end

mutual

theorem addBoxes_eq (others : List BoxId) (v : Value) :
    addBoxes others v = addBoxes [] v ++ others := by
  cases v with
  | list items =>
      rw [addBoxes, addBoxes]
      exact addListBoxes_eq others items
  | map entries =>
      rw [addBoxes, addBoxes]
      exact addEntryBoxes_eq others entries
  | _ => simp [addBoxes]

theorem addListBoxes_eq (others : List BoxId) (vs : List Value) :
    addListBoxes others vs = addListBoxes [] vs ++ others := by
  cases vs with
  | nil => simp [addListBoxes]
  | cons v rest =>
      rw [addListBoxes, addListBoxes, addBoxes_eq, addListBoxes_eq others rest,
        addBoxes_eq (addListBoxes [] rest) v, List.append_assoc]

theorem addEntryBoxes_eq (others : List BoxId) (entries : List (Value × Value)) :
    addEntryBoxes others entries = addEntryBoxes [] entries ++ others := by
  match entries with
  | [] => simp [addEntryBoxes]
  | (k, v) :: rest =>
      rw [addEntryBoxes, addEntryBoxes, addBoxes_eq, addBoxes_eq _ v,
        addEntryBoxes_eq others rest, addBoxes_eq (addBoxes (addEntryBoxes [] rest) v) k,
        addBoxes_eq (addEntryBoxes [] rest) v]
      simp only [List.append_assoc]

end

/-! ## Lists of values -/

theorem listHandles_cons (v : Value) (vs : List Value) :
    listHandles (v :: vs) = v.handles ++ listHandles vs := by
  rw [listHandles, addListHandles, addHandles_eq]
  rfl

theorem listBoxes_cons (v : Value) (vs : List Value) :
    listBoxes (v :: vs) = v.boxes ++ listBoxes vs := by
  rw [listBoxes, addListBoxes, addBoxes_eq]
  rfl

theorem mem_listHandles {h : Handle} {vs : List Value} :
    h ∈ listHandles vs ↔ ∃ v ∈ vs, h ∈ v.handles := by
  induction vs with
  | nil => simp [listHandles, addListHandles]
  | cons v vs ih => simp [listHandles_cons, ih]

theorem mem_listBoxes {b : BoxId} {vs : List Value} :
    b ∈ listBoxes vs ↔ ∃ v ∈ vs, b ∈ v.boxes := by
  induction vs with
  | nil => simp [listBoxes, addListBoxes]
  | cons v vs ih => simp [listBoxes_cons, ih]

/-! ## Values by their kind -/

theorem handles_list (items : List Value) : (list items).handles = listHandles items := by
  rw [handles, addHandles, listHandles]

theorem boxes_list (items : List Value) : (list items).boxes = listBoxes items := by
  rw [boxes, addBoxes, listBoxes]

theorem mem_handles_map {h : Handle} {entries : List (Value × Value)} :
    h ∈ (map entries).handles ↔ ∃ e ∈ entries, h ∈ e.1.handles ∨ h ∈ e.2.handles := by
  rw [handles, addHandles]
  induction entries with
  | nil => simp [addEntryHandles]
  | cons e rest ih =>
      obtain ⟨k, v⟩ := e
      rw [addEntryHandles, addHandles_eq, addHandles_eq _ v]
      simp [handles, ih, or_assoc]

theorem mem_boxes_map {b : BoxId} {entries : List (Value × Value)} :
    b ∈ (map entries).boxes ↔ ∃ e ∈ entries, b ∈ e.1.boxes ∨ b ∈ e.2.boxes := by
  rw [boxes, addBoxes]
  induction entries with
  | nil => simp [addEntryBoxes]
  | cons e rest ih =>
      obtain ⟨k, v⟩ := e
      rw [addEntryBoxes, addBoxes_eq, addBoxes_eq _ v]
      simp [boxes, ih, or_assoc]

@[simp] theorem handles_object (h : Handle) : (object h).handles = [h] := rfl

@[simp] theorem boxes_object (h : Handle) : (object h).boxes = [] := rfl

@[simp] theorem handles_box (b : BoxId) : (box b).handles = [] := rfl

@[simp] theorem boxes_box (b : BoxId) : (box b).boxes = [b] := rfl

theorem box?_eq_none_of_boxes {v : Value} (h : v.boxes = []) : v.box? = none := by
  cases v <;> first | rfl | cases h

/-! ## Values and their parts -/

/-- What has to be shown for an induction on a value, with the items of a list and the entries of a map as
its parts. -/
structure Inductive (motive : Value → Prop) : Prop where
  list : ∀ items, (∀ v ∈ items, motive v) → motive (.list items)
  map : ∀ entries, (∀ e ∈ entries, motive e.1 ∧ motive e.2) → motive (.map entries)
  single : ∀ v, (∀ items, v ≠ .list items) → (∀ entries, v ≠ .map entries) → motive v

mutual

theorem Inductive.value {motive : Value → Prop} (h : Inductive motive) (v : Value) :
    motive v := by
  match v with
  | .list items => exact h.list items (h.items items)
  | .map entries => exact h.map entries (h.entries entries)
  | .nil | .bool _ | .int _ | .uint _ | .float _ | .text _ | .bytes _ | .enum _ | .flags _
  | .object _ | .box _ => exact h.single _ (by simp) (by simp)

theorem Inductive.items {motive : Value → Prop} (h : Inductive motive) (items : List Value) :
    ∀ v ∈ items, motive v := by
  match items with
  | [] => simp
  | v :: rest => exact List.forall_mem_cons.mpr ⟨h.value v, h.items rest⟩

theorem Inductive.entries {motive : Value → Prop} (h : Inductive motive)
    (entries : List (Value × Value)) : ∀ e ∈ entries, motive e.1 ∧ motive e.2 := by
  match entries with
  | [] => simp
  | (k, v) :: rest =>
      exact List.forall_mem_cons.mpr ⟨⟨h.value k, h.value v⟩, h.entries rest⟩

end

/-- A set of values that contains the items, keys and values of its lists and maps. -/
structure Closed (set : Value → Prop) : Prop where
  item : ∀ items, set (.list items) → ∀ v ∈ items, set v
  entry : ∀ entries, set (.map entries) → ∀ e ∈ entries, set e.1 ∧ set e.2

/-- The handles that occur in a value of the set are in the set. -/
theorem Closed.object {set : Value → Prop} (hset : Closed set) {v : Value} (hv : set v)
    {h : Handle} (hh : h ∈ v.handles) : set (.object h) := by
  have hparts : Inductive fun v => set v → h ∈ v.handles → set (.object h) := by
    refine ⟨?_, ?_, ?_⟩
    · intro items ih hv hh
      rw [handles_list, mem_listHandles] at hh
      obtain ⟨u, hu, hh⟩ := hh
      exact ih u hu (hset.item items hv u hu) hh
    · intro entries ih hv hh
      obtain ⟨e, he, hh⟩ := mem_handles_map.mp hh
      rcases hh with hh | hh
      · exact (ih e he).1 (hset.entry entries hv e he).1 hh
      · exact (ih e he).2 (hset.entry entries hv e he).2 hh
    · intro v hlist hmap hv hh
      cases v with
      | object k =>
          rw [handles_object, List.mem_singleton] at hh
          rwa [hh]
      | list items => exact absurd rfl (hlist items)
      | map entries => exact absurd rfl (hmap entries)
      | _ => exact absurd hh List.not_mem_nil
  exact hparts.value v hv hh

/-- The boxes that occur in a value of the set are in the set. -/
theorem Closed.box {set : Value → Prop} (hset : Closed set) {v : Value} (hv : set v)
    {b : BoxId} (hb : b ∈ v.boxes) : set (.box b) := by
  have hparts : Inductive fun v => set v → b ∈ v.boxes → set (.box b) := by
    refine ⟨?_, ?_, ?_⟩
    · intro items ih hv hb
      rw [boxes_list, mem_listBoxes] at hb
      obtain ⟨u, hu, hb⟩ := hb
      exact ih u hu (hset.item items hv u hu) hb
    · intro entries ih hv hb
      obtain ⟨e, he, hb⟩ := mem_boxes_map.mp hb
      rcases hb with hb | hb
      · exact (ih e he).1 (hset.entry entries hv e he).1 hb
      · exact (ih e he).2 (hset.entry entries hv e he).2 hb
    · intro v hlist hmap hv hb
      cases v with
      | box c =>
          rw [boxes_box, List.mem_singleton] at hb
          rwa [hb]
      | list items => exact absurd rfl (hlist items)
      | map entries => exact absurd rfl (hmap entries)
      | _ => exact absurd hb List.not_mem_nil
  exact hparts.value v hv hb

/-- The parts of a value without boxes have none. -/
theorem closed_withoutBoxes : Closed fun v => v.boxes = [] := by
  refine ⟨fun items h v hv => ?_, fun entries h e he => ⟨?_, ?_⟩⟩
  · rw [List.eq_nil_iff_forall_not_mem] at h ⊢
    exact fun b hb => h b (by rw [boxes_list, mem_listBoxes]; exact ⟨v, hv, hb⟩)
  · rw [List.eq_nil_iff_forall_not_mem] at h ⊢
    exact fun b hb => h b (mem_boxes_map.mpr ⟨e, he, Or.inl hb⟩)
  · rw [List.eq_nil_iff_forall_not_mem] at h ⊢
    exact fun b hb => h b (mem_boxes_map.mpr ⟨e, he, Or.inr hb⟩)

/-- A value that mentions neither a handle nor a box. -/
def IsPlain (v : Value) : Prop :=
  v.handles = [] ∧ v.boxes = []

end ObjectBridge.Value
