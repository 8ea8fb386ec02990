import ObjectBridge.Class.Summary
import ObjectBridge.Proofs.Value.Coverage
import ObjectBridge.Proofs.Value.Native
import ObjectBridge.Samples.Library
import ObjectBridge.Script.Primitive

/-!
# Values made of covered values

An operation on values takes its result from its operands, from boxes in use or from nothing at all, so
the result is covered if the operands are.

* `covers_map_ofEntries` and `covers_map_setField` — changes of maps.
* `covers_encode_of_decode` — taking a value as a native type.
-/

namespace ObjectBridge

variable {cells : Cells} {values : List Value}

/-! ## Values without handles and boxes -/

namespace Value

theorem isPlain_list_iff {items : List Value} : (list items).IsPlain ↔ ∀ v ∈ items, v.IsPlain := by
  simp only [IsPlain, handles_list, boxes_list, List.eq_nil_iff_forall_not_mem, mem_listHandles,
    mem_listBoxes, not_exists, not_and]
  constructor
  · intro h v hv
    exact ⟨fun k hk => h.1 k v hv hk, fun b hb => h.2 b v hv hb⟩
  · intro h
    exact ⟨fun k v hv hk => (h v hv).1 k hk, fun b v hv hb => (h v hv).2 b hb⟩

theorem isPlain_map_iff {entries : List (Value × Value)} :
    (map entries).IsPlain ↔ ∀ e ∈ entries, e.1.IsPlain ∧ e.2.IsPlain := by
  simp only [IsPlain, List.eq_nil_iff_forall_not_mem, mem_handles_map, mem_boxes_map, not_exists,
    not_and, not_or]
  constructor
  · intro h e he
    exact ⟨⟨fun k => (h.1 k e he).1, fun b => (h.2 b e he).1⟩,
      ⟨fun k => (h.1 k e he).2, fun b => (h.2 b e he).2⟩⟩
  · intro h
    exact ⟨fun k e he => ⟨(h e he).1.1 k, (h e he).2.1 k⟩,
      fun b e he => ⟨(h e he).1.2 b, (h e he).2.2 b⟩⟩

@[simp] theorem isPlain_nil : nil.IsPlain := ⟨rfl, rfl⟩

@[simp] theorem isPlain_bool (b : Bool) : (bool b).IsPlain := ⟨rfl, rfl⟩

@[simp] theorem isPlain_int (n : Int64) : (int n).IsPlain := ⟨rfl, rfl⟩

@[simp] theorem isPlain_uint (n : UInt64) : (uint n).IsPlain := ⟨rfl, rfl⟩

@[simp] theorem isPlain_float (x : Float) : (float x).IsPlain := ⟨rfl, rfl⟩

@[simp] theorem isPlain_text (s : String) : (text s).IsPlain := ⟨rfl, rfl⟩

@[simp] theorem isPlain_bytes (data : List UInt8) : (bytes data).IsPlain := ⟨rfl, rfl⟩

@[simp] theorem isPlain_enum (e : EnumValue) : (enum e).IsPlain := ⟨rfl, rfl⟩

@[simp] theorem isPlain_flags (f : FlagSet) : (flags f).IsPlain := ⟨rfl, rfl⟩

theorem isPlain_record {fields : List (String × Value)} (h : ∀ e ∈ fields, e.2.IsPlain) :
    (map (ValueMap.record fields)).IsPlain := by
  rw [isPlain_map_iff]
  intro e he
  obtain ⟨entry, hentry, rfl⟩ := List.mem_map.mp he
  exact ⟨isPlain_text _, h entry hentry⟩

theorem isPlain_literal (l : Script.Literal) : l.value.IsPlain := by
  cases l <;> exact ⟨rfl, rfl⟩

/-! ## Values by their parts -/

theorem eq_map_of_asMap {v : Value} {m : ValueMap} (h : v.asMap = .ok m) : v = .map m := by
  cases v with
  | map entries => exact congrArg Value.map (Except.ok.inj h)
  | _ => cases h

theorem eq_object_of_asHandle {v : Value} {h : Handle} (hv : v.asHandle = .ok h) :
    v = .object h := by
  cases v with
  | object k => exact congrArg Value.object (Except.ok.inj hv)
  | _ => cases hv

theorem eq_object_of_handle? {v : Value} {h : Handle} (hv : v.handle? = some h) : v = .object h := by
  cases v <;> first | exact congrArg Value.object (Option.some.inj hv) | cases hv

theorem eq_bool_of_bool? {v : Value} {b : Bool} (hv : v.bool? = some b) : v = .bool b := by
  cases v <;> first | exact congrArg Value.bool (Option.some.inj hv) | cases hv

/-- Values that are told by what is taken of them. -/
theorem eq_map_of_map_eq {α : Type} {f : Value → Option α} {g : α → Value}
    (hf : ∀ {v x}, f v = some x → v = g x) {vs : List Value} {xs : List α} (h : vs.map f = xs.map some) :
    vs = xs.map g := by
  induction vs generalizing xs with
  | nil =>
      obtain rfl := List.map_eq_nil_iff.mp h.symm
      rfl
  | cons v rest ih =>
      obtain ⟨x, rest', rfl, hx, hrest⟩ := List.map_eq_cons_iff.mp h.symm
      rw [hf hx.symm, ih hrest.symm]
      rfl

theorem eq_objects_of_handle? {vs : List Value} {hs : List Handle} (h : vs.map handle? = hs.map some) :
    vs = hs.map object :=
  eq_map_of_map_eq eq_object_of_handle? h

theorem eq_bools_of_bool? {vs : List Value} {bs : List Bool} (h : vs.map bool? = bs.map some) :
    vs = bs.map bool :=
  eq_map_of_map_eq eq_bool_of_bool? h

theorem eq_box_of_box? {v : Value} {b : BoxId} (hv : v.box? = some b) : v = .box b := by
  cases v <;> first | exact congrArg Value.box (Option.some.inj hv) | cases hv

theorem eq_box_of_asBox {v : Value} {b : BoxId} (h : v.asBox = .ok b) : v = .box b := by
  cases v with
  | box c => exact congrArg Value.box (Except.ok.inj h)
  | _ => cases h

theorem eq_list_of_asList {v : Value} {items : List Value} (h : v.asList = .ok items) :
    v = .list items := by
  cases v with
  | list vs => rw [NativeType.decodeAll_any h]
  | _ => cases h

end Value

namespace ValueMap

/-! ## Entries -/

variable {same : Value → Value → Bool} {P Q : Value → Prop}

theorem forall_insert {key value : Value} {m : ValueMap} (hkey : P key) (hvalue : Q value)
    (hm : ∀ e ∈ m, P e.1 ∧ Q e.2) : ∀ e ∈ insert same key value m, P e.1 ∧ Q e.2 := by
  induction m with
  | nil =>
      intro e he
      obtain rfl := List.mem_singleton.mp he
      exact ⟨hkey, hvalue⟩
  | cons first rest ih =>
      obtain ⟨hfirst, hrest⟩ := List.forall_mem_cons.mp hm
      intro e he
      rw [insert] at he
      split at he
      · rcases List.mem_cons.mp he with rfl | he
        · exact ⟨hfirst.1, hvalue⟩
        · exact hrest e he
      · rcases List.mem_cons.mp he with rfl | he
        · exact hfirst
        · exact ih hrest e he

/-- The entries of a map are made of the keys and values that it was built from. -/
theorem forall_ofEntries {entries : List (Value × Value)} (h : ∀ e ∈ entries, P e.1 ∧ Q e.2) :
    ∀ e ∈ ofEntries same entries, P e.1 ∧ Q e.2 := by
  have hfold (m : ValueMap) (hm : ∀ e ∈ m, P e.1 ∧ Q e.2) :
      ∀ e ∈ entries.foldl (fun m entry => insert same entry.1 entry.2 m) m, P e.1 ∧ Q e.2 := by
    induction entries generalizing m with
    | nil => exact hm
    | cons e rest ih =>
        obtain ⟨he, hrest⟩ := List.forall_mem_cons.mp h
        exact ih hrest _ (forall_insert he.1 he.2 hm)
  exact hfold [] (by simp)

end ValueMap

namespace Cells

/-! ## Maps -/

theorem covers_map_ofEntries {same : Value → Value → Bool} {entries : List (Value × Value)}
    (h : ∀ e ∈ entries, cells.Covers values e.1 ∧ cells.Covers values e.2) :
    cells.Covers values (.map (ValueMap.ofEntries same entries)) :=
  covers_map_iff.mpr (ValueMap.forall_ofEntries h)

theorem covers_map_setField {name : String} {value : Value} {m : ValueMap}
    (hvalue : cells.Covers values value) (hm : cells.Covers values (.map m)) :
    cells.Covers values (.map (m.setField name value)) := by
  rw [covers_map_iff] at hm ⊢
  induction m with
  | nil =>
      intro e he
      obtain rfl := List.mem_singleton.mp he
      exact ⟨covers_of_isPlain (by simp), hvalue⟩
  | cons entry rest ih =>
      obtain ⟨k, v⟩ := entry
      have hfirst := hm (k, v) (by simp)
      have hrest := ih fun e he => hm e (by simp [he])
      intro e he
      rw [ValueMap.setField] at he
      split at he
      · rcases List.mem_cons.mp he with rfl | he
        · exact ⟨hfirst.1, hvalue⟩
        · exact hm e (by simp [he])
      · rcases List.mem_cons.mp he with rfl | he
        · exact hfirst
        · exact hrest e he

theorem covers_field? {name : String} {m : ValueMap} {v : Value}
    (hm : cells.Covers values (.map m)) (hv : m.field? name = some v) : cells.Covers values v := by
  rw [covers_map_iff] at hm
  induction m with
  | nil => simp [ValueMap.field?] at hv
  | cons entry rest ih =>
      obtain ⟨k, u⟩ := entry
      rw [ValueMap.field?] at hv
      split at hv
      · rw [Option.some.injEq] at hv
        rw [← hv]
        exact (hm (k, u) (by simp)).2
      · exact ih (fun e he => hm e (by simp [he])) hv

theorem covers_field {state : NativeState} (name : String)
    (hstate : cells.Covers values (.map state.fields)) :
    cells.Covers values (state.field name) := by
  rw [NativeState.field]
  cases hv : state.fields.field? name with
  | none => exact covers_of_isPlain (by simp)
  | some v => exact covers_field? hstate hv

theorem covers_record {fields : List (String × Value)}
    (h : ∀ e ∈ fields, cells.Covers values e.2) :
    cells.Covers values (.map (ValueMap.record fields)) := by
  rw [covers_map_iff]
  intro e he
  obtain ⟨entry, hentry, rfl⟩ := List.mem_map.mp he
  exact ⟨covers_of_isPlain (by simp), h entry hentry⟩

theorem covers_shown {state : NativeState} (hstate : cells.Covers values (.map state.fields)) :
    cells.Covers values (.map (Samples.shown state)) := by
  unfold Samples.shown
  split
  · refine covers_record ?_
    intro e he
    obtain rfl := List.mem_singleton.mp he
    exact covers_field "n" hstate
  · refine covers_record ?_
    intro e he
    obtain rfl := List.mem_singleton.mp he
    exact covers_of_isPlain (by simp)
  · exact hstate

/-! ## Native types -/

/-- A value taken as a native type holds nothing that it did not hold before. -/
theorem covers_encode_of_decode {type : NativeType} {v : Value} {x : type.Carrier}
    (hx : type.decode v = .ok x) (hv : cells.Covers values v) :
    cells.Covers values (type.encode x) := by
  induction type generalizing v with
  | handle =>
      cases v with
      | object part =>
          obtain rfl := Except.ok.inj hx
          exact hv
      | _ => cases hx
  | map =>
      cases v with
      | map part =>
          obtain rfl := Except.ok.inj hx
          exact hv
      | _ => cases hx
  | box =>
      cases v with
      | box part =>
          obtain rfl := Except.ok.inj hx
          exact hv
      | _ => cases hx
  | any =>
      obtain rfl := Except.ok.inj hx
      exact hv
  | sequence item ih =>
      cases v with
      | list items =>
          show cells.Covers values (.list (List.map item.encode x))
          rw [covers_list_iff] at hv ⊢
          intro u hu
          obtain ⟨y, hy, rfl⟩ := List.mem_map.mp hu
          obtain ⟨w, hw, hdecode⟩ := NativeType.exists_of_mem_decodeAll hx hy
          exact ih hdecode (hv w hw)
      | _ => cases hx
  | option content ih =>
      simp only [NativeType.decode] at hx
      split at hx
      · obtain rfl := Except.ok.inj hx
        exact covers_of_isPlain ⟨rfl, rfl⟩
      · obtain ⟨y, hy, rfl⟩ := map_eq_ok_iff.mp hx
        exact ih hy hv
  | _ => exact covers_of_isPlain ⟨rfl, rfl⟩

end Cells

end ObjectBridge
