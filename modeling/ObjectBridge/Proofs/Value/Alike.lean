import ObjectBridge.Proofs.Value.Declared
import ObjectBridge.Proofs.Value.Unfolding

/-!
# Values that are converted alike

A value is converted alike in two worlds if these agree on what is behind its boxes, and on how its parts are compared,
unless objects are asked for.

* `Conversion.Alike` and `Alike.convert_eq` — values that are alike in two worlds.
* `Conversion.conforms_of_independent` — converted values of independent types are alike in all worlds.
* `Cells.Undisturbed` — what some values lead to stays as it is for as long as no box that they lead to gets another
  content.  Other boxes may change and new ones may be made meanwhile.
* `Cells.Undisturbed.alike` — undisturbed values are alike.
-/

namespace ObjectBridge

namespace Conversion

variable {w : World} {type : Ty} {passing : Passing} {u v : Value} {cost : Nat}

theorem items?_congr {f g : Value → Except Refusal Converted} {vs : List Value}
    (h : ∀ v ∈ vs, f v = g v) : items? f vs = items? g vs := by
  induction vs with
  | nil => rfl
  | cons v rest ih =>
      obtain ⟨hv, hrest⟩ := List.forall_mem_cons.mp h
      rw [items?, items?, hv, ih hrest]

theorem entries?_congr {f f' g g' : Value → Except Refusal Converted} {es : List (Value × Value)}
    (h : ∀ e ∈ es, f e.1 = f' e.1 ∧ g e.2 = g' e.2) : entries? f g es = entries? f' g' es := by
  induction es with
  | nil => rfl
  | cons e rest ih =>
      obtain ⟨⟨hk, hv⟩, hrest⟩ := List.forall_mem_cons.mp h
      rw [entries?, entries?, hk, hv, ih hrest]

/-- Values of a sort are alike in two worlds: what is behind them, unless it is a box in both, and how they are
compared. -/
structure Alike (P : Value → Prop) (w w' : World) : Prop where
  carried : w.cells.Carried P
  behind : ∀ v, P v → behind w'.cells (w'.cells.size + 1) v = behind w.cells (w.cells.size + 1) v ∨
    ∃ b c, behind w.cells (w.cells.size + 1) v = .box b ∧ behind w'.cells (w'.cells.size + 1) v = .box c
  eqv_eq : ∀ v u, P v → P u → w'.eqv v u = w.eqv v u

variable {P : Value → Prop} {w' : World}

theorem Alike.throughBoxes_eq (h : Alike P w w') (hv : P v) {f f' : Value → Except Refusal Converted}
    (hbox : ∀ b c, f' (.box c) = f (.box b)) (hcontent : ∀ content, P content → f' content = f content) :
    throughBoxes w' type passing v f' = throughBoxes w type passing v f := by
  unfold throughBoxes
  rcases h.behind v hv with hsame | ⟨b, c, hb, hc⟩
  · simp only [hsame]
    split
    · rfl
    · exact hcontent _ (h.carried.behind hv _)
  · simp only [hb, hc]
    exact hbox b c

theorem Alike.toList_eq (h : Alike P w w') {item : Ty}
    (hitem : ∀ x, P x → convert w' item .value x = convert w item .value x) {content : Value} (hcontent : P content) :
    toList w' item content = toList w item content := by
  cases content with
  | list items =>
      have hitems : ∀ x ∈ items, convert w' item .value x = convert w item .value x :=
        fun x hx => hitem x (h.carried.list_iff.mp hcontent x hx)
      unfold toList
      simp only [Value.list?, Option.bind_eq_bind, Option.bind_some, items?_congr hitems]
  | _ => rw [toList_of_list?_eq_none rfl, toList_of_list?_eq_none rfl]

theorem Alike.toMap_eq (h : Alike P w w') {key value : Ty}
    (hkey : ∀ x, P x → convert w' key .value x = convert w key .value x)
    (hvalue : ∀ x, P x → convert w' value .value x = convert w value .value x) {content : Value}
    (hcontent : P content) : toMap w' key value content = toMap w key value content := by
  cases content with
  | map entries =>
      have hparts := h.carried.map_iff.mp hcontent
      have hentries : ∀ e ∈ entries, convert w' key .value e.1 = convert w key .value e.1 ∧
          convert w' value .value e.2 = convert w value .value e.2 :=
        fun e he => ⟨hkey e.1 (hparts e he).1, hvalue e.2 (hparts e he).2⟩
      unfold toMap
      simp only [Value.map?, Option.bind_eq_bind, Option.bind_some, entries?_congr hentries]
      cases hall : entries? (convert w key .value) (convert w value .value) entries with
      | none => rfl
      | some converted =>
          have hkeys : ∀ e ∈ converted.1, P e.1 := by
            intro e he
            obtain ⟨raw, hraw, ⟨c, hk⟩, -⟩ := exists_of_mem_entries? hall he
            exact h.carried.convert hk (hparts raw hraw).1
          simp only [Option.bind_some, ValueMap.ofEntries_congr hkeys h.eqv_eq]
  | _ => rw [toMap_of_map?_eq_none rfl, toMap_of_map?_eq_none rfl]

/-- Values that are alike in two worlds are converted alike, unless objects are asked for. -/
theorem Alike.convert_eq (h : Alike P w w') (htype : WithoutObjects type) (hv : P v) :
    convert w' type passing v = convert w type passing v := by
  induction type generalizing passing v with
  | any => rfl
  | object cls => exact htype.elim
  | list item ih =>
      rw [convert_list, convert_list]
      refine h.throughBoxes_eq hv (fun b c => ?_) fun content hcontent => h.toList_eq (fun x => ih htype) hcontent
      rw [toList_of_list?_eq_none rfl, toList_of_list?_eq_none rfl]
      rfl
  | map key value ihKey ihValue =>
      rw [convert_map, convert_map]
      refine h.throughBoxes_eq hv (fun b c => ?_) fun content hcontent =>
        h.toMap_eq (fun x => ihKey htype.1) (fun x => ihValue htype.2) hcontent
      rw [toMap_of_map?_eq_none rfl, toMap_of_map?_eq_none rfl]
      rfl
  | _ =>
      rw [convert_scalar rfl, convert_scalar rfl]
      exact h.throughBoxes_eq hv (fun _ _ => rfl) fun _ _ => rfl

/-- Values without boxes are alike in all worlds. -/
theorem alike_withoutBoxes (w w' : World) : Alike (fun v => ∀ b ∈ v.boxes, False) w w' where
  carried := Cells.carried_boxes fun _ _ hb _ => hb
  behind v hv := by
    have hbox : v.box? = none := Value.box?_eq_none_of_boxes (List.eq_nil_iff_forall_not_mem.mpr hv)
    exact Or.inl (by rw [behind_of_box?_eq_none hbox, behind_of_box?_eq_none hbox])
  eqv_eq v u hv _ := Value.eqvWith_congr fun b hb => (hv b hb).elim

/-- A converted value of an independent type stays of the type whatever happens to objects and boxes. -/
theorem conforms_of_independent (htype : Independent type)
    (h : convert w type passing v = .ok (u, cost)) (w' : World) : Conforms w' type passing u := by
  obtain ⟨c, hc⟩ := conforms_of_convert h
  have hbox : ∀ b ∈ u.boxes, False := List.eq_nil_iff_forall_not_mem.mp (boxes_of_convert htype.definite h)
  exact ⟨c, ((alike_withoutBoxes w w').convert_eq htype.withoutObjects hbox).trans hc⟩

end Conversion

namespace Cells

/-! ## Undisturbed values -/

/-- Later cells in which every box that some values lead to has the content that it has in the cells before. -/
structure Undisturbed (values : List Value) (cells cells' : Cells) : Prop where
  le_size : cells.size ≤ cells'.size
  content_eq : ∀ b, cells.Leads values (.box b) → cells'.content b = cells.content b

variable {values : List Value} {cells cells' : Cells} {b c : BoxId} {v u : Value}

/-- Boxes that values lead to are there. -/
theorem lt_size_of_leads (hclosed : cells.Closed) (hbelow : ∀ v ∈ values, ∀ b ∈ v.boxes, b < cells.size)
    (hb : cells.Leads values (.box b)) : b < cells.size :=
  boxes_of_leads (fun _ _ _ hc => hclosed.holds hc) hbelow hb b (by simp)

namespace Undisturbed

theorem behind_eq (h : Undisturbed values cells cells') (hv : ∀ b ∈ v.boxes, cells.Leads values (.box b))
    (depth : Nat) : Conversion.behind cells' depth v = Conversion.behind cells depth v := by
  induction depth generalizing v with
  | zero => rfl
  | succ depth ih =>
      cases v with
      | box b =>
          have hb : cells.Leads values (.box b) := hv b (by simp)
          rw [Conversion.behind, Conversion.behind, h.content_eq b hb]
          exact ih fun c hc => hb.holds hc
      | _ => rfl

theorem sameBox_eq (h : Undisturbed values cells cells') (hb : cells.Leads values (.box b))
    (hc : cells.Leads values (.box c)) (depth : Nat) : cells'.sameBox depth b c = cells.sameBox depth b c := by
  induction depth generalizing b c with
  | zero => rfl
  | succ depth ih =>
      rw [sameBox, sameBox, h.content_eq b hb, h.content_eq c hc]
      exact congrArg _ (Value.eqvWith_congr fun d hd e he => ih (hb.holds hd) (hc.holds he))

/-- Undisturbed values are compared in the same way. -/
theorem eqv_eq (h : Undisturbed values cells cells') (hclosed : cells.Closed)
    (hbelow : ∀ v ∈ values, ∀ b ∈ v.boxes, b < cells.size) (hv : ∀ b ∈ v.boxes, cells.Leads values (.box b))
    (hu : ∀ b ∈ u.boxes, cells.Leads values (.box b)) : Value.eqv cells' v u = Value.eqv cells v u := by
  refine Value.eqvWith_congr fun b hb c hc => ?_
  rw [h.sameBox_eq (hv b hb) (hu c hc)]
  exact sameBox_eq_of_le hclosed h.le_size (lt_size_of_leads hclosed hbelow (hv b hb))
    (lt_size_of_leads hclosed hbelow (hu c hc))

/-- What undisturbed values mention is converted in the same way. -/
theorem alike {w w' : World} (h : Undisturbed values w.cells w'.cells) (hclosed : w.cells.Closed)
    (hbelow : ∀ v ∈ values, ∀ b ∈ v.boxes, b < w.cells.size) :
    Conversion.Alike (fun v => ∀ b ∈ v.boxes, w.cells.Leads values (.box b)) w w' where
  carried := carried_boxes fun _ _ hb hc => hb.holds hc
  behind v hv := by
    rw [h.behind_eq hv]
    have hdepth : w.cells.size < w'.cells.size + 1 := Nat.lt_succ_of_le h.le_size
    rcases Conversion.behind_eq_or_isSome hdepth v with hsame | ⟨hdeep, hsize⟩
    · exact Or.inl hsame
    · obtain ⟨b, hb⟩ := Option.isSome_iff_exists.mp hdeep
      obtain ⟨c, hc⟩ := Option.isSome_iff_exists.mp hsize
      exact Or.inr ⟨c, b, Value.eq_box_of_box? hc, Value.eq_box_of_box? hb⟩
  eqv_eq v u hv hu := h.eqv_eq hclosed hbelow hv hu

end Undisturbed

end Cells

end ObjectBridge
