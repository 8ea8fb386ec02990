import ObjectBridge.Proofs.Value.Boxed
import ObjectBridge.Proofs.Value.Conversion
import ObjectBridge.Proofs.Value.Coverage

/-!
# Boxes that hold boxes

A box may hold another box, and so on.  As long as no box is inside of itself, to look through boxes comes to an end:
reading, displaying and comparing them look through at most as many boxes as there are cells, and then a box more
would tell nothing new.

* `Cells.Inside` — the boxes inside of a box.
* `Cells.NoCircle` — no box that some values lead to is inside of itself.
* `Cells.inside_of_convert` — a box that is converted is not part of the result, only what is inside of it, unless the
  type admits everything.
* `Cells.NoCircle.ends` — looking through boxes comes to an end.
-/

namespace ObjectBridge.Cells

/-- The content of a box mentions another one. -/
def Holds (cells : Cells) (b c : BoxId) : Prop :=
  c ∈ (cells.content b).boxes

/-- A box leads to another one, which is inside of it, from box to box. -/
def Inside (cells : Cells) : BoxId → BoxId → Prop :=
  Relation.TransGen cells.Holds

/-- No box that values lead to is inside of itself. -/
def NoCircle (cells : Cells) (values : List Value) : Prop :=
  ∀ b, cells.Leads values (.box b) → ¬cells.Inside b b

variable {cells cells' : Cells} {values values' : List Value} {b c : BoxId}

theorem boxes_content_of_le (hb : cells.size ≤ b) : (cells.content b).boxes = [] := by
  have hnil : cells.content b = .nil := by
    simp [content, Array.getD_eq_getD_getElem?, Nat.not_lt_of_le hb]
  rw [hnil]
  rfl

theorem Holds.lt_size (h : cells.Holds b c) : b < cells.size := by
  by_contra hb
  rw [Holds, boxes_content_of_le (Nat.le_of_not_lt hb)] at h
  cases h

/-! ## What values lead to -/

theorem Leads.holds (hb : cells.Leads values (.box b)) (h : cells.Holds b c) : cells.Leads values (.box c) :=
  (closed_leads cells values).box (.content hb) h

theorem Leads.inside (hb : cells.Leads values (.box b)) (h : cells.Inside b c) : cells.Leads values (.box c) := by
  induction h with
  | single h => exact hb.holds h
  | tail _ h ih => exact ih.holds h

/-- Boxes of a set that contains what its boxes hold are mentioned wherever values of the set lead to. -/
theorem boxes_of_leads {set : BoxId → Prop} (hset : ∀ b c, set b → cells.Holds b c → set c)
    (hvalues : ∀ v ∈ values, ∀ b ∈ v.boxes, set b) {v : Value} (hv : cells.Leads values v) :
    ∀ b ∈ v.boxes, set b := by
  induction hv with
  | start hv => exact hvalues _ hv
  | item _ hv ih => exact fun b hb => ih b (by rw [Value.boxes_list, Value.mem_listBoxes]; exact ⟨_, hv, hb⟩)
  | key _ he ih => exact fun b hb => ih b (Value.mem_boxes_map.mpr ⟨_, he, Or.inl hb⟩)
  | value _ he ih => exact fun b hb => ih b (Value.mem_boxes_map.mpr ⟨_, he, Or.inr hb⟩)
  | content _ ih => exact fun c hc => hset _ c (ih _ (by simp)) hc

/-! ## Conversion -/

/-- A property of boxes that a box hands on to what it holds. -/
theorem carried_boxes {set : BoxId → Prop} (hset : ∀ b c, set b → cells.Holds b c → set c) :
    cells.Carried fun v => ∀ b ∈ v.boxes, set b := by
  refine ⟨fun hv b hb => ?_, ⟨fun h v hv b hb => h b ?_, fun h b hb => ?_⟩,
    ⟨fun h e he => ⟨fun b hb => h b ?_, fun b hb => h b ?_⟩, fun h b hb => ?_⟩, fun hb c hc => ?_⟩
  · rw [hv.2] at hb
    cases hb
  · rw [Value.boxes_list, Value.mem_listBoxes]
    exact ⟨v, hv, hb⟩
  · rw [Value.boxes_list, Value.mem_listBoxes] at hb
    obtain ⟨v, hv, hb⟩ := hb
    exact h v hv b hb
  · exact Value.mem_boxes_map.mpr ⟨e, he, Or.inl hb⟩
  · exact Value.mem_boxes_map.mpr ⟨e, he, Or.inr hb⟩
  · obtain ⟨e, he, hb | hb⟩ := Value.mem_boxes_map.mp hb
    · exact (h e he).1 b hb
    · exact (h e he).2 b hb
  · exact hset _ c (hb _ (by simp)) hc

/-- A converted value mentions only boxes that the value leads to. -/
theorem leads_of_convert {w : World} {type : Ty} {passing : Passing} {v u : Value} {cost : Nat}
    (h : Conversion.convert w type passing v = .ok (u, cost)) :
    ∀ b ∈ u.boxes, w.cells.Leads [v] (.box b) :=
  (carried_boxes fun _ _ hb hc => hb.holds hc).convert h
    fun _ hb => (closed_leads w.cells [v]).box (.start List.mem_cons_self) hb

/-- A box that is converted is looked through, so the result mentions only boxes inside of it; a type that admits
everything takes the box itself. -/
theorem inside_of_convert {w : World} {type : Ty} {passing : Passing} {u : Value} {cost : Nat}
    (hany : type ≠ .any) (h : Conversion.convert w type passing (.box b) = .ok (u, cost)) :
    ∀ c ∈ u.boxes, w.cells.Inside b c := by
  have hcarried : w.cells.Carried fun v => ∀ c ∈ v.boxes, w.cells.Inside b c :=
    carried_boxes fun _ _ hb hc => hb.tail hc
  exact hcarried.convert_of_behind h (fun htype => absurd htype hany)
    (hcarried.behind (v := w.cells.content b) (fun c hc => .single hc) w.cells.size)

/-! ## Later contents -/

/-- If boxes hold later only what was inside of them before, the same goes for all that is inside of them later. -/
theorem Inside.of_holds {set : BoxId → Prop} (hset : ∀ b c, set b → cells.Holds b c → set c)
    (hholds : ∀ b c, set b → cells'.Holds b c → cells.Inside b c) (hb : set b) (h : cells'.Inside b c) :
    cells.Inside b c := by
  have hclosed {d : BoxId} (hd : cells.Inside b d) : set d := by
    induction hd with
    | single h => exact hset _ _ hb h
    | tail _ h ih => exact hset _ _ ih h
  induction h with
  | single h => exact hholds _ _ hb h
  | tail _ h ih => exact ih.trans (hholds _ _ (hclosed ih) h)

/-- No circle is closed if boxes hold later only what was inside of them before. -/
theorem NoCircle.of_holds (hfree : cells.NoCircle values)
    (hholds : ∀ b c, cells.Leads values (.box b) → cells'.Holds b c → cells.Inside b c)
    (hvalues : ∀ v ∈ values', ∀ b ∈ v.boxes, cells.Leads values (.box b)) : cells'.NoCircle values' := by
  intro b hb hcircle
  have hstart : cells.Leads values (.box b) :=
    boxes_of_leads (fun b c hb hc => hb.inside (hholds b c hb hc)) hvalues hb b (by simp)
  exact hfree b hstart (hcircle.of_holds (fun _ _ hb hc => hb.holds hc) hholds hstart)

/-! ## Looking through boxes -/

/-- A box is at most so many boxes away from the last ones inside of it. -/
def Shallow (cells : Cells) : Nat → BoxId → Prop
  | 0, b => (cells.content b).boxes = []
  | depth + 1, b => ∀ c, cells.Holds b c → Shallow cells depth c

/-- The boxes on the way to a box are all different if it is not inside of itself, so there are at most as many as
there are cells. -/
theorem shallow_of_seen (depth : Nat) (seen : Finset BoxId) (hseen : ∀ c ∈ seen, c < cells.size ∧ cells.Inside c b)
    (hdepth : cells.size ≤ seen.card + depth) (hfree : ∀ c, Relation.ReflTransGen cells.Holds b c → ¬cells.Inside c c) :
    cells.Shallow depth b := by
  have hnew : b ∉ seen := fun hb => hfree b .refl (hseen b hb).2
  induction depth generalizing seen b with
  | zero =>
      refine boxes_content_of_le (Nat.le_of_not_lt fun hb => hnew ?_)
      -- All boxes have been seen, so one more would have been seen as well.
      have hall : seen = Finset.range cells.size :=
        Finset.eq_of_subset_of_card_le (fun c hc => Finset.mem_range.mpr (hseen c hc).1) (by simpa using hdepth)
      rw [hall]
      exact Finset.mem_range.mpr hb
  | succ depth ih =>
      intro c hc
      refine ih (insert b seen) (fun d hd => ?_) ?_ (fun d hd => hfree d (.head hc hd)) fun hmem => ?_
      · rcases Finset.mem_insert.mp hd with rfl | hd
        · exact ⟨hc.lt_size, .single hc⟩
        · exact ⟨(hseen d hd).1, (hseen d hd).2.tail hc⟩
      · rw [Finset.card_insert_of_notMem hnew]
        omega
      · rcases Finset.mem_insert.mp hmem with rfl | hmem
        · exact hfree c .refl (.single hc)
        · exact hfree c (.single hc) ((hseen c hmem).2.tail hc)

theorem NoCircle.shallow (hfree : cells.NoCircle values) (hb : cells.Leads values (.box b)) :
    cells.Shallow cells.size b := by
  refine shallow_of_seen cells.size ∅ (by simp) (by simp) fun c hc => ?_
  rcases Relation.reflTransGen_iff_eq_or_transGen.mp hc with rfl | hc
  · exact hfree c hb
  · exact hfree c (hb.inside hc)

theorem Shallow.box?_behind {depth : Nat} (h : cells.Shallow depth b) :
    (Conversion.behind cells (depth + 1) (.box b)).box? = none := by
  induction depth generalizing b with
  | zero =>
      rw [Conversion.behind, Conversion.behind]
      cases hcontent : cells.content b with
      | box c =>
          rw [Shallow, hcontent] at h
          cases h
      | _ => rfl
  | succ depth ih =>
      rw [Conversion.behind]
      cases hcontent : cells.content b with
      | box c =>
          refine ih (h c ?_)
          rw [Holds, hcontent]
          simp
      | _ => rfl

theorem Shallow.contentText_eq {depth n : Nat} (h : cells.Shallow depth b) (hn : depth < n) :
    cells.contentText n b = cells.contentText (depth + 1) b := by
  induction depth generalizing n b with
  | zero =>
      obtain ⟨n, rfl⟩ := Nat.exists_eq_add_one_of_ne_zero hn.ne'
      rw [contentText, contentText]
      refine Value.displayWith_congr fun c hc => ?_
      rw [Shallow.eq_def] at h
      rw [h] at hc
      cases hc
  | succ depth ih =>
      obtain ⟨n, rfl⟩ := Nat.exists_eq_add_one_of_ne_zero (Nat.ne_of_gt (Nat.zero_lt_of_lt hn))
      rw [contentText, contentText]
      exact Value.displayWith_congr fun c hc => ih (h c hc) (Nat.lt_of_succ_lt_succ hn)

/-- Whether two boxes are equal is found out by looking through one of them. -/
theorem sameBox_eq_of_shallow {depth n : Nat} {x y : BoxId} (hn : depth < n)
    (h : cells.Shallow depth x ∨ cells.Shallow depth y) :
    cells.sameBox n x y = cells.sameBox (depth + 1) x y := by
  induction depth generalizing n x y with
  | zero =>
      obtain ⟨n, rfl⟩ := Nat.exists_eq_add_one_of_ne_zero hn.ne'
      rw [sameBox, sameBox]
      refine congrArg _ (Value.eqvWith_congr fun c hc d hd => ?_)
      rcases h with h | h <;> rw [Shallow.eq_def] at h
      · rw [h] at hc
        cases hc
      · rw [h] at hd
        cases hd
  | succ depth ih =>
      obtain ⟨n, rfl⟩ := Nat.exists_eq_add_one_of_ne_zero (Nat.ne_of_gt (Nat.zero_lt_of_lt hn))
      rw [sameBox, sameBox]
      refine congrArg _ (Value.eqvWith_congr fun c hc d hd => ?_)
      exact ih (Nat.lt_of_succ_lt_succ hn) (h.imp (fun h => h c hc) fun h => h d hd)

/-- To look through a box, and through the boxes inside of it, comes to an end. -/
structure Ends (cells : Cells) (b : BoxId) : Prop where
  /-- What a conversion finds behind the box is not a box. -/
  reading : (Conversion.behind cells (cells.size + 1) (.box b)).box? = none
  displaying : ∀ n, cells.size < n → cells.contentText n b = cells.contentText (cells.size + 1) b
  comparing : ∀ n, cells.size < n → ∀ c, cells.sameBox n b c = cells.sameBox (cells.size + 1) b c ∧
    cells.sameBox n c b = cells.sameBox (cells.size + 1) c b

theorem NoCircle.ends (hfree : cells.NoCircle values) (hb : cells.Leads values (.box b)) : cells.Ends b := by
  have hshallow := hfree.shallow hb
  exact ⟨hshallow.box?_behind, fun n hn => hshallow.contentText_eq hn,
    fun n hn c => ⟨sameBox_eq_of_shallow hn (Or.inl hshallow), sameBox_eq_of_shallow hn (Or.inr hshallow)⟩⟩

end ObjectBridge.Cells
