import ObjectBridge.Proofs.Value.Coverage
import ObjectBridge.Proofs.Value.Renumber
import ObjectBridge.Proofs.Value.Unfolding

/-!
# Spare cells

Cells may have spare ones among them, which nothing mentions.  The cells behind them have higher numbers than they
would have without them, and apart from that nothing can be told.

* `Cells.skip` — the number of a cell where there are spare ones.
* `Cells.Spare` — cells with spare ones among them.
* `Spare.eqv_eq` — comparisons are the same.
* `Spare.behind_eq_or_isSome` — what is behind boxes is the same, unless it is a box.
* `Spare.mem_handlesInUse_iff` — the handles in use are the same.
-/

namespace ObjectBridge

namespace Cells

/-- The number that a box has if there are `k` spare cells from the number `n` on. -/
def skip (n k b : Nat) : Nat :=
  if b < n then b else b + k

variable {n k b c : Nat}

theorem skip_of_lt (hb : b < n) : skip n k b = b := if_pos hb

theorem skip_injective : Function.Injective (skip n k) := by
  intro b c h
  unfold skip at h
  split at h <;> split at h <;> omega

theorem skip_lt_iff {size : Nat} (hsize : n ≤ size) : skip n k b < size + k ↔ b < size := by
  unfold skip
  split <;> omega

/-- The number of a box is not that of a spare cell. -/
theorem skip_outside (b : Nat) : skip n k b < n ∨ n + k ≤ skip n k b := by
  unfold skip
  split <;> omega

/-- A cell that is not spare. -/
theorem exists_skip_eq (hc : c < n ∨ n + k ≤ c) : ∃ b, skip n k b = c := by
  rcases hc with hc | hc
  · exact ⟨c, skip_of_lt hc⟩
  · refine ⟨c - k, ?_⟩
    unfold skip
    split <;> omega

end Cells

namespace Value

/-- Every box in a value has a smaller number. -/
def Below (size : Nat) (v : Value) : Prop :=
  ∀ b ∈ v.boxes, b < size

instance (size : Nat) (v : Value) : Decidable (v.Below size) :=
  inferInstanceAs (Decidable (∀ b ∈ v.boxes, b < size))

theorem Below.mono {size size' : Nat} {v : Value} (h : v.Below size) (hle : size ≤ size') : v.Below size' :=
  fun b hb => (h b hb).trans_le hle

theorem below_nil (size : Nat) : nil.Below size :=
  fun b hb => by cases hb

theorem below_object (size : Nat) (h : Handle) : (object h).Below size :=
  fun b hb => by cases hb

/-- Boxes keep their numbers where the spare cells are behind them. -/
theorem Below.renumber_skip {size : Nat} {v : Value} (h : v.Below size) (k : Nat) :
    v.renumber (Cells.skip size k) = v :=
  renumber_eq_self fun b hb => Cells.skip_of_lt (h b hb)

end Value

namespace Cells

variable {n k b c : Nat} {cells cells' : Cells} {v u : Value} {values : List Value}

/-- Cells mention boxes that are there, if the values in them do. -/
theorem closed_iff : cells.Closed ↔ ∀ v ∈ cells, v.Below cells.size := by
  constructor
  · intro h v hv
    obtain ⟨b, hb, rfl⟩ := Array.mem_iff_getElem.mp hv
    have hcontent := h b
    rwa [content, Array.getD_eq_getD_getElem?, Array.getElem?_eq_getElem hb] at hcontent
  · intro h b c hc
    rw [content, Array.getD_eq_getD_getElem?] at hc
    cases hb : cells[b]? with
    | none =>
        rw [hb] at hc
        cases hc
    | some v =>
        rw [hb] at hc
        exact h v (Array.mem_of_getElem? hb) c hc

theorem Closed.setIfInBounds (h : cells.Closed) (b : BoxId) {v : Value}
    (hv : v.Below cells.size) : Closed (cells.setIfInBounds b v) := by
  rw [closed_iff] at h ⊢
  intro u hu
  rw [Array.size_setIfInBounds]
  rcases Array.mem_or_eq_of_mem_setIfInBounds hu with hu | rfl
  · exact h u hu
  · exact hv

theorem content_append (cells extra : Cells) (b : BoxId) :
    Cells.content (cells ++ extra) b = if b < cells.size then cells.content b else extra.content (b - cells.size) := by
  simp only [content, Array.getD_eq_getD_getElem?, Array.getElem?_append]
  split <;> rfl

/-- Cells among which there are `k` spare ones from the number `n` on, and those without the spare ones. -/
structure Spare (n k : Nat) (cells cells' : Cells) : Prop where
  closed : cells.Closed
  le_size : n ≤ cells.size
  size_eq : cells'.size = cells.size + k
  content : ∀ b, cells'.content (skip n k b) = (cells.content b).renumber (skip n k)
  /-- Nothing in a spare cell mentions a spare cell. -/
  unmentioned : ∀ b, n ≤ b → b < n + k → ∀ c ∈ (cells'.content b).boxes, c < n ∨ n + k ≤ c

/-- Cells behind the ones that are mentioned are spare. -/
theorem spare_append {extra : Cells} (hclosed : cells.Closed)
    (hextra : ∀ v ∈ extra, v.Below cells.size) : Spare cells.size extra.size cells (cells ++ extra) where
  closed := hclosed
  le_size := Nat.le_refl _
  size_eq := Array.size_append
  content := by
    intro b
    have hb : (cells.content b).Below cells.size := hclosed b
    rw [hb.renumber_skip, content_append, skip]
    by_cases hlt : b < cells.size
    · rw [if_pos hlt, if_pos hlt]
    · have hout : ¬b + extra.size < cells.size := by omega
      rw [if_neg hlt, if_neg hout]
      simp only [content, Array.getD_eq_getD_getElem?]
      rw [Array.getElem?_eq_none (by omega), Array.getElem?_eq_none (by omega)]
  unmentioned := by
    intro b hle hlt c hc
    rw [content_append, if_neg (Nat.not_lt.mpr hle)] at hc
    simp only [content, Array.getD_eq_getD_getElem?] at hc
    rw [Array.getElem?_eq_getElem (by omega)] at hc
    exact Or.inl (hextra _ (Array.getElem_mem _) c hc)

/-! ## Reading -/

theorem Spare.behind_renumber (h : Spare n k cells cells') (depth : Nat) (v : Value) :
    Conversion.behind cells' depth (v.renumber (skip n k)) =
      (Conversion.behind cells depth v).renumber (skip n k) := by
  induction depth generalizing v with
  | zero => rfl
  | succ depth ih =>
      cases v with
      | box b => rw [Value.renumber_box, Conversion.behind, Conversion.behind, h.content, ih]
      | _ => rfl

/-- What is behind boxes has other numbers for its boxes, or it is a box with and without spare cells. -/
theorem Spare.behind_eq_or_isSome (h : Spare n k cells cells') (v : Value) :
    Conversion.behind cells' (cells'.size + 1) (v.renumber (skip n k)) =
        (Conversion.behind cells (cells.size + 1) v).renumber (skip n k) ∨
      ∃ b c, Conversion.behind cells (cells.size + 1) v = .box b ∧
        Conversion.behind cells' (cells'.size + 1) (v.renumber (skip n k)) = .box c := by
  have hdepth : cells.size < cells'.size + 1 := by
    rw [h.size_eq]
    omega
  rw [h.behind_renumber]
  rcases Conversion.behind_eq_or_isSome hdepth v with hsame | ⟨hdeep, hsize⟩
  · exact Or.inl (congrArg (Value.renumber (skip n k)) hsame)
  · obtain ⟨b, hb⟩ := Option.isSome_iff_exists.mp hdeep
    obtain ⟨c, hc⟩ := Option.isSome_iff_exists.mp hsize
    exact Or.inr ⟨c, skip n k b, Value.eq_box_of_box? hc, by rw [Value.eq_box_of_box? hb, Value.renumber_box]⟩

/-! ## Comparisons -/

theorem Spare.sameBox_skip (h : Spare n k cells cells') (depth : Nat) (b c : BoxId) :
    cells'.sameBox depth (skip n k b) (skip n k c) = cells.sameBox depth b c := by
  induction depth generalizing b c with
  | zero => rw [sameBox, sameBox, skip_injective.beq_eq]
  | succ depth ih =>
      rw [sameBox, sameBox, skip_injective.beq_eq, h.content, h.content, Value.eqvWith_renumber]
      exact congrArg _ (Value.eqvWith_congr fun b _ c _ => ih b c)

/-- Values whose boxes are there are compared in the same way. -/
theorem Spare.eqv_eq (h : Spare n k cells cells') (hv : ∀ b ∈ v.boxes, b < cells.size)
    (hu : ∀ b ∈ u.boxes, b < cells.size) :
    Value.eqv cells' (v.renumber (skip n k)) (u.renumber (skip n k)) = Value.eqv cells v u := by
  rw [Value.eqv, Value.eqv, Value.eqvWith_renumber]
  refine Value.eqvWith_congr fun b hb c hc => ?_
  rw [h.sameBox_skip]
  refine sameBox_eq_of_le h.closed ?_ (hv b hb) (hu c hc)
  rw [h.size_eq]
  exact Nat.le_add_right _ _

/-! ## Handles in use -/

theorem Spare.outside_of_mem_live (h : Spare n k cells cells')
    (hc : c ∈ cells'.live (values.map (Value.renumber (skip n k)))) : c < n ∨ n + k ≤ c := by
  obtain ⟨-, hmentioned | ⟨d, -, hmentioned⟩⟩ := mem_live_iff.mp hc
  · obtain ⟨v, hv, hcv⟩ := Value.mem_listBoxes.mp hmentioned
    obtain ⟨u, -, rfl⟩ := List.mem_map.mp hv
    obtain ⟨b, -, rfl⟩ := Value.mem_boxes_renumber.mp hcv
    exact skip_outside b
  · by_cases hd : d < n ∨ n + k ≤ d
    · obtain ⟨b, rfl⟩ := exists_skip_eq hd
      rw [h.content] at hmentioned
      obtain ⟨b, -, rfl⟩ := Value.mem_boxes_renumber.mp hmentioned
      exact skip_outside b
    · push Not at hd
      exact h.unmentioned d hd.1 hd.2 c hmentioned

/-- The cells in use are the same ones. -/
theorem Spare.mem_live_iff (h : Spare n k cells cells') :
    skip n k b ∈ cells'.live (values.map (Value.renumber (skip n k))) ↔ b ∈ cells.live values := by
  constructor
  · intro hb
    -- The live boxes are the largest supported set, so it is enough that these are supported.
    have hset : cells.Supported values fun b =>
        skip n k b ∈ cells'.live (values.map (Value.renumber (skip n k))) := by
      intro b hb
      obtain ⟨hlt, hmentioned⟩ := Cells.mem_live_iff.mp hb
      rw [h.size_eq, skip_lt_iff h.le_size] at hlt
      refine ⟨hlt, hmentioned.imp (fun hmentioned => ?_) fun ⟨c, hc, hmentioned⟩ => ?_⟩
      · obtain ⟨v, hv, hbv⟩ := Value.mem_listBoxes.mp hmentioned
        obtain ⟨u, hu, rfl⟩ := List.mem_map.mp hv
        obtain ⟨d, hd, hsame⟩ := Value.mem_boxes_renumber.mp hbv
        exact Value.mem_listBoxes.mpr ⟨u, hu, skip_injective hsame ▸ hd⟩
      · obtain ⟨c, rfl⟩ := exists_skip_eq (h.outside_of_mem_live hc)
        rw [h.content] at hmentioned
        obtain ⟨d, hd, hsame⟩ := Value.mem_boxes_renumber.mp hmentioned
        exact ⟨c, hc, skip_injective hsame ▸ hd⟩
    exact hset.mem_live hb
  · intro hb
    have hset : cells'.Supported (values.map (Value.renumber (skip n k))) fun c =>
        ∃ b ∈ cells.live values, skip n k b = c := by
      rintro _ ⟨b, hb, rfl⟩
      obtain ⟨hlt, hmentioned⟩ := Cells.mem_live_iff.mp hb
      refine ⟨?_, hmentioned.imp (fun hmentioned => ?_) fun ⟨c, hc, hmentioned⟩ => ?_⟩
      · rw [h.size_eq]
        exact (skip_lt_iff h.le_size).mpr hlt
      · obtain ⟨v, hv, hbv⟩ := Value.mem_listBoxes.mp hmentioned
        exact Value.mem_listBoxes.mpr
          ⟨_, List.mem_map_of_mem hv, Value.mem_boxes_renumber.mpr ⟨b, hbv, rfl⟩⟩
      · refine ⟨skip n k c, ⟨c, hc, rfl⟩, ?_⟩
        rw [h.content]
        exact Value.mem_boxes_renumber.mpr ⟨b, hmentioned, rfl⟩
    exact hset.mem_live ⟨b, hb, rfl⟩

/-- The handles in use are the same. -/
theorem Spare.mem_handlesInUse_iff (h : Spare n k cells cells') {x : Handle} :
    x ∈ cells'.handlesInUse (values.map (Value.renumber (skip n k))) ↔ x ∈ cells.handlesInUse values := by
  rw [Cells.mem_handlesInUse_iff, Cells.mem_handlesInUse_iff]
  refine or_congr ?_ ⟨?_, ?_⟩
  · constructor
    · rintro ⟨_, hv, hx⟩
      obtain ⟨u, hu, rfl⟩ := List.mem_map.mp hv
      exact ⟨u, hu, Value.mem_handles_renumber.mp hx⟩
    · rintro ⟨u, hu, hx⟩
      exact ⟨_, List.mem_map_of_mem hu, Value.mem_handles_renumber.mpr hx⟩
  · rintro ⟨c, hc, hx⟩
    obtain ⟨b, rfl⟩ := exists_skip_eq (h.outside_of_mem_live hc)
    rw [h.content] at hx
    exact ⟨b, h.mem_live_iff.mp hc, Value.mem_handles_renumber.mp hx⟩
  · rintro ⟨b, hb, hx⟩
    refine ⟨skip n k b, h.mem_live_iff.mpr hb, ?_⟩
    rw [h.content]
    exact Value.mem_handles_renumber.mpr hx

end Cells

end ObjectBridge
