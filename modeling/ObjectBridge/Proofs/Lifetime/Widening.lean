import ObjectBridge.Proofs.Lifetime.Copies
import ObjectBridge.Proofs.Lifetime.Sweep
import ObjectBridge.Proofs.Run.Guarded

/-!
# Copies and boxes that are left behind

When values are passed to a body, objects among them are copied and values are put into new boxes.  If the body does
not run after all, nobody has a handle of such a copy, so the next sweep removes it.

* `World.Widened` — a world with further boxes and with copies of objects.
* `State.anchor_lt_of_widened` — all handles are older than the copies.
* `State.swept_of_widened` — the next sweep removes the copies.
-/

namespace ObjectBridge

/-- A world differs from another one by new boxes, with contents of a certain sort, and by copies of objects.  The
copies are managed and have new anchors. -/
structure World.Widened (P : Value → Prop) (w w' : World) : Prop where
  classes_eq : w'.classes = w.classes
  box_eq : ∀ (b : BoxId) (v : Value), w.cells[b]? = some v → w'.cells[b]? = some v
  box_new : ∀ (b : BoxId) (v : Value), w'.cells[b]? = some v → w.cells[b]? = some v ∨ P v
  nextAnchor_le : w.arena.nextAnchor ≤ w'.arena.nextAnchor
  mem_heldValues : ∀ v ∈ w'.arena.heldValues, v ∈ w.arena.heldValues
  balanced : w.arena.Balanced → w'.arena.Balanced
  get?_eq : w.arena.Balanced → ∀ r i, w.arena.get? r = some i → w'.arena.get? r = some i
  get?_new : w.arena.Balanced → ∀ r i, w'.arena.get? r = some i → w.arena.get? r = some i ∨
    i.keep = .managed ∧ w.arena.nextAnchor ≤ i.anchor.serial ∧
      ∃ q j, w.arena.get? q = some j ∧ i.native = j.native ∧ i.overrides = j.overrides

namespace World

variable {P : Value → Prop} {w w₁ w₂ w₃ : World}

theorem Widened.refl (P : Value → Prop) (w : World) : w.Widened P w :=
  ⟨rfl, fun _ _ hv => hv, fun _ _ hv => Or.inl hv, Nat.le_refl _, fun _ hv => hv, id, fun _ _ _ hi => hi,
    fun _ _ _ hi => Or.inl hi⟩

theorem Widened.trans (hfirst : w₁.Widened P w₂) (hrest : w₂.Widened P w₃) : w₁.Widened P w₃ := by
  refine ⟨hrest.classes_eq.trans hfirst.classes_eq, fun b v hv => hrest.box_eq b v (hfirst.box_eq b v hv), ?_,
    hfirst.nextAnchor_le.trans hrest.nextAnchor_le, fun v hv => hfirst.mem_heldValues v (hrest.mem_heldValues v hv),
    fun hbal => hrest.balanced (hfirst.balanced hbal),
    fun hbal r i hi => hrest.get?_eq (hfirst.balanced hbal) r i (hfirst.get?_eq hbal r i hi), ?_⟩
  · intro b v hv
    exact (hrest.box_new b v hv).elim (hfirst.box_new b v) Or.inr
  · intro hbal r i hi
    rcases hrest.get?_new (hfirst.balanced hbal) r i hi with hi | ⟨hkeep, hserial, q, j, hj, hnative, hoverrides⟩
    · exact hfirst.get?_new hbal r i hi
    · refine Or.inr ⟨hkeep, hfirst.nextAnchor_le.trans hserial, ?_⟩
      -- The original may be a copy itself.
      rcases hfirst.get?_new hbal q j hj with hj | ⟨-, -, q', j', hj', hnative', hoverrides'⟩
      · exact ⟨q, j, hj, hnative, hoverrides⟩
      · exact ⟨q', j', hj', hnative.trans hnative', hoverrides.trans hoverrides'⟩

theorem widened_of_copied {s t : State} {h k : Handle} (hcopied : Lifetime.Copied s h t k) :
    s.toWorld.Widened P t.toWorld := by
  have hextends := hcopied.extends
  have hheld := fun v => hcopied.mem_heldValues (v := v)
  obtain ⟨i, state, c, arena, hi, hstate, hreg, rfl⟩ := hcopied
  obtain ⟨hnext, hserial⟩ := Arena.nextAnchor_register hreg
  refine ⟨rfl, fun _ _ hv => hv, fun _ _ hv => Or.inl hv, ?_, hheld, fun hbal => hbal.step (.register _ k hreg),
    fun hbal => (hextends hbal).get?_eq, ?_⟩
  · show s.arena.nextAnchor ≤ arena.nextAnchor
    omega
  · intro hbal r j hj
    have hget := Arena.get?_register hbal hreg r
    have hj' : arena.get? r = some j := hj
    rw [hj'] at hget
    split at hget
    · obtain rfl := Option.some.inj hget
      exact Or.inr ⟨rfl, hserial.ge, _, i, hi, hstate.symm, rfl⟩
    · exact Or.inl hget.symm

theorem widened_of_box {v : Value} (hv : P v) : w.Widened P { w with cells := w.cells.push v } := by
  refine ⟨rfl, ?_, ?_, Nat.le_refl _, fun _ hv => hv, id, fun _ _ _ hi => hi, fun _ _ _ hi => Or.inl hi⟩
  · intro b u hu
    obtain ⟨hlt, -⟩ := Array.getElem?_eq_some_iff.mp hu
    rw [Array.getElem?_push, if_neg hlt.ne]
    exact hu
  · intro b u hu
    rw [Array.getElem?_push] at hu
    split at hu
    · exact Or.inr (Option.some.inj hu ▸ hv)
    · exact Or.inl hu

end World

namespace State

open Run

variable {s t : State} {hand hand' : List Value}

/-- What is covered while values are held is covered with them in hand. -/
theorem covers_of_withHeld {v : Value} (hv : (withHeld s hand).Covers hand v) : s.Covers hand v := by
  refine Cells.Covers.mono (fun u hu => ?_) hv
  simp only [mem_inUse_iff, mem_roots_iff, withHeld, List.flatten_cons, List.mem_append] at hu ⊢
  tauto

/-- The handles that exist in a widened world, with values in hand that were in hand before, are older than the
copies. -/
theorem anchor_lt_of_widened (hs : s.Arises hand) (ht : t = s.withWorld t.toWorld)
    (hwidened : s.toWorld.Widened (s.Covers hand) t.toWorld) (hsub : ∀ v ∈ hand', v ∈ hand) {h : Handle}
    (hh : h ∈ (withHeld t hand').handles) : h.proxy.anchor.serial < s.arena.nextAnchor := by
  -- What a box holds now was in it or was in use otherwise, so no handle is reached that did not exist.
  have hwithin : s.cells.Within (s.inUse hand) t.cells ((withHeld t hand').inUse []) := by
    refine ⟨?_, ?_, ?_⟩
    · by_contra hlt
      have hlast : s.cells[t.cells.size]? = some s.cells[t.cells.size] := Array.getElem?_eq_getElem (by omega)
      obtain ⟨hb, -⟩ := Array.getElem?_eq_some_iff.mp (hwidened.box_eq _ _ hlast)
      exact Nat.lt_irrefl _ hb
    · intro b hb
      have hv : t.cells[b]? = some (t.cells.content b) := by
        rw [Cells.content, Array.getD_eq_getD_getElem?, Array.getElem?_eq_getElem hb, Option.getD_some]
      rcases hwidened.box_new b _ hv with hold | hnew
      · obtain ⟨hlt, heq⟩ := Array.getElem?_eq_some_iff.mp hold
        refine Or.inl ⟨hlt, ?_⟩
        rw [← heq, Cells.content, Array.getD_eq_getD_getElem?, Array.getElem?_eq_getElem hlt, Option.getD_some]
      · exact Or.inr hnew
    · intro v hv
      simp only [mem_inUse_iff, List.not_mem_nil, false_or, World.heldValues, List.mem_append] at hv
      rcases hv with hv | hv | hv
      · rw [ht, mem_roots_iff] at hv
        have hcases : v ∈ hand' ∨ v ∈ s.roots := by
          rw [mem_roots_iff]
          have hheld : (withHeld (s.withWorld t.toWorld) hand').held.flatten = hand' ++ s.held.flatten := rfl
          rw [hheld, List.mem_append] at hv
          have hothers : (withHeld (s.withWorld t.toWorld) hand').globals = s.globals ∧
              (withHeld (s.withWorld t.toWorld) hand').callables = s.callables ∧
              (withHeld (s.withWorld t.toWorld) hand').activations = s.activations := ⟨rfl, rfl, rfl⟩
          rw [hothers.1, hothers.2.1, hothers.2.2] at hv
          tauto
        rcases hcases with hv | hv
        · exact covers_of_mem_hand (hsub v hv)
        · exact covers_of_mem_roots hv hand
      · refine covers_of_mem_heldValues (List.mem_append_left _ ?_) hand
        rw [← hwidened.classes_eq]
        exact hv
      · exact covers_of_mem_heldValues (List.mem_append_right _ (hwidened.mem_heldValues v hv)) hand
  rw [handles_eq] at hh
  exact hs.anchor_lt (hwithin.reaches ⟨h, hh, rfl⟩)

/-- If values that were to be passed to a body are left behind, the objects of before are as they were, and the next
sweep removes the copies. -/
theorem swept_of_widened (hs : s.Arises hand) (ht : t = s.withWorld t.toWorld)
    (hwidened : s.toWorld.Widened (s.Covers hand) t.toWorld) (hsub : ∀ v ∈ hand', v ∈ hand) {r : Reference}
    {i : Instance} (hi : t.arena.get? r = some i) (hnone : s.arena.get? r = none) :
    r ∈ (withHeld t hand').collectable ∧ (t.stepsLeft ≠ some 0 →
      ∃ n u, (holding hand' Lifetime.reclaim).outcome t = (.ok n, u) ∧ u.arena.get? r = none) := by
  have hr : r ∈ (withHeld t hand').collectable := by
    rcases hwidened.get?_new hs.balanced r i hi with hold | ⟨hkeep, hserial, -⟩
    · rw [hnone] at hold
      cases hold
    · refine Arena.mem_collectable_iff.mpr ⟨i, hi, hkeep, ?_⟩
      rw [Arena.anchorHeld, List.any_eq_false]
      intro h hh
      have hlt := anchor_lt_of_widened hs ht hwidened hsub hh
      simp only [beq_iff_eq]
      omega
  refine ⟨hr, fun hsteps => ?_⟩
  obtain ⟨limit, hreclaim⟩ := Lifetime.exists_outcome_reclaim (s := withHeld t hand') hsteps
  refine ⟨_, _, outcome_holding_of_ok hreclaim, ?_⟩
  exact Lifetime.get?_sweep_of_mem_collectable (s := { withHeld t hand' with stepsLeft := limit }) hr _ _

end State

end ObjectBridge
