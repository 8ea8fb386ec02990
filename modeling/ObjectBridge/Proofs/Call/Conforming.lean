import ObjectBridge.Proofs.Call.Results
import ObjectBridge.Proofs.Value.Declared

/-!
# Results of a declared type

A result that holds no objects is converted to the declared type, so the caller gets a value of this type.

`Delivery.conforms_of_give` says so of a result, and also of an item of an iteration.  A result that holds objects
comes without boxes (`Delivery.boxes_of_give`).
-/

namespace ObjectBridge

open Run Conversion

namespace Delivery

variable {exec : Exec} {s t : State} {u v : Value} {us vs : List Value}

theorem outcome_converted {type : Ty} (hrun : (give.converted type v).outcome s = (.ok u, t)) :
    t = s ∧ ∃ cost, convert s.toWorld type .value v = .ok (u, cost) := by
  rw [give.converted, outcome_get_bind] at hrun
  split at hrun
  · rename_i x cost hconv
    obtain ⟨rfl, rfl⟩ := eq_of_outcome_pure hrun
    exact ⟨rfl, cost, hconv⟩
  · exact (not_outcome_fail hrun).elim

theorem conforms_of_converted {type : Ty} (hobject : type.isObject = false)
    (hrun : (give.converted type v).outcome s = (.ok u, t)) :
    t = s ∧ ∀ passing, Conforms s.toWorld type passing u := by
  obtain ⟨rfl, cost, hconv⟩ := outcome_converted hrun
  exact ⟨rfl, conforms_of_convert_value hobject hconv⟩

/-- Items that are delivered without a change to the world are so one after the other. -/
theorem mapHeld_of_pure {f : Value → Run Value} {P : World → Value → Prop}
    (hf : ∀ v ∈ vs, ∀ s u t, (f v).outcome s = (.ok u, t) → t = s ∧ P s.toWorld u)
    (hrun : (mapHeld f vs).outcome s = (.ok us, t)) : t = s ∧ ∀ u ∈ us, P s.toWorld u := by
  induction vs generalizing s us t with
  | nil =>
      obtain ⟨rfl, rfl⟩ := eq_of_outcome_pure hrun
      exact ⟨rfl, by simp⟩
  | cons v rest ih =>
      obtain ⟨u, t₁, hhold, hafter⟩ := exists_of_outcome_bind hrun
      obtain ⟨t₁', hfirst, rfl⟩ := exists_of_outcome_holding hhold
      obtain ⟨us', t₂, hhold', hpure⟩ := exists_of_outcome_bind hafter
      obtain ⟨rfl, rfl⟩ := eq_of_outcome_pure hpure
      obtain ⟨t₂', hrest, rfl⟩ := exists_of_outcome_holding hhold'
      obtain ⟨rfl, hu⟩ := hf v List.mem_cons_self _ u t₁' hfirst
      obtain ⟨rfl, hus⟩ := ih (fun w hw => hf w (List.mem_cons_of_mem _ hw)) hrest
      exact ⟨rfl, List.forall_mem_cons.mpr ⟨hu, hus⟩⟩

/-- What every item becomes, wherever it is delivered. -/
theorem mapHeld_of_forall {f : Value → Run Value} {P : Value → Prop}
    (hf : ∀ v s u t, (f v).outcome s = (.ok u, t) → P u)
    (hrun : (mapHeld f vs).outcome s = (.ok us, t)) : ∀ u ∈ us, P u := by
  induction vs generalizing s us t with
  | nil =>
      obtain ⟨rfl, -⟩ := eq_of_outcome_pure hrun
      simp
  | cons v rest ih =>
      obtain ⟨u, t₁, hhold, hafter⟩ := exists_of_outcome_bind hrun
      obtain ⟨t₁', hfirst, rfl⟩ := exists_of_outcome_holding hhold
      obtain ⟨us', t₂, hhold', hpure⟩ := exists_of_outcome_bind hafter
      obtain ⟨rfl, rfl⟩ := eq_of_outcome_pure hpure
      obtain ⟨t₂', hrest, rfl⟩ := exists_of_outcome_holding hhold'
      exact List.forall_mem_cons.mpr ⟨hf v _ u t₁' hfirst, ih hrest⟩

theorem definite_of_holdsObjects {type : Ty} (htype : type.HoldsObjects) : Definite type := by
  induction type with
  | list item ih => exact ih htype
  | object cls => trivial
  | _ => exact htype.elim

/-- A result that holds objects comes without boxes, whatever the body returned. -/
theorem boxes_of_give {owner method : String} {type : Ty} {passing : Passing} (htype : type.HoldsObjects)
    (hrun : (give exec owner method type passing v).outcome s = (.ok u, t)) : u.boxes = [] := by
  induction type generalizing v s u t with
  | object cls =>
      unfold give at hrun
      split at hrun
      · obtain ⟨i, -, hgiven⟩ := exists_of_outcome_giveObject hrun
        -- However an object is given, what is given is an object, which mentions no box.
        cases passing with
        | value =>
            rcases hgiven with ⟨-, rfl, -⟩ | ⟨-, k, t', -, rfl, -⟩ <;> rfl
        | ref | ptr =>
            obtain ⟨k, a, -, rfl, -⟩ := hgiven
            rfl
        | constRef | constPtr =>
            rcases hgiven with ⟨-, rfl, -⟩ | ⟨k, a, -, rfl, -⟩ <;> rfl
      · split at hrun
        · rw [← (eq_of_outcome_pure hrun).1]
          rfl
        · exact (not_outcome_fail hrun).elim
      · obtain ⟨-, cost, hconv⟩ := outcome_converted hrun
        exact boxes_of_convert (definite_of_holdsObjects htype) hconv
  | list item ih =>
      unfold give at hrun
      split at hrun
      · obtain ⟨us, t', hitems, hpure⟩ := exists_of_outcome_bind hrun
        obtain ⟨rfl, -⟩ := eq_of_outcome_pure hpure
        have hus : ∀ u ∈ us, u.boxes = [] := mapHeld_of_forall (fun v s u t hu => ih htype hu) hitems
        refine List.eq_nil_iff_forall_not_mem.mpr fun b hb => ?_
        rw [Value.boxes_list, Value.mem_listBoxes] at hb
        obtain ⟨u, hu, hb⟩ := hb
        rw [hus u hu] at hb
        cases hb
      · obtain ⟨-, cost, hconv⟩ := outcome_converted hrun
        exact boxes_of_convert (show Definite (.list item) from definite_of_holdsObjects htype) hconv
  | _ => exact htype.elim

/-- A result that holds no objects is of the declared type, whatever the body returned. -/
theorem conforms_of_give {owner method : String} {type : Ty} {passing : Passing}
    (htype : ¬type.HoldsObjects)
    (hrun : (give exec owner method type passing v).outcome s = (.ok u, t)) :
    t = s ∧ ∀ passing', Conforms s.toWorld type passing' u := by
  induction type generalizing v s u t with
  | object cls => exact (htype trivial).elim
  | any =>
      obtain ⟨rfl, rfl⟩ := eq_of_outcome_pure hrun
      exact ⟨rfl, fun _ => ⟨0, rfl⟩⟩
  | list item ih =>
      unfold give at hrun
      split at hrun
      · rename_i items
        obtain ⟨us, t', hitems, hpure⟩ := exists_of_outcome_bind hrun
        obtain ⟨rfl, rfl⟩ := eq_of_outcome_pure hpure
        -- No item is an object, so the state at the end of one item is the state before it.
        have hitem : ∀ x ∈ items, ∀ s u t,
            (give exec owner method item passing x).outcome s = (.ok u, t) →
              t = s ∧ ∀ passing', Conforms s.toWorld item passing' u :=
          fun x _ s u t hx => ih htype hx
        obtain ⟨rfl, hus⟩ := mapHeld_of_pure
          (P := fun w u => ∀ passing', Conforms w item passing' u) hitem hitems
        refine ⟨rfl, fun passing' => ?_⟩
        obtain ⟨c, hc⟩ := (keeps_list fun x hx => hus x hx .value).throughBoxes _ (.list item) passing'
        exact ⟨c, (convert_list _ item passing' _).trans hc⟩
      · exact conforms_of_converted rfl hrun
  | _ => exact conforms_of_converted rfl hrun

end Delivery

end ObjectBridge
