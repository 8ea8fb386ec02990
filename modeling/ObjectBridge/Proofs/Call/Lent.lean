import ObjectBridge.Proofs.Call.Passing
import ObjectBridge.Proofs.Call.WriteBack
import ObjectBridge.Proofs.Run.Spare

/-!
# Boxes that are lent to an override

An override receives each argument that it may change in a box of its own.  To store a value in the box comes to the
same as to set the argument, which is what a native body does.

* `Delivery.outcome_outward` — the boxes that are lent, and what is in them.
* `Delivery.setArgs` and `setBoxes` — changes of the arguments, and the same changes of the boxes.
* `Delivery.setBoxes_eq` — the boxes hold the arguments, with all changes that were made.
* `Delivery.writeBack_inward` — what is written back.
* `Delivery.writeBack_append` — the boxes that were lent stay as they are meanwhile.
-/

namespace ObjectBridge

namespace Delivery

open Run

/-- The arguments that a body may change. -/
def outputs : List Param → List Value → List Value
  | p :: params, v :: rest => if isOutput p then v :: outputs params rest else outputs params rest
  | _, _ => []

/-- The arguments as an override receives them, in boxes from a number on. -/
def sentFrom : Nat → List Param → List Value → List Value
  | n, p :: params, v :: rest =>
      if isOutput p then .box n :: sentFrom (n + 1) params rest else v :: sentFrom n params rest
  | _, _, _ => []

variable {params : List Param} {values updated : List Value} {p : Param} {i n : Nat}

/-- New boxes are made for the arguments that may be changed, in order. -/
theorem outcome_outward (params : List Param) (values : List Value) (s : State) :
    (outward params values).outcome s = (.ok (sentFrom s.cells.size params values),
      { s with cells := s.cells ++ (outputs params values).toArray }) := by
  induction params generalizing values s with
  | nil => simp [outward, sentFrom, outputs]; rfl
  | cons p params ih =>
      cases values with
      | nil => simp [outward, sentFrom, outputs]; rfl
      | cons v rest =>
          rw [outward, sentFrom, outputs]
          split
          · rw [outcome_bind_of_ok (outcome_newBox v), outcome_bind_of_ok (ih rest _), Array.size_push]
            simp
            rfl
          · exact outcome_bind_of_ok (ih rest s) _

/-- How many of the parameters before a parameter take arguments that a body may change. -/
def rank (params : List Param) (i : Nat) : Nat :=
  (params.take i).countP isOutput

theorem rank_succ (p : Param) (params : List Param) (i : Nat) :
    rank (p :: params) (i + 1) = rank params i + if isOutput p then 1 else 0 := by
  rw [rank, rank, List.take_succ_cons, List.countP_cons]

theorem getElem?_sentFrom (hp : params[i]? = some p) (houtput : isOutput p = true) (hi : i < values.length) :
    (sentFrom n params values)[i]? = some (.box (n + rank params i)) := by
  induction params generalizing values i n with
  | nil => cases hp
  | cons q params ih =>
      cases values with
      | nil => cases hi
      | cons v rest =>
          cases i with
          | zero =>
              obtain rfl := Option.some.inj hp
              rw [sentFrom, if_pos houtput]
              rfl
          | succ i =>
              have hlater : i < rest.length := Nat.lt_of_succ_lt_succ hi
              rw [rank_succ, sentFrom]
              by_cases hq : isOutput q = true
              · rw [if_pos hq, if_pos hq, List.getElem?_cons_succ, ih hp hlater, Nat.add_right_comm, Nat.add_assoc]
              · rw [if_neg hq, if_neg hq, List.getElem?_cons_succ, ih hp hlater]
                rfl

theorem length_sentFrom_le (n : Nat) (params : List Param) (values : List Value) :
    (sentFrom n params values).length ≤ values.length := by
  induction params generalizing values n with
  | nil => exact Nat.zero_le _
  | cons p params ih =>
      cases values with
      | nil => exact Nat.le_refl _
      | cons v rest =>
          rw [sentFrom]
          split
          · exact Nat.succ_le_succ (ih (n + 1) rest)
          · exact Nat.succ_le_succ (ih n rest)

theorem getElem?_outputs (hp : params[i]? = some p) (houtput : isOutput p = true) :
    (outputs params values)[rank params i]? = values[i]? := by
  induction params generalizing values i with
  | nil => cases hp
  | cons q params ih =>
      cases values with
      | nil => rfl
      | cons v rest =>
          cases i with
          | zero =>
              obtain rfl := Option.some.inj hp
              rw [outputs, if_pos houtput]
              rfl
          | succ i =>
              rw [rank_succ, outputs]
              by_cases hq : isOutput q = true
              · rw [if_pos hq, if_pos hq]
                exact ih hp
              · rw [if_neg hq, if_neg hq]
                exact ih hp

theorem outputs_set (hp : params[i]? = some p) (houtput : isOutput p = true) (w : Value) :
    outputs params (values.set i w) = (outputs params values).set (rank params i) w := by
  induction params generalizing values i with
  | nil => cases hp
  | cons q params ih =>
      cases values with
      | nil => rfl
      | cons v rest =>
          cases i with
          | zero =>
              obtain rfl := Option.some.inj hp
              rw [List.set_cons_zero, outputs, outputs, if_pos houtput, if_pos houtput]
              rfl
          | succ i =>
              rw [rank_succ, List.set_cons_succ, outputs, outputs, ih hp]
              by_cases hq : isOutput q = true
              · rw [if_pos hq, if_pos hq, if_pos hq]
                rfl
              · rw [if_neg hq, if_neg hq, if_neg hq]
                rfl

/-! ## Changes -/

/-- The arguments after values took the places of some of them, one after the other. -/
def setArgs (changes : List (Nat × Value)) (values : List Value) : List Value :=
  changes.foldl (fun values c => values.set c.1 c.2) values

/-- The cells after a value was stored in the box that was sent for an argument. -/
def setBox (sent : List Value) (cells : Cells) (i : Nat) (w : Value) : Cells :=
  match sent[i]? with
  | some (.box b) => cells.setIfInBounds b w
  | _ => cells

/-- The cells after values were stored in the boxes that were sent for some arguments, one after the other. -/
def setBoxes (sent : List Value) (changes : List (Nat × Value)) (cells : Cells) : Cells :=
  changes.foldl (fun cells c => setBox sent cells c.1 c.2) cells

/-- Changes concern arguments that a body may change. -/
def Allowed (params : List Param) (changes : List (Nat × Value)) : Prop :=
  ∀ c ∈ changes, ∃ p, params[c.1]? = some p ∧ isOutput p = true

variable {changes : List (Nat × Value)} {cells : Cells}

theorem length_setArgs (changes : List (Nat × Value)) (values : List Value) :
    (setArgs changes values).length = values.length := by
  induction changes generalizing values with
  | nil => rfl
  | cons c rest ih => rw [setArgs, List.foldl_cons, ← setArgs, ih, List.length_set]

/-- A value in the place of an argument is a value in the box for it. -/
theorem setBox_eq (hp : params[i]? = some p) (houtput : isOutput p = true)
    (hlength : updated.length = values.length) (w : Value) :
    setBox (sentFrom cells.size params values) (cells ++ (outputs params updated).toArray) i w =
      cells ++ (outputs params (updated.set i w)).toArray := by
  rw [setBox]
  by_cases hi : i < values.length
  · rw [getElem?_sentFrom hp houtput hi]
    dsimp only
    rw [Array.setIfInBounds_append, if_neg (Nat.not_lt.mpr (Nat.le_add_right _ _)), Nat.add_sub_cancel_left,
      List.setIfInBounds_toArray, outputs_set hp houtput]
  · have hnone : (sentFrom cells.size params values)[i]? = none :=
      List.getElem?_eq_none ((length_sentFrom_le _ _ _).trans (Nat.not_lt.mp hi))
    rw [hnone, List.set_eq_of_length_le (by omega)]

/-- The boxes that were lent hold the arguments with all changes. -/
theorem setBoxes_eq (hchanges : Allowed params changes) (hlength : updated.length = values.length) :
    setBoxes (sentFrom cells.size params values) changes (cells ++ (outputs params updated).toArray) =
      cells ++ (outputs params (setArgs changes updated)).toArray := by
  induction changes generalizing updated with
  | nil => rfl
  | cons c rest ih =>
      obtain ⟨⟨p, hp, houtput⟩, hrest⟩ := List.forall_mem_cons.mp hchanges
      rw [setBoxes, List.foldl_cons, setBox_eq hp houtput hlength, ← setBoxes,
        ih hrest (by rw [List.length_set, hlength]), setArgs, setArgs, List.foldl_cons]

/-- Values take the places of values. -/
theorem mem_setArgs {v : Value} (hv : v ∈ setArgs changes values) : v ∈ values ∨ v ∈ changes.map Prod.snd := by
  induction changes generalizing values with
  | nil => exact Or.inl hv
  | cons c rest ih =>
      have hset : v ∈ setArgs rest (values.set c.1 c.2) := hv
      rcases ih hset with hmem | hmem
      · rcases List.mem_or_eq_of_mem_set hmem with hmem | rfl
        · exact Or.inl hmem
        · exact Or.inr List.mem_cons_self
      · exact Or.inr (List.mem_cons_of_mem _ hmem)

theorem mem_of_mem_outputs {v : Value} (hv : v ∈ outputs params values) : v ∈ values := by
  induction params generalizing values with
  | nil => simp [outputs] at hv
  | cons p params ih =>
      cases values with
      | nil => simp [outputs] at hv
      | cons u rest =>
          rw [outputs] at hv
          split at hv
          · rcases List.mem_cons.mp hv with rfl | hv
            · exact List.mem_cons_self
            · exact List.mem_cons_of_mem _ (ih hv)
          · exact List.mem_cons_of_mem _ (ih hv)

/-! ## What is written back -/

theorem length_inward (cells : Cells) (sent values : List Value) :
    (inward cells sent values).length = values.length := by
  induction sent generalizing values with
  | nil => cases values <;> rfl
  | cons x sent ih =>
      cases values with
      | nil => cases x <;> rfl
      | cons v rest => cases x <;> exact congrArg Nat.succ (ih rest)

/-- What a body left of arguments that it may not change does not matter. -/
theorem writeBack_congr {updated' : List Value} (hlength : updated'.length = updated.length)
    (hsame : ∀ (i : Nat) (p : Param), params[i]? = some p → isOutput p = true → updated'[i]? = updated[i]?)
    (sources : List Source) (cells : Cells) (args : CallArgs) :
    writeBack cells args (params.zip (sources.zip updated')) =
      writeBack cells args (params.zip (sources.zip updated)) := by
  induction params generalizing sources updated updated' cells args with
  | nil => rfl
  | cons p params ih =>
      cases sources with
      | nil => rfl
      | cons source sources =>
          cases updated with
          | nil => rw [List.length_eq_zero_iff.mp hlength]
          | cons v rest =>
              obtain ⟨v', rest', rfl⟩ := List.exists_cons_of_length_eq_add_one hlength
              have hrest := ih (Nat.succ.inj hlength) fun i q hq => hsame (i + 1) q hq
              simp only [List.zip_cons_cons, writeBack]
              split
              · rename_i houtput
                obtain rfl : v' = v := Option.some.inj (hsame 0 p rfl houtput)
                simp only [hrest]
              · exact hrest _ _ _

/-- What an override leaves in the boxes is written back like what a native body leaves of the arguments. -/
theorem writeBack_inward (hlength : updated.length = values.length) (sources : List Source) (cells cells' : Cells)
    (args : CallArgs) :
    writeBack cells' args (params.zip (sources.zip
        (inward (cells ++ (outputs params updated).toArray) (sentFrom cells.size params values) values))) =
      writeBack cells' args (params.zip (sources.zip updated)) := by
  refine writeBack_congr (by rw [length_inward, hlength]) (fun i p hp houtput => ?_) sources cells' args
  by_cases hi : i < values.length
  · rw [getElem?_inward (getElem?_sentFrom hp houtput hi) (List.getElem?_eq_getElem hi), ← getElem?_outputs hp houtput]
    have hrank : (outputs params updated)[rank params i]? = updated[i]? := getElem?_outputs hp houtput
    have hthere : i < updated.length := by omega
    rw [List.getElem?_eq_getElem hthere] at hrank
    rw [hrank, Cells.content, Array.getD_eq_getD_getElem?, Array.getElem?_append_right (Nat.le_add_right _ _),
      Nat.add_sub_cancel_left, List.getElem?_toArray, hrank]
    rfl
  · rw [List.getElem?_eq_none (by rw [length_inward]; omega), List.getElem?_eq_none (by omega)]

theorem mem_values_replace {args : CallArgs} {source : Source} {v u : Value}
    (hu : u ∈ (args.replace v source).values) : u = v ∨ u ∈ args.values := by
  obtain ⟨source', hgiven⟩ := CallArgs.mem_values_iff.mp hu
  rw [CallArgs.given?_replace] at hgiven
  split at hgiven
  · obtain ⟨_, -, rfl⟩ := Option.map_eq_some_iff.mp hgiven
    exact Or.inl rfl
  · exact Or.inr (CallArgs.mem_values_iff.mpr ⟨source', hgiven⟩)

/-- Boxes that are behind the ones of the caller stay as they are while arguments are written back, and nothing else
depends on them. -/
theorem writeBack_append (args : CallArgs) (lefts : List Left) {cells : Cells} (extra : Cells)
    (hclosed : cells.Closed) (hargs : ∀ v ∈ args.values, v.Below cells.size)
    (hlefts : ∀ left ∈ lefts, left.2.2.Below cells.size) :
    writeBack (cells ++ extra) args lefts =
        ((writeBack cells args lefts).1 ++ extra, (writeBack cells args lefts).2) ∧
      (writeBack cells args lefts).1.size = cells.size ∧
      (writeBack cells args lefts).1.Closed ∧
      ∀ v ∈ (writeBack cells args lefts).2.values, v.Below cells.size := by
  induction lefts generalizing args cells with
  | nil => exact ⟨rfl, rfl, hclosed, hargs⟩
  | cons left rest ih =>
      obtain ⟨p, source, v⟩ := left
      obtain ⟨hv, hrest⟩ := List.forall_mem_cons.mp hlefts
      have hreplaced : ∀ u ∈ (args.replace v source).values, u.Below cells.size := by
        intro u hu
        rcases mem_values_replace hu with rfl | hu
        · exact hv
        · exact hargs u hu
      simp only [writeBack]
      split
      · split
        · rename_i b hgiven
          have hb : b < cells.size := hargs (.box b) (CallArgs.mem_values_iff.mpr ⟨source, hgiven⟩) b (by simp)
          have hsize : (cells.setIfInBounds b v).size = cells.size := Array.size_setIfInBounds
          -- The written box lies below the extra ones, which therefore stay.
          rw [Array.setIfInBounds_append_left hb, ← hsize]
          exact ih _ (hclosed.setIfInBounds b hv) (by rwa [hsize]) (by rwa [hsize])
        · exact ih _ hclosed hreplaced hrest
        · exact ih _ hclosed hreplaced hrest
        · exact ih _ hclosed hargs hrest
      · exact ih _ hclosed hargs hrest

end Delivery

end ObjectBridge
