import ObjectBridge.Proofs.Call.Selection
import ObjectBridge.Proofs.Value.Parts

/-!
# Converted values

A converted value consists of parts of the value itself, of what is in the boxes that it names, and of
values without handles.  So conversion, and with it the binding of arguments to parameters, covers no
more than the given values and the defaults of the parameters do.

* `Cells.Carried.convert` — what values hand on to what they are converted to.
* `covers_convert` — a converted value is covered with the value.
* `covers_bind` and `covers_pick` — the values of the parameters are covered with the arguments and the
  defaults.
* `Cells.Carried.apply` — what operands hand on to the result of an operation on values.
-/

namespace ObjectBridge

namespace Conversion

/-! ## Boxes -/

theorem behind_of_box?_eq_none {cells : Cells} {depth : Nat} (hbox : v.box? = none) :
    behind cells depth v = v := by
  cases depth with
  | zero => rfl
  | succ depth => cases v <;> first | rfl | cases hbox

/-- What comes through boxes is nil where nil may pass, or the zero of the type, or it is converted from what is
behind them. -/
theorem throughBoxes_cases {w : World} {type : Ty} {passing : Passing} {v u : Value} {cost : Nat}
    {f : Value → Except Refusal Converted} (h : throughBoxes w type passing v f = .ok (u, cost)) :
    (passing.isNullable = true ∧ u = .nil) ∨ (type.isObject = false ∧ u = type.zero) ∨
      f (behind w.cells (w.cells.size + 1) v) = .ok (u, cost) := by
  unfold throughBoxes at h
  simp only at h
  split at h
  · unfold fromNil at h
    split at h
    · rename_i hnull
      exact Or.inl ⟨hnull, (Prod.mk.inj (Except.ok.inj h)).1.symm⟩
    · split at h
      · rename_i hboxed
        refine Or.inr (Or.inl ⟨?_, (Prod.mk.inj (Except.ok.inj h)).1.symm⟩)
        simpa using (Bool.and_eq_true_iff.mp hboxed).2
      · cases h
  · exact Or.inr (Or.inr h)

/-- A converted object is the object itself. -/
theorem eq_object_of_toObject {w : World} {cls : String} {passing : Passing} {h : Handle} {u : Value}
    {cost : Nat} (hconv : toObject w cls passing h = .ok (u, cost)) : u = .object h := by
  unfold toObject at hconv
  split at hconv
  · cases hconv
  · split at hconv
    · cases hconv
    · split at hconv
      · split at hconv
        · cases hconv
        · exact (Prod.mk.inj (Except.ok.inj hconv)).1.symm
      · cases hconv

/-! ## Items and entries -/

theorem exists_of_mem_items? {item : Value → Except Refusal Converted} {vs us : List Value}
    {cost : Nat} (h : items? item vs = some (us, cost)) {u : Value} (hu : u ∈ us) :
    ∃ v ∈ vs, ∃ cost, item v = .ok (u, cost) := by
  induction vs generalizing us cost with
  | nil =>
      simp only [items?, Option.some.injEq, Prod.mk.injEq] at h
      rw [← h.1] at hu
      cases hu
  | cons v rest ih =>
      rw [items?] at h
      cases hv : item v with
      | error e => simp [hv] at h
      | ok converted =>
          obtain ⟨first, costU⟩ := converted
          simp only [hv, Option.map_eq_some_iff] at h
          obtain ⟨⟨us', costs⟩, hrest, heq⟩ := h
          rw [← (Prod.mk.inj heq).1] at hu
          rcases List.mem_cons.mp hu with rfl | hu
          · exact ⟨v, List.mem_cons_self, costU, hv⟩
          · obtain ⟨x, hx, hconv⟩ := ih hrest hu
            exact ⟨x, List.mem_cons_of_mem _ hx, hconv⟩

theorem exists_of_mem_entries? {key value : Value → Except Refusal Converted}
    {es us : List (Value × Value)} {cost : Nat} (h : entries? key value es = some (us, cost))
    {u : Value × Value} (hu : u ∈ us) :
    ∃ e ∈ es, (∃ cost, key e.1 = .ok (u.1, cost)) ∧ ∃ cost, value e.2 = .ok (u.2, cost) := by
  induction es generalizing us cost with
  | nil =>
      simp only [entries?, Option.some.injEq, Prod.mk.injEq] at h
      rw [← h.1] at hu
      cases hu
  | cons e rest ih =>
      rw [entries?] at h
      split at h
      · rename_i k ck v cv hk hv
        simp only [Option.map_eq_some_iff] at h
        obtain ⟨⟨us', costs⟩, hrest, heq⟩ := h
        rw [← (Prod.mk.inj heq).1] at hu
        rcases List.mem_cons.mp hu with rfl | hu
        · exact ⟨e, List.mem_cons_self, ⟨ck, hk⟩, cv, hv⟩
        · obtain ⟨x, hx, hconv⟩ := ih hrest hu
          exact ⟨x, List.mem_cons_of_mem _ hx, hconv⟩
      · cases h

end Conversion

namespace Cells

variable {cells : Cells} {values : List Value} {P : Value → Prop}

/-! ## Conversion -/

/-- A property that values hand on to what they are converted to: values that mention nothing have it, collections
have it with their parts, and the content of a box has it with the box. -/
structure Carried (cells : Cells) (P : Value → Prop) : Prop where
  plain : ∀ {v : Value}, v.IsPlain → P v
  list_iff : ∀ {items : List Value}, P (.list items) ↔ ∀ v ∈ items, P v
  map_iff : ∀ {entries : List (Value × Value)}, P (.map entries) ↔ ∀ e ∈ entries, P e.1 ∧ P e.2
  content : ∀ {b : BoxId}, P (.box b) → P (cells.content b)

theorem carried_covers (cells : Cells) (values : List Value) : cells.Carried (cells.Covers values) :=
  ⟨covers_of_isPlain, covers_list_iff, covers_map_iff, Covers.content⟩

theorem Carried.behind (hP : cells.Carried P) {v : Value} (hv : P v) (depth : Nat) :
    P (Conversion.behind cells depth v) := by
  induction depth generalizing v with
  | zero => exact hv
  | succ depth ih =>
      cases v with
      | box b => exact ih (hP.content hv)
      | _ => exact hv

theorem isPlain_wrap (type : IntegerType) (n : Int) : (type.wrap n).IsPlain := by
  unfold IntegerType.wrap
  simp only
  split <;> exact ⟨rfl, rfl⟩

theorem isPlain_zero (type : Ty) : type.zero.IsPlain := by
  cases type with
  | int t => exact isPlain_wrap t 0
  | _ => exact ⟨rfl, rfl⟩

/-- Converting what is behind boxes. -/
theorem Carried.throughBoxes {w : World} (hP : w.cells.Carried P) {type : Ty} {passing : Passing} {v u : Value}
    {cost : Nat} {exact' : Value → Except Refusal Converted}
    (h : Conversion.throughBoxes w type passing v exact' = .ok (u, cost))
    (hexact : exact' (Conversion.behind w.cells (w.cells.size + 1) v) = .ok (u, cost) → P u) : P u := by
  rcases Conversion.throughBoxes_cases h with ⟨-, rfl⟩ | ⟨-, rfl⟩ | hcontent
  · exact hP.plain ⟨rfl, rfl⟩
  · exact hP.plain (isPlain_zero type)
  · exact hexact hcontent

theorem orMismatch_eq_ok_iff {type : Ty} {v : Value} {converted : Option Converted}
    {result : Converted} :
    Conversion.orMismatch type v converted = .ok result ↔ converted = some result := by
  cases converted <;> simp [Conversion.orMismatch]

theorem isPlain_of_scalar? {type : Ty} {v u : Value} {cost : Nat}
    (h : Conversion.scalar? type v = some (u, cost)) : u.IsPlain := by
  cases type with
  | int t =>
      simp only [Conversion.scalar?, Option.map_eq_some_iff, Prod.mk.injEq] at h
      obtain ⟨⟨n, _⟩, -, rfl, -⟩ := h
      exact isPlain_wrap t n
  | list item => simp [Conversion.scalar?] at h
  | map key value => simp [Conversion.scalar?] at h
  | object cls => simp [Conversion.scalar?] at h
  | any => simp [Conversion.scalar?] at h
  | _ =>
      simp only [Conversion.scalar?, Option.map_eq_some_iff, Prod.mk.injEq] at h
      obtain ⟨x, -, rfl, -⟩ := h
      exact ⟨rfl, rfl⟩

/-- What is behind a value hands a property on to what the value is converted to; a type that admits everything
takes the value itself. -/
theorem Carried.convert_of_behind {w : World} (hP : w.cells.Carried P) {type : Ty} {passing : Passing}
    {v u : Value} {cost : Nat} (h : Conversion.convert w type passing v = .ok (u, cost))
    (hself : type = .any → P v) (hbehind : P (Conversion.behind w.cells (w.cells.size + 1) v)) : P u := by
  -- Only `any` delivers the value itself; every other type delivers what is behind its boxes.
  induction type generalizing passing v u cost with
  | any =>
      rw [Conversion.convert] at h
      rw [← (Prod.mk.inj (Except.ok.inj h)).1]
      exact hself rfl
  | list item ih =>
      rw [Conversion.convert] at h
      refine hP.throughBoxes h fun hexact => ?_
      rw [orMismatch_eq_ok_iff] at hexact
      cases hcontent : Conversion.behind w.cells (w.cells.size + 1) v with
      | list items =>
          rw [hcontent] at hexact hbehind
          obtain ⟨_, ⟨⟩, hexact⟩ := Option.bind_eq_some_iff.mp hexact
          obtain ⟨⟨us, costs⟩, hitems, heq⟩ := Option.bind_eq_some_iff.mp hexact
          simp only [Option.pure_def, Option.some.injEq, Prod.mk.injEq] at heq
          rw [← heq.1, hP.list_iff]
          intro y hy
          obtain ⟨x, hx, c, hconv⟩ := Conversion.exists_of_mem_items? hitems hy
          have hitem := hP.list_iff.mp hbehind x hx
          exact ih hconv (fun _ => hitem) (hP.behind hitem _)
      | _ =>
          rw [hcontent] at hexact
          cases hexact
  | map key value ihKey ihValue =>
      rw [Conversion.convert] at h
      refine hP.throughBoxes h fun hexact => ?_
      rw [orMismatch_eq_ok_iff] at hexact
      cases hcontent : Conversion.behind w.cells (w.cells.size + 1) v with
      | map entries =>
          rw [hcontent] at hexact hbehind
          obtain ⟨_, ⟨⟩, hexact⟩ := Option.bind_eq_some_iff.mp hexact
          obtain ⟨⟨us, costs⟩, hentries, heq⟩ := Option.bind_eq_some_iff.mp hexact
          simp only [Option.pure_def, Option.some.injEq, Prod.mk.injEq] at heq
          rw [← heq.1, hP.map_iff]
          refine ValueMap.forall_ofEntries fun y hy => ?_
          obtain ⟨e, he, ⟨ck, hk⟩, cv, hv⟩ := Conversion.exists_of_mem_entries? hentries hy
          obtain ⟨hkey, hvalue⟩ := hP.map_iff.mp hbehind e he
          exact ⟨ihKey hk (fun _ => hkey) (hP.behind hkey _), ihValue hv (fun _ => hvalue) (hP.behind hvalue _)⟩
      | _ =>
          rw [hcontent] at hexact
          cases hexact
  | object cls =>
      rw [Conversion.convert] at h
      refine hP.throughBoxes h fun hexact => ?_
      cases hcontent : Conversion.behind w.cells (w.cells.size + 1) v with
      | object k =>
          rw [hcontent] at hexact hbehind
          rw [Conversion.eq_object_of_toObject hexact]
          exact hbehind
      | _ =>
          rw [hcontent] at hexact
          cases hexact
  | _ =>
      rw [Conversion.convert] at h
      · refine hP.throughBoxes h fun hexact => ?_
        exact hP.plain (isPlain_of_scalar? (orMismatch_eq_ok_iff.mp hexact))
      all_goals simp

theorem Carried.convert {w : World} (hP : w.cells.Carried P) {type : Ty} {passing : Passing} {v u : Value}
    {cost : Nat} (h : Conversion.convert w type passing v = .ok (u, cost)) (hv : P v) : P u :=
  hP.convert_of_behind h (fun _ => hv) (hP.behind hv _)

/-- A converted value is covered with the value. -/
theorem covers_convert {w : World} (hcells : w.cells = cells) {type : Ty} {passing : Passing}
    {v u : Value} {cost : Nat} (h : Conversion.convert w type passing v = .ok (u, cost))
    (hv : cells.Covers values v) : cells.Covers values u := by
  subst hcells
  exact (carried_covers w.cells values).convert h hv

/-! ## Binding of arguments -/

theorem covers_raw {args : CallArgs} {p : Param} {source : Source}
    (hargs : ∀ v ∈ args.values, cells.Covers values v)
    (hdefault : ∀ v, p.default? = some v → cells.Covers values v) :
    cells.Covers values (args.raw p source) := by
  cases source with
  | default =>
      rw [CallArgs.raw]
      cases hp : p.default? with
      | none => exact covers_of_isPlain ⟨rfl, rfl⟩
      | some v => exact hdefault v hp
  | positional i =>
      show cells.Covers values (args.positional[i]?.getD .nil)
      cases hi : args.positional[i]? with
      | none => exact covers_of_isPlain ⟨rfl, rfl⟩
      | some v => exact hargs v (List.mem_append_left _ (List.mem_of_getElem? hi))
  | keyword i =>
      show cells.Covers values ((args.keywords[i]?.map Prod.snd).getD .nil)
      cases hi : args.keywords[i]? with
      | none => exact covers_of_isPlain ⟨rfl, rfl⟩
      | some entry =>
          exact hargs entry.2
            (List.mem_append_right _ (List.mem_map_of_mem (List.mem_of_getElem? hi)))

theorem covers_convertAll {w : World} (hcells : w.cells = cells) {args : CallArgs}
    (hargs : ∀ v ∈ args.values, cells.Covers values v) {bound : List (Param × Source)}
    (hdefaults : ∀ e ∈ bound, ∀ v, e.1.default? = some v → cells.Covers values v) {position : Nat}
    {b : Bound} (h : args.convertAll w position bound = .bound b) :
    ∀ v ∈ b.values, cells.Covers values v := by
  induction bound generalizing position b with
  | nil =>
      simp only [CallArgs.convertAll, Outcome.bound.injEq] at h
      rw [← h]
      simp
  | cons e rest ih =>
      obtain ⟨p, source⟩ := e
      rw [CallArgs.convertAll] at h
      split at h
      · cases h
      · cases h
      · cases h
      · rename_i u cost hconv
        split at h
        · rename_i b' hrest
          simp only [Outcome.bound.injEq] at h
          rw [← h]
          intro v hv
          rcases List.mem_cons.mp hv with rfl | hv
          · exact covers_convert hcells hconv (covers_raw hargs (hdefaults (p, source) (by simp)))
          · exact ih (fun e he => hdefaults e (by simp [he])) hrest v hv
        · rename_i hother
          exact absurd h (hother b)

/-- The values of the parameters are covered with the arguments and the defaults. -/
theorem covers_bind {w : World} (hcells : w.cells = cells) {args : CallArgs}
    (hargs : ∀ v ∈ args.values, cells.Covers values v) {params : List Param}
    (hdefaults : ∀ p ∈ params, ∀ v, p.default? = some v → cells.Covers values v) {b : Bound}
    (h : args.bind w params = .bound b) : ∀ v ∈ b.values, cells.Covers values v := by
  unfold CallArgs.bind at h
  split at h
  · cases h
  · refine covers_convertAll hcells hargs ?_ h
    intro e he
    exact hdefaults e.1 (List.of_mem_zip he).1

theorem covers_select {w : World} (hcells : w.cells = cells) {owner method : String}
    {args : CallArgs} (hargs : ∀ v ∈ args.values, cells.Covers values v) {sigs : List Signature}
    (hdefaults : ∀ sig ∈ sigs, ∀ p ∈ sig.params, ∀ v, p.default? = some v →
      cells.Covers values v)
    {binding : Binding} (h : Selection.select w owner method sigs args = .ok binding) :
    ∀ v ∈ binding.values, cells.Covers values v := by
  obtain ⟨sig, b, hsig, hb, hvalues, -⟩ := Selection.bind_of_select h
  rw [hvalues]
  exact covers_bind hcells hargs (hdefaults sig (List.mem_of_getElem? hsig)) hb

/-- The values for the overload that is picked are covered with the arguments and the defaults, and the
overload is one of the candidates. -/
theorem covers_pick {w : World} (hcells : w.cells = cells) {owner method : String}
    {args : CallArgs} (hargs : ∀ v ∈ args.values, cells.Covers values v)
    {overloads : List Overload}
    (hdefaults : ∀ o ∈ overloads, ∀ v ∈ o.defaults, cells.Covers values v) {o : Overload}
    {binding : Binding} (h : Selection.pick w owner method overloads args = .ok (o, binding)) :
    ∀ v ∈ binding.values, cells.Covers values v := by
  obtain ⟨selected, hsel, hpicked⟩ := bind_eq_ok_iff.mp h
  split at hpicked
  · simp only [pure, Except.pure, Except.ok.injEq, Prod.mk.injEq] at hpicked
    rw [← hpicked.2]
    refine covers_select hcells hargs ?_ hsel
    intro sig hsig p hp v hv
    obtain ⟨o', ho', rfl⟩ := List.mem_map.mp hsig
    exact hdefaults o' ho' v (List.mem_filterMap.mpr ⟨p, hp, hv⟩)
  · cases hpicked

/-! ## Operations on values -/

theorem Carried.keep (hP : cells.Carried P) {w : World} {op : Script.Primitive} {v u : Value}
    (h : Script.Primitive.keep w op v = .ok u) (hv : P v) : P u := by
  unfold Script.Primitive.keep at h
  split at h
  · obtain rfl := Except.ok.inj h
    exact hP.plain ⟨rfl, rfl⟩
  · obtain rfl := Except.ok.inj h
    exact hP.plain ⟨rfl, rfl⟩
  · obtain rfl := Except.ok.inj h
    exact hv

/-- A value is made by a computation that may fail. -/
theorem holds_of_bind {α : Type} {r : Except Error α} {f : α → Except Error Value} {u : Value}
    (h : (r >>= f) = .ok u) (hf : ∀ x, r = .ok x → f x = .ok u → P u) : P u := by
  obtain ⟨x, hx, hu⟩ := bind_eq_ok_iff.mp h
  exact hf x hx hu

theorem Carried.apply (hP : cells.Carried P) {w : World} {op : Script.Primitive} {operands : List Value} {u : Value}
    (h : Script.Primitive.apply w op operands = .ok u) (hoperands : ∀ v ∈ operands, P v) : P u := by
  have hplain {v : Value} (hv : v.IsPlain) (heq : Except.ok (ε := Error) v = .ok u) : P u := by
    rw [← Except.ok.inj heq]
    exact hP.plain hv
  unfold Script.Primitive.apply at h
  split at h
  · exact holds_of_bind h fun x _ h => holds_of_bind h fun y _ h => hplain ⟨rfl, rfl⟩ h
  · exact holds_of_bind h fun x _ h => holds_of_bind h fun y _ h => hplain ⟨rfl, rfl⟩ h
  · exact hplain ⟨rfl, rfl⟩ h
  · exact hplain ⟨rfl, rfl⟩ h
  · exact hplain ⟨rfl, rfl⟩ h
  · exact hplain ⟨rfl, rfl⟩ h
  · rename_i a b
    -- An item is appended to a list.
    refine holds_of_bind h fun items hitems heq => ?_
    obtain rfl := Except.ok.inj heq
    have hlist := hoperands a (by simp)
    rw [Value.eq_list_of_asList hitems, hP.list_iff] at hlist
    rw [hP.list_iff]
    intro v hv
    rcases List.mem_append.mp hv with hv | hv
    · exact hlist v hv
    · rw [List.mem_singleton.mp hv]
      exact hoperands b (by simp)
  · rename_i a k v
    -- An entry is put into a map.
    refine holds_of_bind h fun m hm heq => ?_
    obtain rfl := Except.ok.inj heq
    have hmap := hoperands a (by simp)
    rw [Value.eq_map_of_asMap hm, hP.map_iff] at hmap
    exact hP.map_iff.mpr (ValueMap.forall_insert (hoperands k (by simp)) (hoperands v (by simp)) hmap)
  · exact holds_of_bind h fun x _ h => hplain ⟨rfl, rfl⟩ h
  · exact holds_of_bind h fun x _ h => holds_of_bind h fun y _ h => hplain ⟨rfl, rfl⟩ h
  · exact holds_of_bind h fun x _ h => hplain ⟨rfl, rfl⟩ h
  · split at h
    · exact hplain ⟨rfl, rfl⟩ h
    · rename_i a _
      obtain ⟨k, -, hk⟩ := map_eq_ok_iff.mp h
      exact hplain ⟨rfl, rfl⟩ (congrArg Except.ok hk)
  · cases h

end Cells

end ObjectBridge
