import ObjectBridge.Proofs.Value.Conversion
import ObjectBridge.Proofs.Value.Payload

/-!
# Values of a declared type

A value is of a declared type if its conversion gives the value itself.  What conversion gives is of the type, so to
convert twice is to convert once.

* `Conversion.Conforms` and `conforms_of_convert` — converted values are of the type.
* `Conversion.conforms_of_convert_value` — and also for any other kind of passing, if nil does not pass.
-/

namespace ObjectBridge

namespace ValueMap

variable {same : Value → Value → Bool}

/-- The key of an entry differs from the keys of all later ones. -/
def Distinct (same : Value → Value → Bool) (m : ValueMap) : Prop :=
  m.Pairwise fun a b => same a.1 b.1 = false

theorem Distinct.insert {m : ValueMap} (h : Distinct same m) (key value : Value) :
    Distinct same (insert same key value m) := by
  induction m with
  | nil => exact List.pairwise_singleton _ _
  | cons first rest ih =>
      obtain ⟨hfirst, hrest⟩ := List.pairwise_cons.mp h
      rw [ValueMap.insert]
      split
      · exact List.pairwise_cons.mpr ⟨hfirst, hrest⟩
      · rename_i hother
        refine List.pairwise_cons.mpr ⟨fun e he => ?_, ih hrest⟩
        exact (forall_insert (P := fun k => same first.1 k = false) (Q := fun _ => True)
          (Bool.eq_false_iff.mpr hother) trivial (fun e he => ⟨hfirst e he, trivial⟩) e he).1

theorem distinct_ofEntries (same : Value → Value → Bool) (entries : List (Value × Value)) :
    Distinct same (ofEntries same entries) := by
  have hfold (m : ValueMap) (hm : Distinct same m) :
      Distinct same (entries.foldl (fun m entry => insert same entry.1 entry.2 m) m) := by
    induction entries generalizing m with
    | nil => exact hm
    | cons e rest ih => exact ih _ (hm.insert e.1 e.2)
  exact hfold [] List.Pairwise.nil

theorem insert_eq_append {key value : Value} {m : ValueMap}
    (h : ∀ e ∈ m, same e.1 key = false) : insert same key value m = m ++ [(key, value)] := by
  induction m with
  | nil => rfl
  | cons first rest ih =>
      rw [insert, if_neg (by rw [h first List.mem_cons_self]; exact Bool.false_ne_true),
        ih fun e he => h e (List.mem_cons_of_mem _ he)]
      rfl

/-- Entries with keys of their own make up a map as they are. -/
theorem Distinct.ofEntries_eq {m : ValueMap} (h : Distinct same m) : ofEntries same m = m := by
  have hfold (before : ValueMap) (hm : Distinct same (before ++ m)) :
      m.foldl (fun m entry => ValueMap.insert same entry.1 entry.2 m) before = before ++ m := by
    clear h
    induction m generalizing before with
    | nil => exact (List.append_nil _).symm
    | cons e rest ih =>
        have hnew : ∀ b ∈ before, same b.1 e.1 = false := fun b hb =>
          (List.pairwise_append.mp hm).2.2 b hb e List.mem_cons_self
        rw [List.foldl_cons, insert_eq_append hnew, ih _ (by rwa [List.append_assoc]),
          List.append_assoc]
        rfl
  exact hfold [] h

theorem insert_congr {same' : Value → Value → Bool} {key value : Value} {m : ValueMap}
    (h : ∀ e ∈ m, same e.1 key = same' e.1 key) : insert same key value m = insert same' key value m := by
  induction m with
  | nil => rfl
  | cons first rest ih =>
      obtain ⟨hfirst, hrest⟩ := List.forall_mem_cons.mp h
      rw [insert, insert, hfirst, ih hrest]

/-- Entries make up the same map if their keys are compared in the same way. -/
theorem ofEntries_congr {same' : Value → Value → Bool} {P : Value → Prop} {entries : List (Value × Value)}
    (hkeys : ∀ e ∈ entries, P e.1) (h : ∀ k u, P k → P u → same k u = same' k u) :
    ofEntries same entries = ofEntries same' entries := by
  have hfold (m : ValueMap) (hm : ∀ e ∈ m, P e.1 ∧ True) :
      entries.foldl (fun m entry => insert same entry.1 entry.2 m) m =
        entries.foldl (fun m entry => insert same' entry.1 entry.2 m) m := by
    induction entries generalizing m with
    | nil => rfl
    | cons e rest ih =>
        obtain ⟨he, hrest⟩ := List.forall_mem_cons.mp hkeys
        rw [List.foldl_cons, List.foldl_cons, insert_congr fun x hx => h x.1 e.1 (hm x hx).1 he]
        exact ih hrest _ (forall_insert (Q := fun _ => True) he trivial hm)
  exact hfold [] (by simp)

end ValueMap

namespace Conversion

variable {w : World} {type : Ty} {passing : Passing} {u v : Value} {cost : Nat}

/-- A value is of a declared type, for a kind of passing: it is converted to itself. -/
def Conforms (w : World) (type : Ty) (passing : Passing) (v : Value) : Prop :=
  ∃ cost, convert w type passing v = .ok (v, cost)

/-! ## Boxes and nil -/

/-- A value is neither nil nor a box, and a way of converting such values gives the value itself. -/
structure Keeps (f : Value → Except Refusal Converted) (v : Value) : Prop where
  box?_eq : v.box? = none
  isNil_eq : v.isNil = false
  exists_cost : ∃ cost, f v = .ok (v, cost)

variable {f : Value → Except Refusal Converted}

theorem Keeps.throughBoxes (hkeeps : Keeps f v) (w : World) (type : Ty) (passing : Passing) :
    ∃ cost, throughBoxes w type passing v f = .ok (v, cost) := by
  unfold Conversion.throughBoxes
  simp only [behind_of_box?_eq_none hkeeps.box?_eq, hkeeps.isNil_eq, Bool.false_eq_true, if_false]
  exact hkeeps.exists_cost

/-- What comes through boxes is kept by the way of converting that keeps its own results, or it is nil where nil may
pass. -/
theorem keeps_of_throughBoxes (hf : ∀ content u cost, f content = .ok (u, cost) → Keeps f u)
    (hzero : type.isObject = false → Keeps f type.zero)
    (h : throughBoxes w type passing v f = .ok (u, cost)) :
    (passing.isNullable = true ∧ u = .nil) ∨ Keeps f u := by
  rcases throughBoxes_cases h with hnil | ⟨hobject, rfl⟩ | hcontent
  · exact Or.inl hnil
  · exact Or.inr (hzero hobject)
  · exact Or.inr (hf _ u cost hcontent)

theorem convert_nil (w : World) (type : Ty) (hnull : passing.isNullable = true) :
    convert w type passing .nil = .ok (.nil, 0) := by
  have hthrough (f : Value → Except Refusal Converted) :
      throughBoxes w type passing .nil f = .ok (.nil, 0) := by
    rw [Conversion.throughBoxes, behind_of_box?_eq_none rfl]
    simp [Value.isNil, fromNil, hnull]
  cases type <;> first | rfl | exact hthrough _

/-! ## Single values -/

theorem keeps_of_scalar? {content : Value} (h : scalar? type content = some (u, cost)) :
    u.box? = none ∧ u.isNil = false ∧ ∃ c, scalar? type u = some (u, c) := by
  cases type with
  | int t =>
      obtain ⟨⟨n, c⟩, -, heq⟩ := Option.map_eq_some_iff.mp h
      obtain ⟨rfl, rfl⟩ := Prod.mk.inj heq
      refine ⟨?_, ?_, 0, ?_⟩
      · rw [IntegerType.wrap_eq]
        split <;> rfl
      · rw [IntegerType.wrap_eq]
        split <;> rfl
      · -- A wrapped number lies in the range, so it is read back as it is.
        rw [scalar?, toInteger?_wrap]
        exact congrArg (fun x => some (x, 0)) (t.wrap_reduce n)
  | enum t =>
      obtain ⟨⟨n, c⟩, -, heq⟩ := Option.map_eq_some_iff.mp h
      obtain ⟨rfl, rfl⟩ := Prod.mk.inj heq
      refine ⟨rfl, rfl, 0, ?_⟩
      simp [scalar?, toPayload?, EnumValue.ofPayload, IntegerType.truncate_truncate]
  | flags t =>
      obtain ⟨⟨n, c⟩, -, heq⟩ := Option.map_eq_some_iff.mp h
      obtain ⟨rfl, rfl⟩ := Prod.mk.inj heq
      refine ⟨rfl, rfl, 0, ?_⟩
      simp [scalar?, toBits?, FlagSet.ofBits, IntegerType.truncate_truncate]
  | bool =>
      obtain ⟨b, -, heq⟩ := Option.map_eq_some_iff.mp h
      obtain ⟨rfl, rfl⟩ := Prod.mk.inj heq
      exact ⟨rfl, rfl, 0, rfl⟩
  | double =>
      obtain ⟨⟨x, c⟩, -, heq⟩ := Option.map_eq_some_iff.mp h
      obtain ⟨rfl, rfl⟩ := Prod.mk.inj heq
      exact ⟨rfl, rfl, 0, rfl⟩
  | text =>
      obtain ⟨⟨x, c⟩, -, heq⟩ := Option.map_eq_some_iff.mp h
      obtain ⟨rfl, rfl⟩ := Prod.mk.inj heq
      exact ⟨rfl, rfl, 0, rfl⟩
  | bytes =>
      obtain ⟨⟨x, c⟩, -, heq⟩ := Option.map_eq_some_iff.mp h
      obtain ⟨rfl, rfl⟩ := Prod.mk.inj heq
      exact ⟨rfl, rfl, 0, rfl⟩
  | _ => cases h

/-- The types of values without parts. -/
def isScalar : Ty → Bool
  | .list _ | .map _ _ | .object _ | .any => false
  | _ => true

/-- How a single value is converted that is neither nil nor a box. -/
def toScalar (type : Ty) (content : Value) : Except Refusal Converted :=
  orMismatch type content (scalar? type content)

theorem convert_scalar (hscalar : isScalar type = true) (w : World) (passing : Passing) (v : Value) :
    convert w type passing v = throughBoxes w type passing v (toScalar type) := by
  cases type with
  | list item => cases hscalar
  | map key value => cases hscalar
  | object cls => cases hscalar
  | any => cases hscalar
  | _ =>
      rw [convert]
      · rfl
      all_goals simp

theorem keeps_toScalar {content : Value} (h : toScalar type content = .ok (u, cost)) :
    Keeps (toScalar type) u := by
  obtain ⟨hbox, hnil, c, hc⟩ := keeps_of_scalar? (Cells.orMismatch_eq_ok_iff.mp h)
  exact ⟨hbox, hnil, c, Cells.orMismatch_eq_ok_iff.mpr hc⟩

theorem keeps_zero (hscalar : isScalar type = true) : Keeps (toScalar type) type.zero := by
  cases type with
  | bool => exact ⟨rfl, rfl, 0, rfl⟩
  | int t =>
      have hzero : toScalar (.int t) (.int 0) = .ok (t.wrap 0, 0) := rfl
      exact keeps_toScalar hzero
  | double => exact ⟨rfl, rfl, 0, rfl⟩
  | text => exact ⟨rfl, rfl, 0, rfl⟩
  | bytes => exact ⟨rfl, rfl, 0, rfl⟩
  | enum t =>
      have hzero : toScalar (.enum t) (.int 0) = .ok (.enum (.ofPayload t 0), 1) := rfl
      exact keeps_toScalar hzero
  | flags t =>
      have hzero : toScalar (.flags t) (.int 0) = .ok (.flags (.ofBits t 0), 1) := rfl
      exact keeps_toScalar hzero
  | _ => cases hscalar

/-! ## Lists and maps -/

/-- How a list is converted that is not in a box. -/
def toList (w : World) (item : Ty) (content : Value) : Except Refusal Converted :=
  orMismatch (.list item) content do
    let (vs, cost) ← items? (convert w item .value) (← content.list?)
    return (.list vs, cost)

theorem toList_of_list?_eq_none {content : Value} (h : content.list? = none) (w : World) (item : Ty) :
    toList w item content = orMismatch (.list item) content none := by
  rw [toList, h]
  rfl

theorem convert_list (w : World) (item : Ty) (passing : Passing) (v : Value) :
    convert w (.list item) passing v = throughBoxes w (.list item) passing v (toList w item) := by
  rw [convert]
  rfl

theorem exists_items? {convertItem : Value → Except Refusal Converted} {vs : List Value}
    (h : ∀ v ∈ vs, ∃ cost, convertItem v = .ok (v, cost)) :
    ∃ cost, items? convertItem vs = some (vs, cost) := by
  induction vs with
  | nil => exact ⟨0, rfl⟩
  | cons v rest ih =>
      obtain ⟨⟨cost, hv⟩, hrest⟩ := List.forall_mem_cons.mp h
      obtain ⟨costs, hitems⟩ := ih hrest
      exact ⟨max cost costs, by rw [items?, hv, hitems]; rfl⟩

theorem keeps_list {item : Ty} {vs : List Value} (h : ∀ v ∈ vs, Conforms w item .value v) :
    Keeps (toList w item) (.list vs) := by
  obtain ⟨cost, hitems⟩ := exists_items? h
  refine ⟨rfl, rfl, cost, Cells.orMismatch_eq_ok_iff.mpr ?_⟩
  simp [Value.list?, hitems]

theorem exists_of_toList {item : Ty} {content : Value} (h : toList w item content = .ok (u, cost)) :
    ∃ vs, u = .list vs ∧ ∀ v ∈ vs, ∃ raw cost, convert w item .value raw = .ok (v, cost) := by
  obtain ⟨items, -, hrest⟩ := Option.bind_eq_some_iff.mp (Cells.orMismatch_eq_ok_iff.mp h)
  obtain ⟨⟨vs, c⟩, hitems, hpure⟩ := Option.bind_eq_some_iff.mp hrest
  refine ⟨vs, (Prod.mk.inj (Option.some.inj hpure)).1.symm, fun v hv => ?_⟩
  obtain ⟨raw, -, hraw⟩ := exists_of_mem_items? hitems hv
  exact ⟨raw, hraw⟩

/-- How a map is converted that is not in a box. -/
def toMap (w : World) (key value : Ty) (content : Value) : Except Refusal Converted :=
  orMismatch (.map key value) content do
    let (kvs, cost) ← entries? (convert w key .value) (convert w value .value) (← content.map?)
    return (.map (ValueMap.ofEntries w.eqv kvs), cost)

theorem toMap_of_map?_eq_none {content : Value} (h : content.map? = none) (w : World) (key value : Ty) :
    toMap w key value content = orMismatch (.map key value) content none := by
  rw [toMap, h]
  rfl

theorem convert_map (w : World) (key value : Ty) (passing : Passing) (v : Value) :
    convert w (.map key value) passing v =
      throughBoxes w (.map key value) passing v (toMap w key value) := by
  rw [convert]
  rfl

theorem exists_entries? {convertKey convertValue : Value → Except Refusal Converted}
    {es : List (Value × Value)}
    (h : ∀ e ∈ es, (∃ cost, convertKey e.1 = .ok (e.1, cost)) ∧
      ∃ cost, convertValue e.2 = .ok (e.2, cost)) :
    ∃ cost, entries? convertKey convertValue es = some (es, cost) := by
  induction es with
  | nil => exact ⟨0, rfl⟩
  | cons e rest ih =>
      obtain ⟨⟨⟨costK, hk⟩, costV, hv⟩, hrest⟩ := List.forall_mem_cons.mp h
      obtain ⟨costs, hentries⟩ := ih hrest
      exact ⟨max (max costK costV) costs, by rw [entries?, hk, hv, hentries]; rfl⟩

theorem keeps_map {key value : Ty} {m : ValueMap}
    (hdistinct : ValueMap.Distinct w.eqv m)
    (h : ∀ e ∈ m, Conforms w key .value e.1 ∧ Conforms w value .value e.2) :
    Keeps (toMap w key value) (.map m) := by
  obtain ⟨cost, hentries⟩ := exists_entries? h
  refine ⟨rfl, rfl, cost, Cells.orMismatch_eq_ok_iff.mpr ?_⟩
  simp [Value.map?, hentries, hdistinct.ofEntries_eq]

theorem exists_of_toMap {key value : Ty} {content : Value}
    (h : toMap w key value content = .ok (u, cost)) :
    ∃ m, u = .map m ∧ ValueMap.Distinct w.eqv m ∧
      ∀ e ∈ m, (∃ raw cost, convert w key .value raw = .ok (e.1, cost)) ∧
        ∃ raw cost, convert w value .value raw = .ok (e.2, cost) := by
  obtain ⟨entries, -, hrest⟩ := Option.bind_eq_some_iff.mp (Cells.orMismatch_eq_ok_iff.mp h)
  obtain ⟨⟨kvs, c⟩, hentries, hpure⟩ := Option.bind_eq_some_iff.mp hrest
  refine ⟨_, (Prod.mk.inj (Option.some.inj hpure)).1.symm, ValueMap.distinct_ofEntries _ _, ?_⟩
  refine ValueMap.forall_ofEntries (P := fun k => ∃ raw cost, convert w key .value raw = .ok (k, cost))
    (Q := fun x => ∃ raw cost, convert w value .value raw = .ok (x, cost)) fun e he => ?_
  obtain ⟨raw, -, hkey, hvalue⟩ := exists_of_mem_entries? hentries he
  exact ⟨⟨raw.1, hkey⟩, raw.2, hvalue⟩

/-! ## All values -/

/-- What is converted to a type is nil where nil may pass, or it is of the type: an object for the same kind of
passing, and any other value for all kinds. -/
theorem eq_nil_or_conforms (h : convert w type passing v = .ok (u, cost)) :
    (passing.isNullable = true ∧ u = .nil) ∨
      ∀ passing', (type.isObject = true → passing' = passing) → Conforms w type passing' u := by
  -- The parts of a collection are always converted by value; only an object keeps its passing.
  induction type generalizing passing v u cost with
  | any => exact Or.inr fun _ _ => ⟨0, rfl⟩
  | object cls =>
      rw [convert] at h
      refine (keeps_of_throughBoxes ?_ (fun hnot => by cases hnot) h).imp id ?_
      · intro content x c hobject
        cases content with
        | object k =>
            obtain rfl := eq_object_of_toObject hobject
            exact ⟨rfl, rfl, c, hobject⟩
        | _ => cases hobject
      · intro hkeeps passing' hsame
        obtain rfl := hsame rfl
        exact hkeeps.throughBoxes w _ _
  | list item ih =>
      have hitem {raw x : Value} {c : Nat} (hraw : convert w item .value raw = .ok (x, c)) :
          Conforms w item .value x :=
        (ih hraw).elim (fun hnil => by cases hnil.1) fun hall => hall .value fun _ => rfl
      rw [convert_list] at h
      refine (keeps_of_throughBoxes ?_ ?_ h).imp id ?_
      · intro content x c hlist
        obtain ⟨vs, rfl, hvs⟩ := exists_of_toList hlist
        refine keeps_list fun y hy => ?_
        obtain ⟨raw, c, hraw⟩ := hvs y hy
        exact hitem hraw
      · exact fun _ => keeps_list (by simp)
      · intro hkeeps passing' _
        obtain ⟨c, hc⟩ := hkeeps.throughBoxes w (.list item) passing'
        exact ⟨c, (convert_list w item passing' u).trans hc⟩
  | map key value ihKey ihValue =>
      have hkey {raw x : Value} {c : Nat} (hraw : convert w key .value raw = .ok (x, c)) :
          Conforms w key .value x :=
        (ihKey hraw).elim (fun hnil => by cases hnil.1) fun hall => hall .value fun _ => rfl
      have hvalue {raw x : Value} {c : Nat} (hraw : convert w value .value raw = .ok (x, c)) :
          Conforms w value .value x :=
        (ihValue hraw).elim (fun hnil => by cases hnil.1) fun hall => hall .value fun _ => rfl
      rw [convert_map] at h
      refine (keeps_of_throughBoxes ?_ ?_ h).imp id ?_
      · intro content x c hmap
        obtain ⟨m, rfl, hdistinct, hm⟩ := exists_of_toMap hmap
        refine keeps_map hdistinct fun e he => ?_
        obtain ⟨⟨rawKey, costKey, hk⟩, rawValue, costValue, hv⟩ := hm e he
        exact ⟨hkey hk, hvalue hv⟩
      · exact fun _ => keeps_map List.Pairwise.nil (by simp)
      · intro hkeeps passing' _
        obtain ⟨c, hc⟩ := hkeeps.throughBoxes w (.map key value) passing'
        exact ⟨c, (convert_map w key value passing' u).trans hc⟩
  | _ =>
      rw [convert_scalar rfl] at h
      refine (keeps_of_throughBoxes (fun content x c => keeps_toScalar) (fun _ => keeps_zero rfl) h).imp
        id fun hkeeps passing' _ => ?_
      obtain ⟨c, hc⟩ := hkeeps.throughBoxes w _ passing'
      exact ⟨c, (convert_scalar rfl w passing' u).trans hc⟩

/-- To convert a value twice is to convert it once. -/
theorem conforms_of_convert (h : convert w type passing v = .ok (u, cost)) :
    Conforms w type passing u := by
  rcases eq_nil_or_conforms h with ⟨hnull, rfl⟩ | hall
  · exact ⟨0, convert_nil w type hnull⟩
  · exact hall passing fun _ => rfl

/-- Where nil does not pass, a converted value is of the type for any kind of passing. -/
theorem conforms_of_convert_value (hobject : type.isObject = false)
    (h : convert w type .value v = .ok (u, cost)) (passing : Passing) : Conforms w type passing u := by
  rcases eq_nil_or_conforms h with ⟨hnull, -⟩ | hall
  · cases hnull
  · exact hall passing fun hobj => by rw [hobject] at hobj; cases hobj

/-! ## Types without objects -/

/-- A type has values that stand for themselves: no objects, and nothing that may be one. -/
def Independent : Ty → Prop
  | .any | .object _ => False
  | .list item => Independent item
  | .map key value => Independent key ∧ Independent value
  | _ => True

/-- No part of a type takes objects, unless it admits everything. -/
def WithoutObjects : Ty → Prop
  | .object _ => False
  | .list item => WithoutObjects item
  | .map key value => WithoutObjects key ∧ WithoutObjects value
  | _ => True

theorem Independent.withoutObjects (h : Independent type) : WithoutObjects type := by
  induction type with
  | list item ih => exact ih h
  | map key value ihKey ihValue => exact ⟨ihKey h.1, ihValue h.2⟩
  | object cls => exact h
  | _ => trivial

/-- No part of a type admits everything. -/
def Definite : Ty → Prop
  | .any => False
  | .list item => Definite item
  | .map key value => Definite key ∧ Definite value
  | _ => True

theorem Independent.definite (h : Independent type) : Definite type := by
  induction type with
  | list item ih => exact ih h
  | map key value ihKey ihValue => exact ⟨ihKey h.1, ihValue h.2⟩
  | any => exact h
  | _ => trivial

/-- All boxes are looked through, unless they may stay as they are. -/
theorem boxes_of_convert (htype : Definite type)
    (h : convert w type passing v = .ok (u, cost)) : u.boxes = [] := by
  induction type generalizing passing v u cost with
  | any => exact htype.elim
  | object cls =>
      rw [convert] at h
      rcases throughBoxes_cases h with ⟨-, rfl⟩ | ⟨-, rfl⟩ | hobject
      · rfl
      · rfl
      · split at hobject
        · rw [eq_object_of_toObject hobject]
          rfl
        · cases hobject
  | list item ih =>
      rw [convert_list] at h
      rcases throughBoxes_cases h with ⟨-, rfl⟩ | ⟨-, rfl⟩ | hlist
      · rfl
      · rfl
      · obtain ⟨vs, rfl, hvs⟩ := exists_of_toList hlist
        rw [List.eq_nil_iff_forall_not_mem]
        intro b hb
        rw [Value.boxes_list, Value.mem_listBoxes] at hb
        obtain ⟨x, hx, hb⟩ := hb
        obtain ⟨raw, c, hraw⟩ := hvs x hx
        rw [ih htype hraw] at hb
        cases hb
  | map key value ihKey ihValue =>
      rw [convert_map] at h
      rcases throughBoxes_cases h with ⟨-, rfl⟩ | ⟨-, rfl⟩ | hmap
      · rfl
      · rfl
      · obtain ⟨m, rfl, -, hm⟩ := exists_of_toMap hmap
        rw [List.eq_nil_iff_forall_not_mem]
        intro b hb
        rw [Value.mem_boxes_map] at hb
        obtain ⟨e, he, hb⟩ := hb
        obtain ⟨⟨rawKey, costKey, hk⟩, rawValue, costValue, hv⟩ := hm e he
        rw [ihKey htype.1 hk, ihValue htype.2 hv] at hb
        rcases hb with hb | hb <;> cases hb
  | _ =>
      rw [convert_scalar rfl] at h
      rcases throughBoxes_cases h with ⟨-, rfl⟩ | ⟨-, rfl⟩ | hscalar
      · rfl
      · exact (Cells.isPlain_zero _).2
      · exact (Cells.isPlain_of_scalar? (Cells.orMismatch_eq_ok_iff.mp hscalar)).2

end Conversion

end ObjectBridge
