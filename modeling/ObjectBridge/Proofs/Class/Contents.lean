import ObjectBridge.Class.Summary
import ObjectBridge.Proofs.Value.Parts

/-!
# What classes hold

The values of a class table are the defaults, the constants and what overrides captured.  Whatever is
looked up along a chain of classes comes from one of the registered ones, and a class that is added brings
the values of its draft along and no others.

* `ClassTable.mem_heldValues_of_findMethod` and its companions — what is looked up.
* `ClassTable.mem_heldValues_of_define` and `ClassTable.mem_heldValues_of_defineSubclass` — what is added.
* `ClassTable.isPlain_summary` and its companions — descriptions of classes, which hold nothing.
-/

namespace ObjectBridge

namespace ClassTable

variable {t : ClassTable}

/-- The values that the registered classes hold. -/
def heldValues (t : ClassTable) : List Value :=
  t.classes.flatMap ClassInfo.heldValues

/-- The overrides that the registered classes carry. -/
def allOverrides (t : ClassTable) : Set Overrides :=
  { o | ∃ c ∈ t.classes, c.overrides = some o }

theorem mem_heldValues_of_mem_classes {c : ClassInfo} (hc : c ∈ t.classes) {v : Value}
    (hv : v ∈ c.heldValues) : v ∈ t.heldValues :=
  List.mem_flatMap.mpr ⟨c, hc, hv⟩

/-! ## Chains -/

theorem mem_classes_of_get? {id : ClassId} {c : ClassInfo} (h : t.get? id = some c) :
    c ∈ t.classes :=
  List.mem_of_getElem? h

theorem mem_classes_of_descriptor {id : ClassId} {c : ClassInfo} (h : t.descriptor id = .ok c) :
    c ∈ t.classes := by
  unfold descriptor at h
  split at h
  · rename_i found hfound
    obtain rfl := Except.ok.inj h
    exact mem_classes_of_get? hfound
  · cases h

theorem mem_classes_of_mem_chainFrom {fuel : Nat} {start : Option ClassInfo} {c : ClassInfo}
    (hstart : ∀ b ∈ start, b ∈ t.classes) (hc : c ∈ t.chainFrom fuel start) : c ∈ t.classes := by
  induction fuel generalizing start with
  | zero => simp [chainFrom] at hc
  | succ fuel ih =>
      cases start with
      | none => simp [chainFrom] at hc
      | some b =>
          rcases List.mem_cons.mp hc with rfl | hc
          · exact hstart c rfl
          · refine ih ?_ hc
            intro base hbase
            obtain ⟨id, -, hid⟩ := Option.bind_eq_some_iff.mp hbase
            exact mem_classes_of_get? hid

/-- A chain consists of registered classes. -/
theorem mem_classes_of_mem_ancestors {id : ClassId} {c : ClassInfo} (hc : c ∈ t.ancestors id) :
    c ∈ t.classes :=
  mem_classes_of_mem_chainFrom (fun _ hb => mem_classes_of_get? hb) hc

/-! ## What is looked up -/

theorem mem_heldValues_of_findMethod {id : ClassId} {name : String} {candidates : Candidates}
    (h : t.findMethod id name = some candidates) {o : Overload} (ho : o ∈ candidates.overloads)
    {v : Value} (hv : v ∈ o.defaults) : v ∈ t.heldValues := by
  unfold findMethod at h
  simp only at h
  split at h
  · cases h
  · rename_i nearest rest hdeclaring
    obtain rfl := Option.some.inj h
    obtain ⟨c, hc, ho⟩ := List.mem_flatMap.mp ho
    have hmem := mem_classes_of_mem_ancestors (List.mem_filter.mp hc).1
    refine mem_heldValues_of_mem_classes hmem ?_
    cases hmethod : c.method? name with
    | none => simp [hmethod] at ho
    | some overloads =>
        rw [hmethod, Option.getD_some] at ho
        have hdefault : v ∈ c.methods.flatMap fun entry => entry.2.flatMap Overload.defaults :=
          List.mem_flatMap.mpr ⟨(name, overloads), mem_of_lookup hmethod,
            List.mem_flatMap.mpr ⟨o, ho, hv⟩⟩
        simp only [ClassInfo.heldValues, List.mem_append]
        tauto

theorem mem_heldValues_of_findConstructors {id : ClassId} {candidates : Candidates}
    (h : t.findConstructors id = some candidates) {o : Overload} (ho : o ∈ candidates.overloads)
    {v : Value} (hv : v ∈ o.defaults) : v ∈ t.heldValues := by
  obtain ⟨c, hc, rfl⟩ := Option.map_eq_some_iff.mp h
  have hmem := mem_classes_of_mem_ancestors (List.mem_of_find?_eq_some hc)
  refine mem_heldValues_of_mem_classes hmem ?_
  have hdefault : v ∈ c.constructors.flatMap Overload.defaults :=
    List.mem_flatMap.mpr ⟨o, ho, hv⟩
  simp only [ClassInfo.heldValues, List.mem_append]
  tauto

theorem mem_allOverrides_of_overrides {id : ClassId} {o : Overrides} (h : t.overrides id = some o) :
    o ∈ t.allOverrides := by
  obtain ⟨c, hc, ho⟩ := Option.bind_eq_some_iff.mp h
  exact ⟨c, mem_classes_of_get? hc, ho⟩

/-- The overrides of a class are held with it. -/
theorem mem_heldValues_of_mem_allOverrides {o : Overrides} (h : o ∈ t.allOverrides) {v : Value}
    (hv : v ∈ o.values) : v ∈ t.heldValues := by
  obtain ⟨c, hc, ho⟩ := h
  refine mem_heldValues_of_mem_classes hc ?_
  simp only [ClassInfo.heldValues, List.mem_append]
  exact Or.inr (by simpa [ho] using hv)

theorem mem_or_isPlain_of_constantAmong? {constants : List (String × Value)}
    {enums : List EnumType} {name : String} {v : Value}
    (h : constantAmong? constants enums name = some v) :
    v ∈ constants.map Prod.snd ∨ v.IsPlain := by
  rcases Option.or_eq_some_iff.mp h with h | ⟨-, h⟩
  · exact Or.inl (List.mem_map_of_mem (f := Prod.snd) (mem_of_lookup h))
  · obtain ⟨type, -, h⟩ := List.exists_of_findSome?_eq_some h
    obtain ⟨payload, -, rfl⟩ := Option.map_eq_some_iff.mp h
    exact Or.inr (Value.isPlain_enum _)

/-- A constant is held by a class, or it is a member of an enumeration. -/
theorem mem_heldValues_of_constant? {id : ClassId} {name : String} {v : Value}
    (h : t.constant? id name = some v) : v ∈ t.heldValues ∨ v.IsPlain := by
  obtain ⟨c, hc, h⟩ := List.exists_of_findSome?_eq_some h
  have hmem := mem_classes_of_mem_ancestors hc
  rcases Option.or_eq_some_iff.mp h with h | ⟨-, h⟩
  · rcases mem_or_isPlain_of_constantAmong? h with hv | hv
    · refine Or.inl (mem_heldValues_of_mem_classes hmem ?_)
      simp only [ClassInfo.heldValues, List.mem_append]
      tauto
    · exact Or.inr hv
  · obtain ⟨m, hm, h⟩ := List.exists_of_findSome?_eq_some h
    rcases mem_or_isPlain_of_constantAmong? h with hv | hv
    · refine Or.inl (mem_heldValues_of_mem_classes hmem ?_)
      have hmixin : v ∈ c.mixins.flatMap fun m => m.constants.map Prod.snd :=
        List.mem_flatMap.mpr ⟨m, hm, hv⟩
      simp only [ClassInfo.heldValues, List.mem_append]
      tauto
    · exact Or.inr hv

/-! ## What is added -/

/-- The overloads of a table of methods. -/
def groupedDefaults (methods : List (String × List Overload)) : List Value :=
  methods.flatMap fun entry => entry.2.flatMap Overload.defaults

theorem mem_groupedDefaults_addOverload {name : String} {o : Overload}
    {methods : List (String × List Overload)} {v : Value}
    (hv : v ∈ groupedDefaults (addOverload name o methods)) :
    v ∈ o.defaults ∨ v ∈ groupedDefaults methods := by
  obtain ⟨entry, hentry, hv⟩ := List.mem_flatMap.mp hv
  rcases mem_put hentry with hnew | hentry
  · rw [hnew] at hv
    simp only [List.flatMap_append, List.mem_append, List.flatMap_cons, List.flatMap_nil,
      List.append_nil] at hv
    rcases hv with hv | hv
    · cases hold : methods.lookup name with
      | none => simp [hold] at hv
      | some overloads =>
          rw [hold, Option.getD_some] at hv
          exact Or.inr (List.mem_flatMap.mpr ⟨(name, overloads), mem_of_lookup hold, hv⟩)
    · exact Or.inl hv
  · exact Or.inr (List.mem_flatMap.mpr ⟨entry, hentry, hv⟩)

theorem mem_groupedDefaults_of_groupMethods {cls : String}
    {grouped methods : List (String × List Overload)} {overloads : List (String × Overload)}
    (h : groupMethods cls grouped overloads = .ok methods) {v : Value}
    (hv : v ∈ groupedDefaults methods) :
    v ∈ groupedDefaults grouped ∨ v ∈ overloads.flatMap fun entry => entry.2.defaults := by
  induction overloads generalizing grouped with
  | nil =>
      obtain rfl := Except.ok.inj h
      exact Or.inl hv
  | cons entry rest ih =>
      obtain ⟨name, o⟩ := entry
      rw [groupMethods] at h
      split at h
      · cases h
      · rw [List.flatMap_cons, List.mem_append]
        rcases ih h with hv | hv
        · rcases mem_groupedDefaults_addOverload hv with hv | hv
          · exact Or.inr (Or.inl hv)
          · exact Or.inl hv
        · exact Or.inr (Or.inr hv)

/-- A described class holds what its draft holds. -/
theorem mem_heldValues_of_build {d : ClassDraft} {c : ClassInfo} (h : t.build d = .ok c)
    {v : Value} (hv : v ∈ c.heldValues) : v ∈ d.heldValues := by
  obtain ⟨base, -, h⟩ := bind_eq_ok_iff.mp h
  obtain ⟨methods, hgroup, h⟩ := bind_eq_ok_iff.mp h
  obtain rfl := Except.ok.inj h
  have hmethods : v ∈ groupedDefaults methods →
      v ∈ d.methods.flatMap fun entry => entry.2.defaults := by
    intro hv
    rcases mem_groupedDefaults_of_groupMethods hgroup hv with hv | hv
    · exact absurd hv List.not_mem_nil
    · exact hv
  simp only [groupedDefaults] at hmethods
  simp only [ClassInfo.heldValues, ClassDraft.heldValues, List.mem_append, Option.map_none,
    Option.getD_none, List.not_mem_nil, or_false] at hv ⊢
  tauto

theorem mem_heldValues_of_register {c : ClassInfo} {id : ClassId} {t' : ClassTable}
    (h : t.register c = .ok (id, t')) {v : Value} (hv : v ∈ t'.heldValues) :
    v ∈ c.heldValues ∨ v ∈ t.heldValues := by
  unfold register at h
  split at h
  · cases h
  · obtain ⟨-, rfl⟩ := Prod.mk.inj (Except.ok.inj h)
    simp only [heldValues, List.flatMap_append, List.mem_append, List.flatMap_cons,
      List.flatMap_nil, List.append_nil] at hv ⊢
    tauto

/-- No class is taken back. -/
theorem allOverrides_subset_of_register {c : ClassInfo} {id : ClassId} {t' : ClassTable}
    (h : t.register c = .ok (id, t')) : t.allOverrides ⊆ t'.allOverrides := by
  unfold register at h
  split at h
  · cases h
  · obtain ⟨-, rfl⟩ := Prod.mk.inj (Except.ok.inj h)
    rintro o ⟨d, hd, ho⟩
    exact ⟨d, List.mem_append_left _ hd, ho⟩

theorem allOverrides_subset_of_define {d : ClassDraft} {id : ClassId} {t' : ClassTable}
    (h : t.define d = .ok (id, t')) : t.allOverrides ⊆ t'.allOverrides := by
  obtain ⟨c, -, h⟩ := bind_eq_ok_iff.mp h
  exact allOverrides_subset_of_register h

theorem allOverrides_subset_of_defineSubclass {name base : String}
    {overrides : List (String × Callable)} {id : ClassId} {t' : ClassTable}
    (h : t.defineSubclass name base overrides = .ok (id, t')) :
    t.allOverrides ⊆ t'.allOverrides := by
  obtain ⟨baseId, -, h⟩ := bind_eq_ok_iff.mp h
  obtain ⟨baseInfo, -, h⟩ := bind_eq_ok_iff.mp h
  obtain ⟨table, -, h⟩ := bind_eq_ok_iff.mp h
  obtain ⟨c, -, h⟩ := bind_eq_ok_iff.mp h
  exact allOverrides_subset_of_register h

/-- A new class adds the values of its draft to a table. -/
theorem mem_heldValues_of_define {d : ClassDraft} {id : ClassId} {t' : ClassTable}
    (h : t.define d = .ok (id, t')) {v : Value} (hv : v ∈ t'.heldValues) :
    v ∈ d.heldValues ∨ v ∈ t.heldValues := by
  obtain ⟨c, hbuild, h⟩ := bind_eq_ok_iff.mp h
  exact (mem_heldValues_of_register h hv).imp_left (mem_heldValues_of_build hbuild)

theorem mem_values_of_addOverrides {baseId : ClassId} {baseName : String}
    {table table' : Overrides} {overrides : List (String × Callable)}
    (h : t.addOverrides baseId baseName table overrides = .ok table') {v : Value}
    (hv : v ∈ table'.values) :
    v ∈ table.values ∨ v ∈ overrides.flatMap fun entry => entry.2.values := by
  induction overrides generalizing table with
  | nil =>
      obtain rfl := Except.ok.inj h
      exact Or.inl hv
  | cons entry rest ih =>
      obtain ⟨method, f⟩ := entry
      rw [addOverrides] at h
      split at h
      · rw [List.flatMap_cons, List.mem_append]
        rcases ih h with hv | hv
        · obtain ⟨entry, hentry, hv⟩ := List.mem_flatMap.mp hv
          rcases mem_put hentry with hnew | hentry
          · rw [hnew] at hv
            exact Or.inr (Or.inl hv)
          · exact Or.inl (List.mem_flatMap.mpr ⟨entry, hentry, hv⟩)
        · exact Or.inr (Or.inr hv)
      · cases h

/-- A class with overrides adds what these captured. -/
theorem mem_heldValues_of_defineSubclass {name base : String}
    {overrides : List (String × Callable)} {id : ClassId} {t' : ClassTable}
    (h : t.defineSubclass name base overrides = .ok (id, t')) {v : Value}
    (hv : v ∈ t'.heldValues) :
    v ∈ (overrides.flatMap fun entry => entry.2.values) ∨ v ∈ t.heldValues := by
  obtain ⟨baseId, -, h⟩ := bind_eq_ok_iff.mp h
  obtain ⟨baseInfo, hinfo, h⟩ := bind_eq_ok_iff.mp h
  obtain ⟨table, htable, h⟩ := bind_eq_ok_iff.mp h
  obtain ⟨c, hbuild, h⟩ := bind_eq_ok_iff.mp h
  rcases mem_heldValues_of_register h hv with hv | hv
  · -- The class itself declares nothing, so all it holds are its overrides.
    have hown : v ∈ c.heldValues ∨ v ∈ table.values := by
      simp only [ClassInfo.heldValues, List.mem_append, Option.map_some, Option.getD_some] at hv ⊢
      tauto
    rcases hown with hv | hv
    · exact absurd (mem_heldValues_of_build hbuild hv) List.not_mem_nil
    · rcases mem_values_of_addOverrides htable hv with hv | hv
      · refine Or.inr (mem_heldValues_of_mem_classes (mem_classes_of_descriptor hinfo) ?_)
        cases hbase : baseInfo.overrides with
        | none => simp [hbase, Overrides.values] at hv
        | some o =>
            rw [hbase, Option.getD_some] at hv
            simp [ClassInfo.heldValues, hbase, hv]
      · exact Or.inl hv
  · exact Or.inr hv

/-! ## Descriptions -/

theorem isPlain_orNil {v : Option Value} (h : ∀ u ∈ v, u.IsPlain) : (orNil v).IsPlain := by
  cases v with
  | none => exact Value.isPlain_nil
  | some u => exact h u rfl

theorem isPlain_number (n : Nat) : (number n).IsPlain :=
  Value.isPlain_int _

/-- A list of descriptions. -/
theorem isPlain_list_map {α : Type} {f : α → Value} (hf : ∀ x, (f x).IsPlain) (xs : List α) :
    (Value.list (xs.map f)).IsPlain := by
  rw [Value.isPlain_list_iff]
  intro v hv
  obtain ⟨x, -, rfl⟩ := List.mem_map.mp hv
  exact hf x

theorem isPlain_candidates (cells : Cells) (method : String) (c : Candidates) :
    (c.summary cells method).IsPlain := by
  refine Value.isPlain_record ?_
  simp only [List.forall_mem_cons, List.not_mem_nil, false_implies, implies_true, and_true]
  exact ⟨Value.isPlain_text _, isPlain_list_map (fun _ => Value.isPlain_text _) _,
    isPlain_list_map (fun _ => Value.isPlain_text _) _⟩

theorem isPlain_candidates_orNil (cells : Cells) (method : String) (c : Option Candidates) :
    (orNil (c.map (Candidates.summary cells method))).IsPlain := by
  refine isPlain_orNil ?_
  intro u hu
  obtain ⟨candidates, -, rfl⟩ := Option.map_eq_some_iff.mp hu
  exact isPlain_candidates cells method candidates

/-- The properties of a class. -/
theorem isPlain_summary (t : ClassTable) (cells : Cells) (c : ClassInfo) :
    (t.summary cells c).IsPlain := by
  refine Value.isPlain_record ?_
  simp only [List.forall_mem_cons, List.not_mem_nil, false_implies, implies_true, and_true]
  refine ⟨isPlain_number _, Value.isPlain_text _, isPlain_orNil ?_, Value.isPlain_text _,
    Value.isPlain_bool _, isPlain_list_map Value.isPlain_text _,
    isPlain_list_map (fun _ => Value.isPlain_text _) _, isPlain_list_map isPlain_number _,
    Value.isPlain_bool _, isPlain_candidates_orNil cells "new" _, Value.isPlain_text _⟩
  intro u hu
  obtain ⟨id, -, rfl⟩ := Option.map_eq_some_iff.mp hu
  exact Value.isPlain_text _

/-- What a class knows under a name. -/
theorem isPlain_methodSummary (t : ClassTable) (cells : Cells) (id : ClassId) (method : String) :
    (t.methodSummary cells id method).IsPlain := by
  refine Value.isPlain_record ?_
  simp only [List.forall_mem_cons, List.not_mem_nil, false_implies, implies_true, and_true]
  refine ⟨isPlain_candidates_orNil cells method _, Value.isPlain_bool _, isPlain_orNil ?_,
    isPlain_orNil ?_⟩
  · intro u hu
    obtain ⟨overloads, -, rfl⟩ := Option.map_eq_some_iff.mp hu
    exact isPlain_number _
  · intro u hu
    obtain ⟨e, -, rfl⟩ := Option.map_eq_some_iff.mp hu
    exact isPlain_list_map (fun _ => Value.isPlain_text _) _

theorem isPlain_tableSummary (t : ClassTable) : t.tableSummary.IsPlain := by
  refine Value.isPlain_record ?_
  simp only [List.forall_mem_cons, List.not_mem_nil, false_implies, implies_true, and_true]
  exact ⟨isPlain_number _, Value.isPlain_bool _, isPlain_number _,
    isPlain_list_map (fun _ => Value.isPlain_text _) _⟩

/-- The entries of an enumeration are numbers. -/
theorem covers_enumSummary {cells : Cells} {values : List Value} (type : EnumType) :
    cells.Covers values type.summary := by
  have hfold (entries : List (String × Int64)) (m : ValueMap)
      (hm : cells.Covers values (.map m)) :
      cells.Covers values
        (.map (entries.foldl (fun m entry => ValueMap.setField entry.1 (.int entry.2) m) m)) := by
    induction entries generalizing m with
    | nil => exact hm
    | cons entry rest ih =>
        exact ih _ (Cells.covers_map_setField
          (Cells.covers_of_isPlain (Value.isPlain_int entry.2)) hm)
  refine Cells.covers_record ?_
  simp only [List.forall_mem_cons, List.not_mem_nil, false_implies, implies_true, and_true]
  exact ⟨Cells.covers_of_isPlain (Value.isPlain_text _),
    hfold type.entries [] (Cells.covers_map_iff.mpr (by simp))⟩

end ClassTable

end ObjectBridge
