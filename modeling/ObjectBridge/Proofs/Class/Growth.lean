import ObjectBridge.Class.Table
import ObjectBridge.Error

/-!
# How a class table grows

A class is added at the end of the table, under the next number, and stays there as it is.

* `ClassTable.Numbered` — every class stands under its own number, and behind its base.
* `ClassTable.Extends` — a later table has the classes of an earlier one and possibly more.
* `define_cases` and `defineSubclass_cases` — the class that each of the two operations adds.
-/

namespace ObjectBridge.ClassTable

variable {t t' : ClassTable} {id : ClassId} {c : ClassInfo}

/-- Every class stands under its own number, and behind its base. -/
structure Numbered (t : ClassTable) : Prop where
  id_eq : ∀ {id c}, t.get? id = some c → c.id = id
  base_lt : ∀ {id c b}, t.get? id = some c → c.base = some b → b < id

/-- A later table has the classes of an earlier one, and possibly more. -/
def Extends (t t' : ClassTable) : Prop :=
  t.classes <+: t'.classes

theorem Extends.refl (t : ClassTable) : t.Extends t :=
  List.prefix_refl _

theorem Extends.trans {u : ClassTable} (htu : t.Extends u) (hut : u.Extends t') : t.Extends t' :=
  List.IsPrefix.trans htu hut

/-- A class is not taken back. -/
theorem Extends.get? (h : t.Extends t') (hc : t.get? id = some c) : t'.get? id = some c := by
  obtain ⟨rest, hrest⟩ := h
  rw [ClassTable.get?, ← hrest, List.getElem?_append_left (List.getElem?_eq_some_iff.mp hc).1]
  exact hc

theorem descriptor_eq_ok_iff : t.descriptor id = .ok c ↔ t.get? id = some c := by
  unfold descriptor
  cases t.get? id <;> simp

/-- The number of a class that is found by its name. -/
theorem Numbered.get?_of_require (hnum : t.Numbered) {name : String} (h : t.require name = .ok id) :
    ∃ c, t.get? id = some c := by
  unfold require at h
  cases hfound : t.lookup? name with
  | none => simp [hfound] at h
  | some found =>
      rw [hfound] at h
      obtain rfl := Except.ok.inj h
      rw [lookup?_eq_find?] at hfound
      obtain ⟨c, hc, hid⟩ := Option.map_eq_some_iff.mp hfound
      obtain ⟨n, hn⟩ := List.getElem?_of_mem (List.mem_of_find?_eq_some hc)
      refine ⟨c, ?_⟩
      rw [← hid, hnum.id_eq hn]
      exact hn

/-! ## The class that is added -/

/-- A table with one more class. -/
def snoc (t : ClassTable) (c : ClassInfo) : ClassTable :=
  ofClasses (t.classes ++ [c])

theorem extends_snoc (t : ClassTable) (c : ClassInfo) : t.Extends (t.snoc c) :=
  List.prefix_append _ _

theorem get?_snoc (t : ClassTable) (c : ClassInfo) (id : ClassId) :
    (t.snoc c).get? id = if id = t.nextId then some c else t.get? id := by
  rw [nextId]
  rcases Nat.lt_trichotomy id t.classes.length with hlt | heq | hgt
  · rw [if_neg (Nat.ne_of_lt hlt)]
    exact List.getElem?_append_left hlt
  · rw [if_pos heq, heq]
    exact List.getElem?_concat_length
  · rw [if_neg (Nat.ne_of_gt hgt)]
    have hover : t.classes.length + 1 ≤ id := hgt
    rw [ClassTable.get?, ClassTable.get?, List.getElem?_eq_none (Nat.le_of_lt hgt)]
    exact List.getElem?_eq_none (by simpa [snoc, ofClasses] using hover)

theorem nextId_snoc (t : ClassTable) (c : ClassInfo) : (t.snoc c).nextId = t.nextId + 1 := by
  simp [nextId, snoc, ofClasses]

/-- No class is there under the next number. -/
theorem lt_nextId_of_get? (hc : t.get? id = some c) : id < t.nextId :=
  (List.getElem?_eq_some_iff.mp hc).1

/-- A class with a new name is put behind the others, and its name into the index. -/
theorem register_eq (t : ClassTable) (c : ClassInfo) :
    t.register c =
      if (t.lookup? c.name).isSome then .error (.native ("Class " ++ c.name ++ " is already registered"))
      else .ok (c.id, t.snoc c) := by
  by_cases htaken : (t.lookup? c.name).isSome = true
  · rw [register, dif_pos htaken, if_pos htaken]
  · rw [register, dif_neg htaken, if_neg htaken]
    exact congrArg (fun added => Except.ok (c.id, added)) (ext_classes rfl)

theorem register_cases (h : t.register c = .ok (id, t')) : id = c.id ∧ t' = t.snoc c := by
  rw [register_eq] at h
  split at h
  · cases h
  · obtain ⟨rfl, rfl⟩ := Prod.mk.inj (Except.ok.inj h)
    exact ⟨rfl, rfl⟩

theorem lookup?_of_register (h : t.register c = .ok (id, t')) : t.lookup? c.name = none := by
  rw [register_eq] at h
  split at h
  · cases h
  · rename_i hnone
    exact Option.not_isSome_iff_eq_none.mp hnone

/-- A class that is described gets the next number, its base and no overrides. -/
theorem build_cases {d : ClassDraft} (h : t.build d = .ok c) :
    c.id = t.nextId ∧ t.baseOf d.base = .ok c.base ∧ c.overrides = none := by
  obtain ⟨base, hbase, h⟩ := bind_eq_ok_iff.mp h
  obtain ⟨methods, -, h⟩ := bind_eq_ok_iff.mp h
  obtain rfl := Except.ok.inj h
  exact ⟨rfl, hbase, rfl⟩

theorem define_cases {d : ClassDraft} (h : t.define d = .ok (id, t')) :
    ∃ c, t' = t.snoc c ∧ c.id = t.nextId ∧ t.baseOf d.base = .ok c.base ∧ c.overrides = none := by
  obtain ⟨c, hbuild, h⟩ := bind_eq_ok_iff.mp h
  obtain ⟨hid, hbase, hnone⟩ := build_cases hbuild
  exact ⟨c, (register_cases h).2, hid, hbase, hnone⟩

theorem defineSubclass_cases {name base : String} {overrides : List (String × Callable)}
    (h : t.defineSubclass name base overrides = .ok (id, t')) :
    ∃ baseId baseInfo table c,
      t.get? baseId = some baseInfo ∧
      t.addOverrides baseId base (baseInfo.overrides.getD []) overrides = .ok table ∧
      t' = t.snoc c ∧ c.id = t.nextId ∧ c.base = some baseId ∧ c.overrides = some table := by
  obtain ⟨baseId, hrequire, h⟩ := bind_eq_ok_iff.mp h
  obtain ⟨baseInfo, hinfo, h⟩ := bind_eq_ok_iff.mp h
  obtain ⟨table, htable, h⟩ := bind_eq_ok_iff.mp h
  obtain ⟨c, hbuild, h⟩ := bind_eq_ok_iff.mp h
  obtain ⟨hid, hbase, -⟩ := build_cases hbuild
  have hsome : c.base = some baseId := by
    have hfound : t.baseOf (some base) = .ok (some baseId) := by
      rw [baseOf, hrequire]
      rfl
    exact (Except.ok.inj (hfound.symm.trans hbase)).symm
  exact ⟨baseId, baseInfo, table, _, descriptor_eq_ok_iff.mp hinfo, htable, (register_cases h).2,
    hid, hsome, rfl⟩

/-! ## Numbers -/

theorem numbered_empty : Numbered {} where
  id_eq h := by simp [get?] at h
  base_lt h := by simp [get?] at h

/-- A class under the next number, whose base is there already. -/
theorem Numbered.snoc (hnum : t.Numbered) (hid : c.id = t.nextId)
    (hbase : ∀ b, c.base = some b → b < t.nextId) : (t.snoc c).Numbered := by
  constructor
  · intro id d hd
    rw [get?_snoc] at hd
    split at hd
    · rename_i hnew
      rw [← Option.some.inj hd, hid, hnew]
    · exact hnum.id_eq hd
  · intro id d b hd hb
    rw [get?_snoc] at hd
    split at hd
    · rename_i hnew
      rw [← Option.some.inj hd] at hb
      exact hnew ▸ hbase b hb
    · exact hnum.base_lt hd hb

/-- The base of a draft is there already. -/
theorem Numbered.lt_of_baseOf (hnum : t.Numbered) {base : Option String} {b : ClassId}
    (h : t.baseOf base = .ok (some b)) : b < t.nextId := by
  cases base with
  | none => simp [baseOf] at h
  | some name =>
      rw [baseOf] at h
      cases hrequire : t.require name with
      | error e => simp [hrequire, Except.map] at h
      | ok found =>
          rw [hrequire] at h
          obtain rfl := Option.some.inj (Except.ok.inj h)
          obtain ⟨d, hd⟩ := hnum.get?_of_require hrequire
          exact lt_nextId_of_get? hd

theorem Numbered.define (hnum : t.Numbered) {d : ClassDraft} (h : t.define d = .ok (id, t')) :
    t'.Numbered := by
  obtain ⟨c, rfl, hid, hbase, -⟩ := define_cases h
  exact hnum.snoc hid fun b hb => hnum.lt_of_baseOf (hb ▸ hbase)

theorem Numbered.defineSubclass (hnum : t.Numbered) {name base : String}
    {overrides : List (String × Callable)}
    (h : t.defineSubclass name base overrides = .ok (id, t')) : t'.Numbered := by
  obtain ⟨baseId, baseInfo, table, c, hget, -, rfl, hid, hbase, -⟩ := defineSubclass_cases h
  refine hnum.snoc hid ?_
  intro b hb
  rw [hb] at hbase
  obtain rfl := Option.some.inj hbase
  exact lt_nextId_of_get? hget

end ObjectBridge.ClassTable
