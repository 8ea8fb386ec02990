import ObjectBridge.Proofs.Class.Contents
import ObjectBridge.Proofs.Class.Growth

/-!
# Classes apart from their construction

Nearly everything about a class can be told without knowing how its objects are constructed: where it derives from, its
methods, events, constants and enumerations.  Only `findConstructors` and `findLazy` look at the construction.

* `ClassTable.outline` — the table without the constructors.
* `ClassTable.Alike` — tables that differ in the constructors alone.
* `Alike.lookup?_eq` and its companions — what is looked up is the same in both.
* `Alike.build_eq`, `Alike.describeSubclass_eq` and `Alike.snoc` — so are the classes that can be added.
-/

namespace ObjectBridge

/-- A class without its constructors. -/
def ClassInfo.outline (c : ClassInfo) : ClassInfo :=
  { c with constructors := [], lazyConstructor := none }

namespace ClassTable

/-- The table without the constructors of its classes. -/
def outline (t : ClassTable) : ClassTable :=
  ofClasses (t.classes.map ClassInfo.outline)

variable {t t' : ClassTable} {id : ClassId} {name : String}

/-! ## Look-ups without constructors -/

theorem length_outline (t : ClassTable) : t.outline.classes.length = t.classes.length :=
  List.length_map ..

theorem get?_outline (t : ClassTable) (id : ClassId) : t.outline.get? id = (t.get? id).map ClassInfo.outline :=
  List.getElem?_map

theorem lookup?_outline (t : ClassTable) (name : String) : t.outline.lookup? name = t.lookup? name := by
  rw [lookup?_eq_find?, lookup?_eq_find?, outline, ofClasses, List.find?_map, Option.map_map]
  rfl

theorem require_outline (t : ClassTable) (name : String) : t.outline.require name = t.require name := by
  rw [require, require, lookup?_outline]

theorem nameOf_outline (t : ClassTable) (id : ClassId) : t.outline.nameOf id = t.nameOf id := by
  rw [nameOf, nameOf, get?_outline]
  cases t.get? id <;> rfl

theorem chainFrom_outline (t : ClassTable) (fuel : Nat) (c : Option ClassInfo) :
    t.outline.chainFrom fuel (c.map ClassInfo.outline) = (t.chainFrom fuel c).map ClassInfo.outline := by
  induction fuel generalizing c with
  | zero => rfl
  | succ fuel ih =>
      cases c with
      | none => rfl
      | some c =>
          have hbase : c.outline.base.bind t.outline.get? = (c.base.bind t.get?).map ClassInfo.outline := by
            rw [Option.map_bind]
            exact congrArg (c.base.bind ·) (funext (get?_outline t))
          rw [Option.map_some, chainFrom, chainFrom, hbase, ih, List.map_cons]

/-- The chain of a class is made of the same classes. -/
theorem ancestors_outline (t : ClassTable) (id : ClassId) :
    t.outline.ancestors id = (t.ancestors id).map ClassInfo.outline := by
  rw [ancestors, ancestors, get?_outline, length_outline, chainFrom_outline]

theorem isSubclassOf_outline (t : ClassTable) (id ancestor : ClassId) :
    t.outline.isSubclassOf id ancestor = t.isSubclassOf id ancestor := by
  rw [isSubclassOf, isSubclassOf, ancestors_outline, List.any_map]
  rfl

theorem descendants_outline (t : ClassTable) (id : ClassId) : t.outline.descendants id = t.descendants id := by
  simp only [descendants, isSubclassOf_outline]
  rw [outline, ofClasses, List.filter_map, List.map_map]
  rfl

theorem findMethod_outline (t : ClassTable) (id : ClassId) (name : String) :
    t.outline.findMethod id name = t.findMethod id name := by
  have hdeclaring : (t.outline.ancestors id).filter (fun c => (c.method? name).isSome) =
      ((t.ancestors id).filter fun c => (c.method? name).isSome).map ClassInfo.outline := by
    rw [ancestors_outline, List.filter_map]
    rfl
  simp only [findMethod, hdeclaring]
  cases hfound : (t.ancestors id).filter fun c => (c.method? name).isSome with
  | nil => rfl
  | cons nearest rest =>
      rw [List.map_cons, ← List.map_cons, List.flatMap_map]
      rfl

theorem isVirtual_outline (t : ClassTable) (id : ClassId) (name : String) :
    t.outline.isVirtual id name = t.isVirtual id name := by
  rw [isVirtual, isVirtual, ancestors_outline, List.any_map]
  rfl

theorem findEvent_outline (t : ClassTable) (id : ClassId) (name : String) :
    t.outline.findEvent id name = t.findEvent id name := by
  rw [findEvent, findEvent, ancestors_outline, List.findSome?_map]
  rfl

theorem overrides_outline (t : ClassTable) (id : ClassId) : t.outline.overrides id = t.overrides id := by
  rw [overrides, overrides, get?_outline]
  cases t.get? id <;> rfl

theorem constant?_outline (t : ClassTable) (id : ClassId) (name : String) :
    t.outline.constant? id name = t.constant? id name := by
  rw [constant?, constant?, ancestors_outline, List.findSome?_map]
  rfl

theorem enumType?_outline (t : ClassTable) (id : ClassId) (name : String) :
    t.outline.enumType? id name = t.enumType? id name := by
  rw [enumType?, enumType?, ancestors_outline, List.findSome?_map]
  rfl

theorem methodSummary_outline (t : ClassTable) (cells : Cells) (id : ClassId) (method : String) :
    t.outline.methodSummary cells id method = t.methodSummary cells id method := by
  have hown : ((t.outline.get? id).bind fun c => c.method? method) = (t.get? id).bind fun c => c.method? method := by
    rw [get?_outline]
    cases t.get? id <;> rfl
  simp only [methodSummary, findMethod_outline, isVirtual_outline, findEvent_outline, hown]

theorem tableSummary_outline (t : ClassTable) : t.outline.tableSummary = t.tableSummary := by
  have hempty : t.outline.classes.isEmpty = t.classes.isEmpty := List.isEmpty_map
  simp only [tableSummary, nextId, length_outline, nameOf_outline, hempty]

theorem baseOf_outline (t : ClassTable) (base : Option String) : t.outline.baseOf base = t.baseOf base := by
  cases base with
  | none => rfl
  | some name => rw [baseOf, baseOf, require_outline]

/-- How a class is described depends on the names of the other classes alone. -/
theorem build_outline (t : ClassTable) (d : ClassDraft) : t.outline.build d = t.build d := by
  rw [build, build, baseOf_outline, nextId, length_outline]
  rfl

theorem addOverrides_outline (t : ClassTable) (baseId : ClassId) (baseName : String) (table : Overrides)
    (overrides : List (String × Callable)) :
    t.outline.addOverrides baseId baseName table overrides = t.addOverrides baseId baseName table overrides := by
  induction overrides generalizing table with
  | nil => rfl
  | cons entry rest ih => rw [addOverrides, addOverrides, isVirtual_outline, ih]

/-! ## Tables that differ in the constructors -/

/-- Two tables with the same classes, apart from their constructors. What their classes hold is the same. -/
structure Alike (t t' : ClassTable) : Prop where
  outline_eq : t'.outline = t.outline
  heldValues_eq : t'.heldValues = t.heldValues

theorem Alike.refl (t : ClassTable) : t.Alike t := ⟨rfl, rfl⟩

theorem Alike.symm (h : t.Alike t') : t'.Alike t := ⟨h.outline_eq.symm, h.heldValues_eq.symm⟩

/-- What can be told without the constructors is the same. -/
theorem Alike.eq_of_outline {α : Type} (h : t.Alike t') (look : ClassTable → α)
    (hlook : ∀ t : ClassTable, look t.outline = look t) : look t' = look t := by
  rw [← hlook t', h.outline_eq, hlook]

theorem Alike.lookup?_eq (h : t.Alike t') (name : String) : t'.lookup? name = t.lookup? name :=
  h.eq_of_outline (fun t => t.lookup? name) fun t => lookup?_outline t name

theorem Alike.require_eq (h : t.Alike t') (name : String) : t'.require name = t.require name :=
  h.eq_of_outline (fun t => t.require name) fun t => require_outline t name

theorem Alike.nameOf_eq (h : t.Alike t') (id : ClassId) : t'.nameOf id = t.nameOf id :=
  h.eq_of_outline (fun t => t.nameOf id) fun t => nameOf_outline t id

theorem Alike.isSubclassOf_eq (h : t.Alike t') (id ancestor : ClassId) :
    t'.isSubclassOf id ancestor = t.isSubclassOf id ancestor :=
  h.eq_of_outline (fun t => t.isSubclassOf id ancestor) fun t => isSubclassOf_outline t id ancestor

theorem Alike.descendants_eq (h : t.Alike t') (id : ClassId) : t'.descendants id = t.descendants id :=
  h.eq_of_outline (fun t => t.descendants id) fun t => descendants_outline t id

theorem Alike.findMethod_eq (h : t.Alike t') (id : ClassId) (name : String) :
    t'.findMethod id name = t.findMethod id name :=
  h.eq_of_outline (fun t => t.findMethod id name) fun t => findMethod_outline t id name

theorem Alike.findEvent_eq (h : t.Alike t') (id : ClassId) (name : String) :
    t'.findEvent id name = t.findEvent id name :=
  h.eq_of_outline (fun t => t.findEvent id name) fun t => findEvent_outline t id name

theorem Alike.overrides_eq (h : t.Alike t') (id : ClassId) : t'.overrides id = t.overrides id :=
  h.eq_of_outline (fun t => t.overrides id) fun t => overrides_outline t id

theorem Alike.constant?_eq (h : t.Alike t') (id : ClassId) (name : String) :
    t'.constant? id name = t.constant? id name :=
  h.eq_of_outline (fun t => t.constant? id name) fun t => constant?_outline t id name

theorem Alike.enumType?_eq (h : t.Alike t') (id : ClassId) (name : String) :
    t'.enumType? id name = t.enumType? id name :=
  h.eq_of_outline (fun t => t.enumType? id name) fun t => enumType?_outline t id name

theorem Alike.methodSummary_eq (h : t.Alike t') (cells : Cells) (id : ClassId) (method : String) :
    t'.methodSummary cells id method = t.methodSummary cells id method :=
  h.eq_of_outline (fun t => t.methodSummary cells id method) fun t => methodSummary_outline t cells id method

/-- A class with the same constructors is described alike. -/
theorem Alike.summary_eq (h : t.Alike t') (cells : Cells) {c c' : ClassInfo} (houtline : c'.outline = c.outline)
    (hlazy : (t'.findLazy c.id).isSome = (t.findLazy c.id).isSome)
    (hconstructors : t'.findConstructors c.id = t.findConstructors c.id) :
    t'.summary cells c' = t.summary cells c := by
  have htexts : (t'.ancestors c.id).map (fun a => Value.text a.name) =
      (t.ancestors c.id).map fun a => Value.text a.name := by
    refine h.eq_of_outline (fun t => (t.ancestors c.id).map fun a => Value.text a.name) fun t => ?_
    rw [ancestors_outline, List.map_map]
    rfl
  have hoverrides : c'.overrides = c.overrides := (congrArg (fun o : ClassInfo => o.overrides) houtline :)
  have hnames : c'.methodNames = c.methodNames := (congrArg ClassInfo.methodNames houtline :)
  have hline : debugLine c' = debugLine c := (congrArg debugLine houtline :)
  have hfields : c'.id = c.id ∧ c'.name = c.name ∧ c'.base = c.base ∧ c'.kind = c.kind :=
    ⟨(congrArg (fun o : ClassInfo => o.id) houtline :), (congrArg (fun o : ClassInfo => o.name) houtline :),
      (congrArg (fun o : ClassInfo => o.base) houtline :), (congrArg (fun o : ClassInfo => o.kind) houtline :)⟩
  simp only [summary, hfields, hoverrides, hnames, hline, h.nameOf_eq, h.descendants_eq, htexts, hlazy,
    hconstructors]

theorem Alike.tableSummary_eq (h : t.Alike t') : t'.tableSummary = t.tableSummary :=
  h.eq_of_outline tableSummary tableSummary_outline

theorem Alike.build_eq (h : t.Alike t') (d : ClassDraft) : t'.build d = t.build d :=
  h.eq_of_outline (fun t => t.build d) fun t => build_outline t d

/-- The class with a number is the same, apart from its constructors. -/
theorem Alike.get?_eq (h : t.Alike t') (id : ClassId) :
    (t'.get? id).map ClassInfo.outline = (t.get? id).map ClassInfo.outline := by
  rw [← get?_outline, h.outline_eq, get?_outline]

theorem Alike.snoc (h : t.Alike t') {c c' : ClassInfo} (houtline : c'.outline = c.outline)
    (hheld : c'.heldValues = c.heldValues) : (t.snoc c).Alike (t'.snoc c') where
  outline_eq := by
    refine ext_classes ?_
    have hclasses : t'.classes.map ClassInfo.outline = t.classes.map ClassInfo.outline :=
      congrArg ClassTable.classes h.outline_eq
    simp only [outline, ofClasses, ClassTable.snoc, List.map_append, hclasses, List.map_cons, List.map_nil, houtline]
  heldValues_eq := by
    have hvalues : t'.classes.flatMap ClassInfo.heldValues = t.classes.flatMap ClassInfo.heldValues :=
      h.heldValues_eq
    simp only [heldValues, ofClasses, ClassTable.snoc, List.flatMap_append, hvalues, List.flatMap_cons, List.flatMap_nil, hheld]

/-! ## New classes -/

/-- A described class finds its name taken in both tables or in none of them. -/
theorem Alike.register_eq (h : t.Alike t') (c : ClassInfo) :
    t'.register c = (t.register c).map fun added => (added.1, t'.snoc c) := by
  rw [ClassTable.register_eq, ClassTable.register_eq, h.lookup?_eq]
  split <;> rfl

/-- The class that `defineSubclass` adds. -/
def describeSubclass (t : ClassTable) (name base : String) (overrides : List (String × Callable)) :
    Except Error ClassInfo := do
  let baseId ← t.require base
  let baseInfo ← t.descriptor baseId
  let table ← t.addOverrides baseId base (baseInfo.overrides.getD []) overrides
  let c ← t.build { name := name, base := some base, kind := baseInfo.kind }
  return { c with overrides := some table }

theorem defineSubclass_eq (t : ClassTable) (name base : String) (overrides : List (String × Callable)) :
    t.defineSubclass name base overrides = t.describeSubclass name base overrides >>= t.register := by
  simp only [describeSubclass, defineSubclass, bind_assoc, pure_bind]

/-- A class that is described has the constructors of its draft. -/
theorem constructors_of_build {d : ClassDraft} {c : ClassInfo} (h : t.build d = .ok c) :
    c.constructors = d.constructors ∧ c.lazyConstructor = d.lazyConstructor := by
  obtain ⟨base, -, h⟩ := bind_eq_ok_iff.mp h
  obtain ⟨methods, -, h⟩ := bind_eq_ok_iff.mp h
  obtain rfl := Except.ok.inj h
  exact ⟨rfl, rfl⟩

/-- A class of host code gets the next number and a base that is there already, and it has no constructors of its
own. -/
theorem describeSubclass_cases {base : String} {overrides : List (String × Callable)} {c : ClassInfo}
    (h : t.describeSubclass name base overrides = .ok c) :
    c.id = t.nextId ∧ (∀ b, c.base = some b → b < t.nextId) ∧ c.constructors = [] ∧ c.lazyConstructor = none := by
  obtain ⟨baseId, hrequire, h⟩ := bind_eq_ok_iff.mp h
  obtain ⟨baseInfo, hinfo, h⟩ := bind_eq_ok_iff.mp h
  obtain ⟨table, -, h⟩ := bind_eq_ok_iff.mp h
  obtain ⟨described, hbuild, h⟩ := bind_eq_ok_iff.mp h
  obtain rfl := Except.ok.inj h
  obtain ⟨hid, hbase, -⟩ := build_cases hbuild
  obtain ⟨hnone, hlazy⟩ := constructors_of_build hbuild
  refine ⟨hid, fun b hb => ?_, hnone, hlazy⟩
  rw [baseOf, hrequire, hb] at hbase
  obtain rfl := Option.some.inj (Except.ok.inj hbase)
  exact lt_nextId_of_get? (descriptor_eq_ok_iff.mp hinfo)

theorem describeSubclass_outline (t : ClassTable) (name base : String) (overrides : List (String × Callable)) :
    t.outline.describeSubclass name base overrides = t.describeSubclass name base overrides := by
  simp only [describeSubclass, require_outline, addOverrides_outline, build_outline, descriptor, get?_outline]
  refine bind_congr fun baseId => ?_
  cases t.get? baseId <;> rfl

theorem Alike.describeSubclass_eq (h : t.Alike t') (name base : String) (overrides : List (String × Callable)) :
    t'.describeSubclass name base overrides = t.describeSubclass name base overrides :=
  h.eq_of_outline (fun t => t.describeSubclass name base overrides) fun t =>
    describeSubclass_outline t name base overrides

end ClassTable

end ObjectBridge
