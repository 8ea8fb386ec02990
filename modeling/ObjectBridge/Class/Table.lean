import ObjectBridge.Class.Basic
import ObjectBridge.Error

/-!
# The class table

Classes are numbered in the order of registration, and a base class is registered before the
classes that derive from it. Everything a class does not declare itself is looked up along its
chain, nearest class first.

* `ClassTable.lookup?` finds a class by its name, in an index that is kept beside the classes;
* `ClassTable.ancestors` is the chain of a class;
* `ClassTable.findMethod` gathers the overloads along the chain;
* `ClassTable.build` and `ClassTable.register` add a class.
-/

namespace ObjectBridge

/-- The registered classes by number, and their numbers by name. -/
structure ClassTable where
  classes : List ClassInfo
  /-- The index: the number of each class under its name. -/
  numbers : List (String × ClassId)
  /-- The index tells of all classes, and of nothing else. -/
  indexed : numbers = classes.map fun c => (c.name, c.id)

/-- The overloads at a call site: the nearest class that declares the method, and all overloads
on the chain, nearest class first. -/
structure Candidates where
  owner : String
  overloads : List Overload

namespace ClassTable

/-- The classes decide what is in the index. -/
theorem ext_classes {t t' : ClassTable} (h : t.classes = t'.classes) : t = t' := by
  obtain ⟨classes, numbers, rfl⟩ := t
  obtain ⟨classes', numbers', rfl⟩ := t'
  obtain rfl : classes = classes' := h
  rfl

/-- The table of given classes. -/
def ofClasses (classes : List ClassInfo) : ClassTable where
  classes := classes
  numbers := classes.map fun c => (c.name, c.id)
  indexed := rfl

instance : EmptyCollection ClassTable := ⟨ofClasses []⟩

@[simp] theorem classes_empty : ({} : ClassTable).classes = [] := rfl

/-- The number of the class registered next. -/
def nextId (t : ClassTable) : ClassId :=
  t.classes.length

/-- The class with a number. -/
def get? (t : ClassTable) (id : ClassId) : Option ClassInfo :=
  t.classes[id]?

/-- The class with a number, or an error. -/
def descriptor (t : ClassTable) (id : ClassId) : Except Error ClassInfo :=
  match t.get? id with
  | some c => .ok c
  | none => .error (.noSuchClass ("#" ++ Text.naturalText id))

/-- The number of the class with a name. -/
def lookup? (t : ClassTable) (name : String) : Option ClassId :=
  t.numbers.lookup name

/-- What the index tells is the number of the first class with the name. -/
theorem lookup?_eq_find? (t : ClassTable) (name : String) :
    t.lookup? name = (t.classes.find? fun c => c.name == name).map ClassInfo.id := by
  rw [lookup?, t.indexed]
  induction t.classes with
  | nil => rfl
  | cons c rest ih =>
      rw [List.map_cons, List.lookup_cons, List.find?_cons, BEq.comm (a := c.name)]
      cases name == c.name with
      | true => rfl
      | false => exact ih

/-- The number of the class with a name, or an error. -/
def require (t : ClassTable) (name : String) : Except Error ClassId :=
  match t.lookup? name with
  | some id => .ok id
  | none => .error (.noSuchClass name)

/-- The name of a class; empty for a number without a class. -/
def nameOf (t : ClassTable) (id : ClassId) : String :=
  match t.get? id with
  | some c => c.name
  | none => ""

/-- A class followed by at most `fuel - 1` classes of its chain. -/
def chainFrom (t : ClassTable) : Nat → Option ClassInfo → List ClassInfo
  | 0, _ => []
  | _ + 1, none => []
  | fuel + 1, some c => c :: chainFrom t fuel (c.base.bind t.get?)

/-- The class followed by its base, the base of its base, and so on. The chain is never longer
than the table. -/
def ancestors (t : ClassTable) (id : ClassId) : List ClassInfo :=
  t.chainFrom t.classes.length (t.get? id)

/-- Whether a class is another one or derives from it. -/
def isSubclassOf (t : ClassTable) (id ancestor : ClassId) : Bool :=
  (t.ancestors id).any fun c => c.id == ancestor

/-- The classes that are a class or derive from it. -/
def descendants (t : ClassTable) (id : ClassId) : List ClassId :=
  (t.classes.filter fun c => t.isSubclassOf c.id id).map ClassInfo.id

/-- The overloads of a method along the chain of a class. -/
def findMethod (t : ClassTable) (id : ClassId) (name : String) : Option Candidates :=
  let declaring := (t.ancestors id).filter fun c => (c.method? name).isSome
  match declaring with
  | [] => none
  | nearest :: _ =>
      some ⟨nearest.name, declaring.flatMap fun c => (c.method? name).getD []⟩

/-- Whether host code may override some overload of a method. -/
def isVirtual (t : ClassTable) (id : ClassId) (name : String) : Bool :=
  (t.ancestors id).any fun c => c.declaresVirtual name

/-- The constructors of the nearest class that declares any. -/
def findConstructors (t : ClassTable) (id : ClassId) : Option Candidates :=
  ((t.ancestors id).find? fun c => !c.constructors.isEmpty).map fun c =>
    ⟨c.name, c.constructors⟩

/-- The deferred construction of the nearest class that declares one. -/
def findLazy (t : ClassTable) (id : ClassId) : Option LazyConstructor :=
  (t.ancestors id).findSome? ClassInfo.lazyConstructor

/-- The nearest declaration of an event. -/
def findEvent (t : ClassTable) (id : ClassId) (name : String) : Option EventInfo :=
  (t.ancestors id).findSome? fun c => c.events.find? fun e => e.name == name

/-- The overrides that the class itself carries. -/
def overrides (t : ClassTable) (id : ClassId) : Option Overrides :=
  (t.get? id).bind ClassInfo.overrides

/-- A constant among constants and enumeration entries. -/
def constantAmong? (constants : List (String × Value)) (enums : List EnumType) (name : String) :
    Option Value :=
  (constants.lookup name).or
    (enums.findSome? fun t =>
      (t.payloadOf? name).map fun payload => .enum (.ofPayload t payload))

/-- A constant of a class: its own ones and its enumerations first, then its mixins, then the rest
of the chain. -/
def constant? (t : ClassTable) (id : ClassId) (name : String) : Option Value :=
  (t.ancestors id).findSome? fun c =>
    (constantAmong? c.constants c.enums name).or
      (c.mixins.findSome? fun m => constantAmong? m.constants m.enums name)

/-- An enumeration of a class: its own ones first, then its mixins, then the rest of the chain. -/
def enumType? (t : ClassTable) (id : ClassId) (name : String) : Option EnumType :=
  (t.ancestors id).findSome? fun c =>
    (c.enums.find? fun e => e.name == name).or
      (c.mixins.findSome? fun m => m.enums.find? fun e => e.name == name)

/-- Add an overload behind the ones its method has already. -/
def addOverload (name : String) (o : Overload) (methods : List (String × List Overload)) :
    List (String × List Overload) :=
  put name ((methods.lookup name).getD [] ++ [o]) methods

/-- Group overloads by method; a static overload cannot be virtual. -/
def groupMethods (cls : String) (grouped : List (String × List Overload)) :
    List (String × Overload) → Except Error (List (String × List Overload))
  | [] => .ok grouped
  | (name, o) :: rest =>
      if o.sig.isVirtual && o.sig.isStatic then
        .error (.native ("Static method " ++ cls ++ "::" ++ name ++ " cannot be virtual"))
      else groupMethods cls (addOverload name o grouped) rest

/-- The number of a draft's base class. -/
def baseOf (t : ClassTable) : Option String → Except Error (Option ClassId)
  | none => .ok none
  | some name => (t.require name).map some

/-- Describe a draft under the next number. -/
def build (t : ClassTable) (d : ClassDraft) : Except Error ClassInfo := do
  let base ← t.baseOf d.base
  let methods ← groupMethods d.name [] d.methods
  return {
    id := t.nextId, name := d.name, base := base, kind := d.kind, mixins := d.mixins,
    constants := d.constants, enums := d.enums, methods := methods,
    constructors := d.constructors, events := d.events, lazyConstructor := d.lazyConstructor }

/-- A new name is put behind the others in the index. -/
theorem put_numbers {t : ClassTable} {c : ClassInfo} (hnew : ¬(t.lookup? c.name).isSome = true) :
    put c.name c.id t.numbers = (t.classes ++ [c]).map fun c => (c.name, c.id) := by
  have hnone : t.numbers.lookup c.name = none := by
    rwa [Option.not_isSome_iff_eq_none] at hnew
  rw [put_eq_append hnone, t.indexed, List.map_append, List.map_singleton]

/-- Add a described class; its name must be new. -/
def register (t : ClassTable) (c : ClassInfo) : Except Error (ClassId × ClassTable) :=
  if hnew : (t.lookup? c.name).isSome then
    .error (.native ("Class " ++ c.name ++ " is already registered"))
  else .ok (c.id, {
    classes := t.classes ++ [c]
    numbers := put c.name c.id t.numbers
    indexed := put_numbers hnew })

/-- Describe and add a draft. -/
def define (t : ClassTable) (d : ClassDraft) : Except Error (ClassId × ClassTable) := do
  t.register (← t.build d)

/-- Add overrides to a table of them; each must replace a virtual method of the base class. -/
def addOverrides (t : ClassTable) (baseId : ClassId) (baseName : String) (table : Overrides) :
    List (String × Callable) → Except Error Overrides
  | [] => .ok table
  | (method, f) :: rest =>
      if t.isVirtual baseId method then
        addOverrides t baseId baseName (table.insert method f) rest
      else .error (.noSuchMethod baseName method)

/-- Add a class that replaces virtual methods of its base by host code. It starts from the
overrides that the base carries itself. -/
def defineSubclass (t : ClassTable) (name base : String) (overrides : List (String × Callable)) :
    Except Error (ClassId × ClassTable) := do
  let baseId ← t.require base
  let baseInfo ← t.descriptor baseId
  let table ← t.addOverrides baseId base (baseInfo.overrides.getD []) overrides
  let c ← t.build { name := name, base := some base, kind := baseInfo.kind }
  t.register { c with overrides := some table }

end ClassTable

end ObjectBridge
