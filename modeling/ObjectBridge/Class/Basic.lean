import ObjectBridge.Callable

/-!
# Classes

A class is described once and does not change afterwards. `ClassDraft` is a class as it is
declared, with its base class by name; `ClassInfo` is a registered class.
-/

namespace ObjectBridge

/-- Whether every crossing of an object keeps its proxy or makes a new one. -/
inductive ClassKind where
  | object
  | value
  deriving DecidableEq, Repr

namespace ClassKind

/-- The name of the kind. -/
def name : ClassKind → String
  | object => "Object"
  | value => "Value"

end ClassKind

/-- What the result of an enumerable body stands for. -/
inductive ItemSource where
  /-- A list of items, with errors in the place of those at some positions, counted from zero. -/
  | items (failures : List (Nat × Error))
  /-- A number below which to count from zero. -/
  | counting
  deriving DecidableEq, Repr

/-- What runs when an overload is selected. -/
inductive Body where
  | native (code : Code)
  | iterator (code : Code) (source : ItemSource)
  | constructor (code : Code) (shape : Shape)

namespace Body

/-- The name of the sort of body. -/
def sort : Body → String
  | native _ => "Native"
  | iterator .. => "Iterator"
  | constructor .. => "Constructor"

end Body

/-- A signature with its body. -/
structure Overload where
  sig : Signature
  body : Body

namespace Overload

/-- The defaults of the parameters. -/
def defaults (o : Overload) : List Value :=
  o.sig.params.filterMap Param.default?

end Overload

/-- Constants and enumerations that a class includes. -/
structure Mixin where
  name : String
  constants : List (String × Value) := []
  enums : List EnumType := []

/-- A declared event. -/
structure EventInfo where
  name : String
  params : List Param

namespace EventInfo

/-- The defaults of the parameters. -/
def defaults (e : EventInfo) : List Value :=
  e.params.filterMap Param.default?

end EventInfo

/-- The default construction that is put off until an object is used. -/
structure LazyConstructor where
  code : Code
  shape : Shape

/-- A class as it is declared. -/
structure ClassDraft where
  name : String
  base : Option String := none
  kind : ClassKind := .object
  mixins : List Mixin := []
  constants : List (String × Value) := []
  enums : List EnumType := []
  methods : List (String × Overload) := []
  constructors : List Overload := []
  events : List EventInfo := []
  lazyConstructor : Option LazyConstructor := none

namespace ClassDraft

/-- Add a constructor. -/
def addConstructor (d : ClassDraft) (sig : Signature) (code : Code) (shape : Shape) :
    ClassDraft :=
  { d with constructors := d.constructors ++ [⟨sig, .constructor code shape⟩] }

/-- Add an overload of a method. -/
def addMethod (d : ClassDraft) (name : String) (sig : Signature) (code : Code) : ClassDraft :=
  { d with methods := d.methods ++ [(name, ⟨sig, .native code⟩)] }

/-- Add an overload of a static method. -/
def addStatic (d : ClassDraft) (name : String) (sig : Signature) (code : Code) : ClassDraft :=
  d.addMethod name { sig with isStatic := true } code

/-- Add an overload of an enumerable method. -/
def addIterator (d : ClassDraft) (name : String) (sig : Signature) (code : Code)
    (source : ItemSource) : ClassDraft :=
  { d with methods := d.methods ++ [(name, ⟨sig, .iterator code source⟩)] }

/-- Add the methods `x` and `x=` of an attribute, and `x?` for a bool. -/
def addAttribute (d : ClassDraft) (name : String) (type : Ty) (getter setter : Code) :
    ClassDraft :=
  let read : Signature := { result := some (type, .value), isConst := true }
  let write : Signature := { params := [{ name := "value", type := type }] }
  let both := (d.addMethod name read getter).addMethod (name ++ "=") write setter
  if type = .bool then both.addMethod (name ++ "?") read getter else both

/-- Add a constant. -/
def addConstant (d : ClassDraft) (name : String) (v : Value) : ClassDraft :=
  { d with constants := d.constants ++ [(name, v)] }

/-- Add an enumeration. -/
def addEnum (d : ClassDraft) (t : EnumType) : ClassDraft :=
  { d with enums := d.enums ++ [t] }

/-- Include a mixin. -/
def addMixin (d : ClassDraft) (m : Mixin) : ClassDraft :=
  { d with mixins := d.mixins ++ [m] }

/-- Declare an event. -/
def addEvent (d : ClassDraft) (name : String) (params : List Param) : ClassDraft :=
  { d with events := d.events ++ [⟨name, params⟩] }

/-- The values that a draft holds. -/
def heldValues (d : ClassDraft) : List Value :=
  d.constants.map Prod.snd ++ d.mixins.flatMap (fun m => m.constants.map Prod.snd) ++
    d.methods.flatMap (fun entry => entry.2.defaults) ++ d.constructors.flatMap Overload.defaults ++
    d.events.flatMap EventInfo.defaults

end ClassDraft

/-- A registered class. The overloads of a method stand in declaration order. -/
structure ClassInfo where
  id : ClassId
  name : String
  base : Option ClassId
  kind : ClassKind
  mixins : List Mixin
  constants : List (String × Value)
  enums : List EnumType
  methods : List (String × List Overload)
  constructors : List Overload
  events : List EventInfo
  lazyConstructor : Option LazyConstructor
  overrides : Option Overrides := none

namespace ClassInfo

/-- The overloads that the class itself declares for a method. -/
def method? (c : ClassInfo) (name : String) : Option (List Overload) :=
  c.methods.lookup name

/-- The names of the methods that the class itself declares, ascending. -/
def methodNames (c : ClassInfo) : List String :=
  FlagSet.sortedNames (c.methods.map Prod.fst)

/-- Whether host code may override some overload that the class itself declares. -/
def declaresVirtual (c : ClassInfo) (name : String) : Bool :=
  match c.method? name with
  | some overloads => overloads.any fun o => o.sig.isVirtual
  | none => false

/-- The values that the description of the class and its overrides hold. -/
def heldValues (c : ClassInfo) : List Value :=
  c.constants.map Prod.snd ++ c.mixins.flatMap (fun m => m.constants.map Prod.snd) ++
    c.methods.flatMap (fun entry => entry.2.flatMap Overload.defaults) ++
    c.constructors.flatMap Overload.defaults ++ c.events.flatMap EventInfo.defaults ++
    (c.overrides.map Overrides.values).getD []

end ClassInfo

end ObjectBridge
