import ObjectBridge.Run
import ObjectBridge.Samples.Crossing
import ObjectBridge.Samples.Shorthand

/-!
# The sample library

The six sample classes in the order of their registration, and what is shown of the state of their
objects. Three of them are defined here; `Identity` and `Crossing` have modules of their own.
-/

namespace ObjectBridge.Samples

open Script

/-!
## The sample class of points

A value class with two coordinates, which are attributes. Points are copied, assigned and compared
by both coordinates.
-/

namespace Point

/-- The name of the type of the states of points. -/
def stateType : String := "Point"

/-- Points support everything a state can support. -/
def shape : Shape where
  name := stateType
  copies := true
  assigns := true
  comparison := .allFields

/-- Move a coordinate by an argument. -/
def move (field : String) (index : Nat) : Stmt :=
  setState stateType field
    (.primitive .addFloat [.state stateType field, .argAs index .double])

/-- Declare a coordinate as an attribute. -/
def addCoordinate (d : ClassDraft) (name : String) : ClassDraft :=
  d.addAttribute name .double [.ret (.state stateType name)]
    [setState stateType name (.argAs 0 .double)]

/-- The class of points. -/
def draft : ClassDraft :=
  let coordinates := [paramOr "x" .double (.float 0), paramOr "y" .double (.float 0)]
  let d : ClassDraft := { name := "P", kind := .value }
  let d := d.addConstructor (takes coordinates)
    [.ret (fields [("x", .argAs 0 .double), ("y", .argAs 1 .double)])] shape
  let d := addCoordinate (addCoordinate d "x") "y"
  let d := d.addMethod "translate" (takes [param "dx" .double, param "dy" .double])
    [move "x" 0, move "y" 1]
  let d := d.addMethod "to_s" (reads [] .text)
    [.ret (.primitive (.joined ",") [.state stateType "x", .state stateType "y"])]
  d.addStatic "origin" (gives [] (.object "P"))
    [.ret (result (.newObject "P" shape
      (fields [("x", .lit (.float 0)), ("y", .lit (.float 0))])))]

end Point

/-!
## The sample classes with a deferred constructor and with a seat

`Lazy` puts its default construction off until an object is used. `Tech` has a seat for its current
object.
-/

namespace Deferred

/-- The state of `Lazy` can be copied and compared, but not assigned. -/
def shape : Shape where
  name := "Lazy"
  copies := true
  comparison := .allFields

/-- The class `Lazy`. -/
def draft : ClassDraft :=
  let d : ClassDraft := {
    name := "Lazy"
    lazyConstructor := some ⟨[.ret (fields [("value", int 5)])], shape⟩ }
  let d := d.addConstructor (takes [param "value" intTy])
    [.ret (fields [("value", .argAs 0 .int64)])] shape
  d.addMethod "value" (reads [] intTy) [.ret (.state "Lazy" "value")]

end Deferred

namespace Seated

/-- The state of `Tech` can be neither copied nor compared. -/
def shape : Shape where
  name := "Tech"

/-- The class `Tech`. -/
def draft : ClassDraft :=
  let tech := Ty.object "Tech"
  let d : ClassDraft := { name := "Tech" }
  let d := d.addConstructor (takes [paramOr "name" .text (.text "generic")])
    [.ret (fields [("name", .argAs 0 .text)])] shape
  let d := d.addAttribute "name" .text [.ret (.state "Tech" "name")]
    [setState "Tech" "name" (.argAs 0 .text)]
  let d := d.addStatic "set_current" (takes [paramBy "t" tech .ptr])
    [act (.install (.named "Tech") "current" (.arg 0))]
  d.addStatic "current" { result := some (tech, .ptr) }
    [.ret (result (.occupant (.named "Tech") "current"))]

end Seated

/-! ## Registration -/

/-- The sample classes, each base class before the classes that derive from it. -/
def library : List ClassDraft :=
  [Point.draft, Identity.draft, Identity.childDraft, Crossing.draft, Deferred.draft, Seated.draft]

/-- Register classes in order, up to the first failure. -/
def registerAll : List ClassDraft → Run Unit
  | [] => return
  | d :: rest => do
      let (_, classes) ← Run.ofExcept ((← get).classes.define d)
      modify fun s => { s with classes := classes }
      registerAll rest

/-- Register the sample classes. Their enumerations can be named in scripts from then on. -/
@[irreducible]
def register : Run Unit := do
  registerAll library
  modify fun s => { s with
    enums := put "UEnum" unsignedEnum (put "Enum" signedEnum s.enums) }

/-- The fields of a state as they are shown: of `AChild` the number only, and of `B` whether it
stores a reference. -/
def shown (state : NativeState) : ValueMap :=
  match state.shape.name with
  | "AChild" => ValueMap.record [("n", state.field "n")]
  | "B" => ValueMap.record [("stored", .bool !(state.field "stored").isNil)]
  | _ => state.fields

end ObjectBridge.Samples
