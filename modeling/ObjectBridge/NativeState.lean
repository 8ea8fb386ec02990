import ObjectBridge.Value.Map

/-!
# The native state of an object

The state behind an object is a record of fields with a shape. The shape names the type of the
state and says what its type supports: to be copied, to be overwritten from another state, and to
be compared. States of different types are never assigned or compared.
-/

namespace ObjectBridge

/-- How states of one type are compared. -/
inductive Comparison where
  | never
  | allFields
  | oneField (name : String)
  deriving DecidableEq, Repr

/-- The type of a state and what it supports. -/
structure Shape where
  name : String
  copies : Bool := false
  assigns : Bool := false
  comparison : Comparison := .never
  deriving DecidableEq, Repr

/-- The shape of the states that scripts make. They support everything. -/
def Shape.script : Shape where
  name := "Script"
  copies := true
  assigns := true
  comparison := .allFields

/-- The fields of an object, with their shape. -/
structure NativeState where
  shape : Shape
  fields : ValueMap
  deriving Repr

namespace NativeState

/-- A copy of the state. Handles and boxes in it are shared with the copy. -/
def copy? (s : NativeState) : Option NativeState :=
  if s.shape.copies then some s else none

/-- The state overwritten with the fields of another state of its type. -/
def assignFrom? (s other : NativeState) : Option NativeState :=
  if s.shape.assigns && s.shape.name == other.shape.name then
    some { s with fields := other.fields }
  else none

/-- Equality by value, where the type defines it. -/
def equals? (cells : Cells) (s other : NativeState) : Option Bool :=
  if s.shape.name == other.shape.name then
    match s.shape.comparison with
    | .never => none
    | .allFields => some (Value.eqv cells (.map s.fields) (.map other.fields))
    | .oneField name =>
        some (Value.eqv cells ((s.fields.field? name).getD .nil)
          ((other.fields.field? name).getD .nil))
  else none

/-- The value of a field; nil if there is none. -/
def field (s : NativeState) (name : String) : Value :=
  (s.fields.field? name).getD .nil

/-- The state with a field replaced. -/
def setField (s : NativeState) (name : String) (v : Value) : NativeState :=
  { s with fields := s.fields.setField name v }

end NativeState

end ObjectBridge
