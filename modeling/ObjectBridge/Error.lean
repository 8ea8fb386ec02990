import ObjectBridge.Text.Basic

/-!
# Errors

Every failure of an operation has a cause of its own. `Error.kind` names the cause and
`Error.message` is the text that host code sees.
-/

namespace ObjectBridge

/-- An overload that did not fit a call: its signature and the reason. -/
structure Candidate where
  signature : String
  reason : String
  deriving DecidableEq, Repr

/-- Why an operation failed. Argument positions count from one. -/
inductive Error where
  /-- The object behind a handle is gone. -/
  | useAfterFree (cls operation : String)
  /-- An argument is not an object of the declared class. -/
  | typeMismatch (expected actual : String) (position : Nat) (cls method : String)
  /-- No overload fits the arguments. -/
  | overloadResolution (cls method : String) (candidates : List Candidate)
  /-- A call that may change an object came through a const reference. -/
  | constViolation (cls method : String)
  /-- An argument cannot become a value of the declared type. -/
  | conversion (expected actual : String) (position : Nat) (cls method : String)
  /-- A value has the wrong type, outside of argument binding. -/
  | unexpectedValue (expected actual : String)
  /-- No class on the chain has the method. -/
  | noSuchMethod (cls method : String)
  /-- No class on the chain has the event. -/
  | noSuchEvent (cls event : String)
  /-- No class has the name. -/
  | noSuchClass (name : String)
  /-- A text is neither a name nor a number of an enumeration. -/
  | unknownEnumName (type text : String)
  /-- A protected method was called from outside. -/
  | protectedAccess (cls method : String)
  /-- A result that may not be nil was nil. -/
  | nullReference (what cls method : String)
  /-- Host code failed. -/
  | host (text : String)
  /-- Native code failed. -/
  | native (text : String)
  deriving DecidableEq, Repr

namespace Error

/-- The name of the cause. -/
def kind : Error → String
  | useAfterFree .. => "UseAfterFree"
  | typeMismatch .. => "TypeMismatch"
  | overloadResolution .. => "OverloadResolutionFailure"
  | constViolation .. => "ConstViolation"
  | conversion .. => "ConversionError"
  | unexpectedValue .. => "UnexpectedValue"
  | noSuchMethod .. => "NoSuchMethod"
  | noSuchEvent .. => "NoSuchEvent"
  | noSuchClass .. => "NoSuchClass"
  | unknownEnumName .. => "UnknownEnumName"
  | protectedAccess .. => "ProtectedAccess"
  | nullReference .. => "NullReference"
  | host .. => "Host"
  | native .. => "Native"

/-- The line of a candidate in the message of a failed resolution. -/
def candidateLine (c : Candidate) : String :=
  "  " ++ c.signature ++ " [" ++ c.reason ++ "]"

/-- The text that host code sees. -/
def message : Error → String
  | useAfterFree cls operation =>
      "Object of class " ++ cls ++ " has been destroyed already (in " ++ operation ++ ")"
  | typeMismatch expected actual position cls method =>
      "Unexpected object type (expected argument of class " ++ expected ++ ", got " ++ actual ++
        ") for argument #" ++ Text.naturalText position ++ " in " ++ cls ++ "::" ++ method
  | overloadResolution cls method candidates =>
      "Can't match arguments. Variants are:\n" ++ Text.join "\n" (candidates.map candidateLine) ++
        "\n in " ++ cls ++ "::" ++ method
  | constViolation cls method =>
      "Cannot call non-const method " ++ cls ++ "::" ++ method ++ " through a const reference"
  | conversion expected actual position cls method =>
      "Cannot convert " ++ actual ++ " to " ++ expected ++ " for argument #" ++
        Text.naturalText position ++ " in " ++ cls ++ "::" ++ method
  | unexpectedValue expected actual =>
      "Expected a value of type " ++ expected ++ ", got " ++ actual
  | noSuchMethod cls method => "Undefined method " ++ method ++ " for class " ++ cls
  | noSuchEvent cls event => "Undefined event " ++ event ++ " for class " ++ cls
  | noSuchClass name => "Unknown class " ++ name
  | unknownEnumName type text => "Invalid value '" ++ text ++ "' for enum " ++ type
  | protectedAccess cls method =>
      "Protected method " ++ cls ++ "::" ++ method ++ " can only be called from a subclass"
  | nullReference what cls method =>
      "Null reference for " ++ what ++ " in " ++ cls ++ "::" ++ method
  | host text => text
  | native text => text

end Error

/-! ## Computations that may fail -/

section Computations

variable {α β : Type}

/-- A computation has a result if both of its parts have. -/
theorem bind_eq_ok_iff {r : Except ε α} {f : α → Except ε β} {y : β} :
    (r >>= f) = .ok y ↔ ∃ x, r = .ok x ∧ f x = .ok y := by
  cases r with
  | error e =>
      constructor
      · intro h
        cases h
      · rintro ⟨x, hx, -⟩
        cases hx
  | ok x =>
      constructor
      · intro h
        exact ⟨x, rfl, h⟩
      · rintro ⟨x', hx', h⟩
        cases hx'
        exact h

theorem map_eq_ok_iff {r : Except Error α} {f : α → β} {y : β} :
    r.map f = .ok y ↔ ∃ x, r = .ok x ∧ f x = y := by
  cases r <;> simp [Except.map]

end Computations

end ObjectBridge
