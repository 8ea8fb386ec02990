import ObjectBridge.Value.Equality
import ObjectBridge.Value.Text

/-!
# Signatures

A signature declares the parameters of an overload, its result and four properties. Every
parameter and result has a type and a kind of passing. An overload is written as

```text
[static ]<result> <name>(<type> <parameter>[ = <default>], ...)[ const]
```
-/

namespace ObjectBridge

/-- How a value crosses: as a copy, or aliased by a reference or a pointer, const or not. -/
inductive Passing where
  | value
  | ref
  | constRef
  | ptr
  | constPtr
  deriving DecidableEq, Repr

namespace Passing

/-- The value may not be changed on the other side. -/
def isConst : Passing → Bool
  | constRef | constPtr => true
  | _ => false

/-- Nil may cross. -/
def isNullable : Passing → Bool
  | ptr | constPtr => true
  | _ => false

/-- The other side works with the caller's own value. -/
def aliases : Passing → Bool
  | value => false
  | _ => true

/-- What the other side changes comes back to the caller. -/
def writesBack : Passing → Bool
  | ref | ptr => true
  | _ => false

/-- A type's name in this kind of passing. -/
def decorate (k : Passing) (type : String) : String :=
  match k with
  | value => type
  | ref => type ++ " &"
  | constRef => "const " ++ type ++ " &"
  | ptr => type ++ " *"
  | constPtr => "const " ++ type ++ " *"

end Passing

/-- The declared type of a parameter or result. -/
inductive Ty where
  | bool
  | int (t : IntegerType)
  | double
  | text
  | bytes
  | enum (t : EnumType)
  | flags (t : EnumType)
  | list (item : Ty)
  | map (key value : Ty)
  | object (cls : String)
  | any
  deriving DecidableEq, Repr

namespace Ty

/-- The name of a type without its kind of passing. -/
def name : Ty → String
  | .bool => "bool"
  | .int t => t.name
  | .double => "double"
  | .text => "string"
  | .bytes => "bytes"
  | .enum t => t.name
  | .flags t => t.name ++ " flags"
  | .list item => item.name ++ "[]"
  | .map key value => "map<" ++ key.name ++ "," ++ value.name ++ ">"
  | .object cls => cls
  | .any => "variant"

/-- The class of an object type. -/
def className? : Ty → Option String
  | .object cls => some cls
  | _ => none

/-- Whether values of the type are objects. -/
def isObject : Ty → Bool
  | .object _ => true
  | _ => false

end Ty

/-- A declared parameter. -/
structure Param where
  name : String
  type : Ty
  passing : Passing := .value
  default? : Option Value := none

namespace Param

/-- Whether every call must supply the parameter. -/
def isRequired (p : Param) : Bool :=
  p.default?.isNone

/-- The type together with its kind of passing. -/
def typeText (p : Param) : String :=
  p.passing.decorate p.type.name

/-- The declaration of the parameter. -/
def display (cells : Cells) (p : Param) : String :=
  let declaration := p.typeText ++ " " ++ p.name
  match p.default? with
  | none => declaration
  | some v => declaration ++ " = " ++ v.display cells

end Param

/-- The declared result; `none` stands for no result. -/
abbrev Result := Option (Ty × Passing)

/-- The text of a declared result. -/
def Result.display : Result → String
  | none => "void"
  | some (type, passing) => passing.decorate type.name

/-- The declaration of one overload. -/
structure Signature where
  params : List Param := []
  result : Result := none
  isConst : Bool := false
  isStatic : Bool := false
  isProtected : Bool := false
  isVirtual : Bool := false

namespace Signature

/-- The position of the first parameter with a name. -/
def paramIndex? (s : Signature) (name : String) : Option Nat :=
  s.params.findIdx? fun p => p.name == name

/-- The declaration of an overload of a method. -/
def render (cells : Cells) (s : Signature) (method : String) : String :=
  (if s.isStatic then "static " else "") ++ s.result.display ++ " " ++ method ++ "(" ++
    Text.join ", " (s.params.map (Param.display cells)) ++ ")" ++
    (if s.isConst then " const" else "")

/-- Whether two defaults agree. -/
def sameDefault (cells : Cells) : Option Value → Option Value → Bool
  | none, none => true
  | some v, some w => v.eqv cells w
  | _, _ => false

/-- Whether two lists of parameters agree. -/
def sameParams (cells : Cells) : List Param → List Param → Bool
  | [], [] => true
  | p :: ps, q :: qs =>
      p.name == q.name && p.type == q.type && p.passing == q.passing &&
        sameDefault cells p.default? q.default? && sameParams cells ps qs
  | _, _ => false

/-- Whether two signatures declare the same. -/
def eqv (cells : Cells) (s t : Signature) : Bool :=
  sameParams cells s.params t.params && s.result == t.result && s.isConst == t.isConst &&
    s.isStatic == t.isStatic && s.isProtected == t.isProtected && s.isVirtual == t.isVirtual

end Signature

end ObjectBridge
