import ObjectBridge.Script.Scope

/-!
# Written classes

A written class becomes a draft by looking its enumerations up and evaluating its defaults and
constants, in the order of its members. What has been evaluated stays in use meanwhile.
-/

namespace ObjectBridge.Script

/-- The type that a written type stands for. -/
def TypeSpec.resolve : TypeSpec → Run Ty
  | .bool => return .bool
  | .int t => return .int t
  | .double => return .double
  | .text => return .text
  | .bytes => return .bytes
  | .enum key => return .enum (← declaredEnum key)
  | .flags key => return .flags (← declaredEnum key)
  | .list item => return .list (← resolve item)
  | .map key value => return .map (← resolve key) (← resolve value)
  | .object cls => return .object cls
  | .any => return .any

/-- The getter and the setter of an attribute that keeps its value in a field. -/
def accessors (type field : String) : Code × Code :=
  ([.ret (.state type field)], [.perform (.setState type field (.arg 0)) none])

variable (eval : Expr → Run Value)

/-- The parameter that a written parameter stands for. -/
def ParamSpec.resolve (p : ParamSpec Expr) : Run Param := do
  let type ← p.type.resolve
  match p.default? with
  | none => return ⟨p.name, type, p.passing, none⟩
  | some e => return ⟨p.name, type, p.passing, some (← eval e)⟩

/-- The parameters that written parameters stand for. -/
def resolveParams : List (ParamSpec Expr) → Run (List Param)
  | [] => return []
  | p :: rest => do
      let q ← p.resolve eval
      let qs ← Run.holding q.default?.toList (resolveParams rest)
      return q :: qs

/-- The signature that a written signature stands for. -/
def SignatureSpec.resolve (sig : SignatureSpec Expr) : Run Signature := do
  let params ← resolveParams eval sig.params
  let result ←
    match sig.result with
    | none => pure none
    | some (type, passing) => pure (some (← type.resolve, passing))
  return ⟨params, result, sig.isConst, sig.isStatic, sig.isProtected, sig.isVirtual⟩

/-- Evaluate named values. -/
def evalNamed : List (String × Expr) → Run (List (String × Value))
  | [] => return []
  | (name, e) :: rest => do
      let v ← eval e
      let entries ← Run.holding [v] (evalNamed rest)
      return (name, v) :: entries

/-- Look enumerations up. -/
def declaredEnums : List String → Run (List EnumType)
  | [] => return []
  | key :: rest => return (← declaredEnum key) :: (← declaredEnums rest)

/-- Add a member to a draft. -/
def Member.addTo (shape : Shape) (d : ClassDraft) : Member Expr Stmt → Run ClassDraft
  | .constructor sig code => return d.addConstructor (← sig.resolve eval) code shape
  | .lazy code => return { d with lazyConstructor := some ⟨code, shape⟩ }
  | .method name sig code => return d.addMethod name (← sig.resolve eval) code
  | .iterator name sig code failures =>
      return d.addIterator name (← sig.resolve eval) code (.items failures)
  | .attribute name type =>
      let (getter, setter) := accessors shape.name name
      return d.addAttribute name (← type.resolve) getter setter
  | .event name params => return d.addEvent name (← resolveParams eval params)
  | .constant name e => return d.addConstant name (← eval e)
  | .enum key => return d.addEnum (← declaredEnum key)
  | .mixin name constants enums =>
      return d.addMixin ⟨name, ← evalNamed eval constants, ← declaredEnums enums⟩

/-- Add members to a draft in order. -/
def addMembers (shape : Shape) (d : ClassDraft) : List (Member Expr Stmt) → Run ClassDraft
  | [] => return d
  | m :: rest => do
      let d ← Run.holding d.heldValues (m.addTo eval shape d)
      addMembers shape d rest

/-- The draft that a written class stands for. -/
def ClassSpec.resolve (spec : ClassSpec Expr Stmt) : Run ClassDraft :=
  addMembers eval spec.shape
    { name := spec.name, base := spec.base, kind := if spec.isValue then .value else .object }
    spec.members

end ObjectBridge.Script
