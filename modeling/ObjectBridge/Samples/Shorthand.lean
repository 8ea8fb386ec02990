import ObjectBridge.Class.Basic

/-!
# Shorthands for the sample classes

Bodies are written as scripts. The names here keep them short: parameters by type, calls without
keywords, fields of a state, maps from field names.
-/

namespace ObjectBridge.Samples

open Script

/-- The type of most numbers of the sample classes. -/
def intTy : Ty := .int .int32

/-- A parameter that is passed as a copy. -/
def param (name : String) (type : Ty) : Param :=
  { name := name, type := type }

/-- A parameter with a kind of passing. -/
def paramBy (name : String) (type : Ty) (passing : Passing) : Param :=
  { name := name, type := type, passing := passing }

/-- A parameter with a default. -/
def paramOr (name : String) (type : Ty) (v : Value) : Param :=
  { name := name, type := type, default? := some v }

/-- The signature of a method without a result. -/
def takes (params : List Param) : Signature :=
  { params := params }

/-- The signature of a method with a result that is a copy. -/
def gives (params : List Param) (type : Ty) : Signature :=
  { params := params, result := some (type, .value) }

/-- The signature of a method that changes nothing. -/
def reads (params : List Param) (type : Ty) : Signature :=
  { gives params type with isConst := true }

/-- The map with named fields. -/
def fields (entries : List (String × Expr)) : Expr :=
  .map (entries.map fun (name, e) => (.lit (.text name), e))

/-- Run an action for what it does. -/
def act (action : Action) : Stmt :=
  .perform action none

/-- The result of an action. -/
def result (action : Action) : Expr :=
  .perform action none

/-- An integer. -/
def int (n : Int64) : Expr :=
  .lit (.int n)

/-- Call a method. -/
def call (object : Expr) (method : String) (args : List Expr) : Action :=
  .call (.method object method args [])

/-- Replace a field of the receiver's state. -/
def setState (type field : String) (e : Expr) : Stmt :=
  act (.setState type field e)

end ObjectBridge.Samples
