import ObjectBridge.NativeState
import ObjectBridge.Signature
import ObjectBridge.Value.Native

/-!
# The script language

Bodies of native methods, host overrides, event handlers and iteration blocks are lists of
statements. A statement performs an action, ends the body with a value, or branches. An action is
one operation on the runtime; its result can be stored in a variable and used inside an expression.

Types and classes are written here before they are looked up: an enumeration is given by a key
under which it was declared, a class by its name or its number.
-/

namespace ObjectBridge.Script

/-- A class, by name or by number. -/
inductive ClassRef where
  | named (name : String)
  | numbered (id : ClassId)
  deriving DecidableEq, Repr

/-- A value that can be written down. Objects and boxes cannot. -/
inductive Literal where
  | nil
  | bool (b : Bool)
  | int (n : Int64)
  | uint (n : UInt64)
  | float (x : Float)
  | text (s : String)
  | bytes (data : List UInt8)

/-- The value that a literal stands for. -/
def Literal.value : Literal → Value
  | .nil => .nil
  | .bool b => .bool b
  | .int n => .int n
  | .uint n => .uint n
  | .float x => .float x
  | .text s => .text s
  | .bytes data => .bytes data

/-- A written type. -/
inductive TypeSpec where
  | bool
  | int (t : IntegerType)
  | double
  | text
  | bytes
  | enum (key : String)
  | flags (key : String)
  | list (item : TypeSpec)
  | map (key value : TypeSpec)
  | object (cls : String)
  | any
  deriving DecidableEq, Repr

/-- A written parameter, with its default as an expression. -/
structure ParamSpec (ε : Type) where
  name : String
  type : TypeSpec := .any
  passing : Passing := .value
  default? : Option ε := none

/-- A written signature. -/
structure SignatureSpec (ε : Type) where
  params : List (ParamSpec ε) := []
  result : Option (TypeSpec × Passing) := none
  isConst : Bool := false
  isStatic : Bool := false
  isProtected : Bool := false
  isVirtual : Bool := false

/-- What a class is declared to have. -/
inductive Member (ε σ : Type) where
  | constructor (sig : SignatureSpec ε) (code : List σ)
  | lazy (code : List σ)
  | method (name : String) (sig : SignatureSpec ε) (code : List σ)
  /-- The code yields a list of items; errors are given in the place of those at some positions. -/
  | iterator (name : String) (sig : SignatureSpec ε) (code : List σ) (failures : List (Nat × Error))
  | attribute (name : String) (type : TypeSpec)
  | event (name : String) (params : List (ParamSpec ε))
  | constant (name : String) (value : ε)
  | enum (key : String)
  | mixin (name : String) (constants : List (String × ε)) (enums : List String)

/-- A written class. -/
structure ClassSpec (ε σ : Type) where
  name : String
  base : Option String := none
  isValue : Bool := false
  shape : Shape
  members : List (Member ε σ) := []

/-- Operations on values alone. -/
inductive Primitive where
  /-- The sum of two integers, modulo 2 ^ 64. -/
  | add
  /-- The sum of two floating-point numbers. -/
  | addFloat
  /-- Whether two values are equal. -/
  | equal
  /-- The displayed texts one after the other. -/
  | concat
  /-- Texts as they are and other values as displayed, with a separator between them. -/
  | joined (separator : String)
  /-- Whether a value is not nil. -/
  | present
  /-- A list with one more item. -/
  | append
  /-- A map with a value under a key. -/
  | put
  /-- The number of items, bytes or characters. -/
  | count
  /-- The flags of either set. -/
  | union
  /-- The flags not in a set. -/
  | complement
  /-- The slot and generation of an object, as a pair of integers; nil for nil. -/
  | reference
  deriving DecidableEq, Repr

mutual

/-- Expressions. -/
inductive Expr where
  | lit (l : Literal)
  | enumOf (key : String) (payload : Int64)
  | flagsOf (key : String) (payload : Int64)
  | list (items : List Expr)
  | map (entries : List (Expr × Expr))
  /-- A new box with the content given. -/
  | box (content : Expr)
  | var (name : String)
  /-- The const view of an object. -/
  | constView (object : Expr)
  /-- An argument of the running body; nil if there is none at the position. -/
  | arg (index : Nat)
  /-- An argument of the running body, taken as a native type. -/
  | argAs (index : Nat) (type : NativeType)
  | argCount
  | receiver
  /-- A field of the receiver's state, which has the type named. -/
  | state (type field : String)
  | primitive (op : Primitive) (operands : List Expr)
  | perform (action : Action) (dest : Option String)
  /-- The result of a call together with the arguments as the call left them; what is stored is the
  result alone. -/
  | callOut (call : Call) (dest : Option String)

/-- Calls whose arguments may come back changed. -/
inductive Call where
  | construct (cls : ClassRef) (args : List Expr) (keywords : List (String × Expr))
  | method (object : Expr) (method : String) (args : List Expr)
      (keywords : List (String × Expr))
  | static (cls : ClassRef) (method : String) (args : List Expr)
      (keywords : List (String × Expr))

/-- Operations on variables, boxes, the runtime and the running body. -/
inductive Action where
  | set (value : Expr)
  | drop (name : String)
  | boxSet (box value : Expr)
  | boxGet (box : Expr)
  | log (value : Expr)
  | fail (text : String) (native : Bool)
  /-- Run statements of the same body and answer with the error they end in, if any. -/
  | attempt (code : List Stmt)
  | callable (name : String) (code : List Stmt)
  /-- Host code that takes values along, which its body finds in variables. -/
  | closure (name : String) (captures : List (String × Expr)) (code : List Stmt)
  | sameCallable (name other : String)
  | invoke (callable : String) (args : List Expr)
  | setArg (index : Nat) (value : Expr)
  | setState (type field : String) (value : Expr)
  /-- Register the sample classes. -/
  | samples
  | defineClass (spec : ClassSpec Expr Stmt)
  | subclass (name base : String) (overrides : List (String × String))
  | constant (cls : ClassRef) (name : String)
  | enumType (cls : ClassRef) (name : String)
  | classInfo (cls : ClassRef)
  | methodInfo (cls : ClassRef) (method : String)
  | classTable
  | isSubclass (cls base : ClassRef)
  /-- Whether the receiver's class is a class or derives from it. -/
  | receiverIs (cls : String)
  | create (cls : ClassRef) (shape : Shape) (state : Expr) (unmanaged : Bool)
  | newObject (cls : String) (shape : Shape) (state : Expr)
  | destroy (object : Expr)
  | isDestroyed (object : Expr)
  | manage (object : Expr)
  | unmanage (object : Expr)
  | handleState (object : Expr)
  | inspect (object : Expr)
  | dup (object : Expr)
  | count (cls : ClassRef)
  | instanceCount (cls : ClassRef)
  | openStreams
  | reclaim
  | options
  | assign (target source : Expr)
  | equals (left right : Expr)
  | same (left right : Expr)
  | native (object : Expr) (type : String)
  | nativeSet (object : Expr) (type : String) (value : Expr)
  | remember (object : Expr) (name : String)
  | upgrade (name : String)
  /-- The object that a pair of integers refers to, if it is alive. -/
  | upgradePair (pair : Expr)
  | install (cls : ClassRef) (seat : String) (value : Expr)
  | occupant (cls : ClassRef) (seat : String)
  | call (call : Call)
  | callBase (object : Expr) (method : String) (args : List Expr)
      (keywords : List (String × Expr))
  | each (object : Expr) (method : String) (args : List Expr)
      (keywords : List (String × Expr)) (block : List Stmt)
  | eventSet (object : Expr) (event callable : String)
  | eventAdd (object : Expr) (event callable : String)
  | eventRemove (object : Expr) (event callable : String)
  | eventClear (object : Expr) (event : String)
  | eventCount (object : Expr) (event : String)
  | trigger (object : Expr) (event : String) (args : List Expr)

/-- Statements. -/
inductive Stmt where
  | perform (action : Action) (dest : Option String)
  /-- End the body with a value. -/
  | ret (value : Expr)
  /-- End the body with a value, and the iteration if the body is a block. -/
  | brk (value : Expr)
  | branch (condition : Expr) (yes no : List Stmt)

end

end ObjectBridge.Script

namespace ObjectBridge

/-- The statements of a body. -/
abbrev Code := List Script.Stmt

/-- What host code is made of: values that it took along, each under the name of the variable in
which its body finds it, and statements. -/
inductive Piece where
  | captured (name : String) (v : Value)
  | statement (stmt : Script.Stmt)

/-- Host code with an identity: two callables are the same when their serials agree. -/
structure Callable where
  serial : Nat
  pieces : List Piece

end ObjectBridge
