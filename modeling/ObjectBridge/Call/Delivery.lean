import ObjectBridge.Call.Arguments
import ObjectBridge.Lifetime.Native

/-!
# Delivery of arguments and results

Bound values are delivered to a body, and what the body leaves is delivered back.

| passing   | objects                 | other values                      |
|-----------|-------------------------|-----------------------------------|
| `T`       | copied                  | copied, never written back        |
| `T &`     | aliased                 | written back to a box, list, map  |
| `const T &` | seen through a const view | copied, never written back     |
| `T *`     | aliased, or nil         | written back to a box, list, map  |
| `const T *` | const view, or nil    | copied, never written back        |

* `prepare` does this for the arguments of a body, and `writeBack` for what the body made of them.
* Overrides receive what they may change in fresh boxes: `outward` makes them, `inward` reads them.
* `giveBack` delivers a result. A fresh object that nothing else uses is handed over as it is, any
  other one is copied or aliased as its kind of passing says.
-/

namespace ObjectBridge.Delivery

/-- Whether what a body makes of an argument is written back to the caller. -/
def isOutput (p : Param) : Bool :=
  p.passing.writesBack && !p.type.isObject

/-- Write back what a body made of its arguments. A box takes the value, a list or map is
replaced, and any other argument stays as it is. -/
def writeBack (cells : Cells) (args : CallArgs) :
    List (Param × Source × Value) → Cells × CallArgs
  | [] => (cells, args)
  | (p, source, v) :: rest =>
      if isOutput p then
        match args.given? source with
        | some (.box b) => writeBack (cells.setIfInBounds b v) args rest
        | some (.list _) | some (.map _) => writeBack cells (args.replace v source) rest
        | _ => writeBack cells args rest
      else writeBack cells args rest

/-- Write back after a call, and answer with the arguments as the caller then has them. -/
def settle (params : List Param) (sources : List Source) (updated : List Value)
    (args : CallArgs) : Run CallArgs := do
  let s ← get
  let (cells, args) := writeBack s.cells args (params.zip (sources.zip updated))
  set { s with cells := cells }
  return args

/-- A new box. -/
def newBox (content : Value) : Run Value := do
  let s ← get
  set { s with cells := s.cells.push content }
  return .box s.cells.size

/-- The arguments as an override receives them. -/
def outward : List Param → List Value → Run (List Value)
  | p :: params, v :: rest => do
      let sent ← if isOutput p then newBox v else pure v
      return sent :: (← outward params rest)
  | _, _ => return []

/-- What an override made of the arguments it received. -/
def inward (cells : Cells) : List Value → List Value → List Value
  | .box b :: sent, _ :: rest => cells.content b :: inward cells sent rest
  | _ :: sent, v :: rest => v :: inward cells sent rest
  | _, rest => rest

section Bodies

variable (exec : Exec)

/-- An object as a body receives it. -/
def prepareObject (passing : Passing) (h : Handle) : Run Value := do
  match passing with
  | .value => return .object (← Lifetime.dup exec h)
  | .constRef | .constPtr => return .object h.asConst
  | .ref | .ptr => return .object h

/-- The arguments as a native body receives them. Only an argument that is itself an object is
touched. -/
def prepare : List Param → List Value → Run (List Value)
  | p :: params, v :: rest => do
      let u ← Run.holding (v :: rest) <|
        match p.type, v with
        | .object _, .object h => prepareObject exec p.passing h
        | _, _ => pure v
      let us ← Run.holding [u] (prepare params rest)
      return u :: us
  | _, _ => return []

/-- Whether a handle is the only one for a managed object, and not const. -/
def isFresh (s : State) (i : Instance) (h : Handle) : Bool :=
  i.keep = .managed && !s.isConst h && !Arena.anchorHeld s.handles h.proxy.anchor

/-- Whether a handle is the only one with its proxy, for an object with identity. -/
def isSoleAlias (s : State) (h : Handle) : Bool :=
  (s.classes.get? h.cls).any (fun c => c.kind = .object) && !Arena.proxyHeld s.handles h.proxy

/-- A resulting object of a class as the caller receives it. A const result nobody else uses makes
its proxy const, and any other one is given by a const view. -/
def giveObject (cls : String) (passing : Passing) (h : Handle) (method : String) : Run Value := do
  let expected ← Run.ofExcept ((← get).classes.require cls)
  if !(← get).classes.isSubclassOf h.cls expected then
    Run.fail (.unexpectedValue cls h.className)
  let i ← Lifetime.resolve h method
  let s ← get
  match passing with
  | .value =>
      if isFresh s i h then return .object h
      else return .object (← Run.holding [.object h] (Lifetime.dup exec h))
  | .ref | .ptr => return .object (← Lifetime.issueFor h .nonConst)
  | .constRef | .constPtr =>
      if isSoleAlias s h then
        Run.setArena (s.arena.setConst h.proxy true)
        return .object h
      else return .object (← Lifetime.issueFor h .const)

/-- A result of a declared type as the caller receives it. The items of a list are delivered one by
one; all other values are converted. -/
def give (owner method : String) : Ty → Passing → Value → Run Value
  | .any, _, v => return v
  | .object cls, passing, v =>
      match v with
      | .object h => giveObject exec cls passing h method
      | .nil =>
          if passing.isNullable then return .nil
          else Run.fail (.nullReference "return value" owner method)
      | _ => converted (.object cls) v
  | .list item, passing, v =>
      match v with
      | .list items => return .list (← Run.mapHeld (give owner method item passing) items)
      | _ => converted (.list item) v
  | type, _, v => converted type v
where
  /-- A result that is converted like a copied argument. -/
  converted (type : Ty) (v : Value) : Run Value := do
    match Conversion.convert (← get).toWorld type .value v with
    | .ok (v, _) => return v
    | .error _ => Run.fail (.unexpectedValue type.name v.typeName)

/-- The result of a call as the caller receives it. -/
def giveBack (result : Result) (owner method : String) (v : Value) : Run Value :=
  match result with
  | none => return .nil
  | some (type, passing) => give exec owner method type passing v

end Bodies

end ObjectBridge.Delivery
