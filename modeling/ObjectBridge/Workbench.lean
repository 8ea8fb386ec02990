import ObjectBridge.Script.Interpreter

/-!
# An arena operated by hand

The workbench works on the arena and on seats directly, without classes. Its commands show what the
arena knows about an object and a handle, among them how many handles share the handle's proxy and
how many proxies share its anchor.
-/

namespace ObjectBridge.Workbench

open Script

/-- An object, by an expression or by a remembered reference. -/
inductive Target where
  | object (e : Expr)
  | remembered (name : String)

/-- What can be done at the workbench. -/
inductive Command where
  | register (cls : ClassId) (name : String) (kind : ClassKind) (keep : Keep) (n : Option Expr)
  | drop (name : String)
  | clone (object : Expr)
  | setConst (object : Expr) (isConst : Bool)
  | destroy (object : Expr)
  | destroyReference (object : Expr)
  | issue (target : Target) (c : Constness)
  | remember (object : Expr) (name : String)
  | describe (target : Target)
  | setField (object : Expr) (n : Expr)
  | resolve (object : Expr) (operation : String)
  | examine (object : Expr)
  | same (left right : Expr)
  | materialize (object : Expr) (n : Expr)
  | setKeep (object : Expr) (keep : Keep) (operation : String)
  | counts (cls : ClassId)
  | collectable
  | pair (target source : Expr)
  | install (seat : String) (object : Option Expr)
  | current (seat : String)
  | installed (seat : String)
  | addHandler (object : Expr) (event : String)
  | countHandlers (object : Expr) (event : String)

/-- A state with its one field. -/
def stateOf (v : Value) : NativeState :=
  ⟨.script, ValueMap.record [("n", v)]⟩

/-- How many handles in use share a proxy. -/
def proxyCount (held : List Handle) (h : Handle) : Nat :=
  held.countP fun k => k.sameProxy h

/-- How many proxies in use share an anchor. -/
def anchorCount (held : List Handle) (h : Handle) : Nat :=
  let serials := held.filterMap fun k =>
    if k.proxy.anchor.serial = h.proxy.anchor.serial then some k.proxy.serial else none
  serials.eraseDups.length

/-- A reference as a value. -/
def referenceText (r : Reference) : Value :=
  .text r.text

/-- The fields of an optional state. -/
def fieldsOf (state : Option NativeState) : Value :=
  (state.map fun s => Value.map s.fields).getD .nil

/-- The line that shows an object in diagnostics. -/
def debugLine (i : Instance) : String :=
  let flag (b : Bool) := if b then "true" else "false"
  "NativeInstance \x7b class: " ++ Text.quoted i.className ++ ", kind: " ++ i.kind.name ++
    ", keep: " ++ i.keep.name ++ ", materialized: " ++ flag i.isMaterialized ++
    ", overridden: " ++ flag i.overrides.isSome ++ ", .. \x7d"

/-- What the arena knows about an object. -/
def description (i : Instance) : Value :=
  .list [ClassTable.number i.cls, .text i.className, .bool i.isMaterialized, .text i.keep.name,
    .bool i.overrides.isSome, fieldsOf i.native, .text (debugLine i)]

/-- What a handle shows of itself, given that it is held once more than usual. -/
def examination (s : State) (h : Handle) : Value :=
  let held := s.handles
  let number := ClassTable.number
  .list [.text (Lifetime.handleText s.toWorld h), .text (s.arena.handleState h).name,
    .bool (s.arena.isDestroyed h), .bool (s.arena.isLive h.target),
    number (proxyCount held h - 1), number (anchorCount held h),
    .bool (s.arena.constProxies.contains h.proxy.serial), number h.target.slot,
    number h.target.generation.toNat]

/-- Overwrite one state with another, and show both before and after. -/
def overwrite (target source : Handle) : Run Value := do
  let s ← get
  match s.arena.pair? target.target source.target with
  | none => return .nil
  | some (x, y) =>
      let assigned := x.assignFrom? y
      let after := assigned.getD x
      Run.setArena (s.arena.setNative target.target after)
      let equal := ((after.equals? s.cells y).map Value.bool).getD .nil
      return .list [.map x.fields, .map y.fields, .bool assigned.isSome, .map after.fields, equal]

/-- The class of the number used for all seats of the workbench. -/
def seatClass : ClassId := 0

variable (I : Interpreter)

/-- The reference of a target, which stays in use meanwhile if it is an object. -/
def withReference (target : Target) (act : Reference → Run Value) : Run Value := do
  match target with
  | .object e => I.withObject e fun h => act h.target
  | .remembered name =>
      match (← get).references.lookup name with
      | some r => act r
      | none => return .nil

/-- Carry out a command. -/
def perform : Command → Run Value
  | .register cls name kind keep n => do
      let native ←
        match n with
        | none => pure none
        | some e => pure (some (stateOf (← I.eval e)))
      let h ← Lifetime.register {
        cls := cls, className := name, kind := kind, native := native, keep := keep,
        overrides := none }
      return .object h
  | .drop name => do
      dropVariable name
      return .nil
  | .clone e => I.withObject e fun h => return .object h
  | .setConst e isConst => I.withObject e fun h => do
      Run.setArena ((← get).arena.setConst h.proxy isConst)
      return .nil
  | .destroy e => I.withObject e fun h => do
      let (i, arena) ← Run.ofExcept ((← get).arena.destroy h)
      Run.setArena arena
      return .text i.className
  | .destroyReference e => I.withObject e fun h => do
      match (← get).arena.destroy? h.target with
      | none => return .nil
      | some (i, arena) =>
          Run.setArena arena
          return .text i.className
  | .issue target c => withReference I target fun r => do
      return Interpreter.orNil (← Lifetime.issue? [] r c)
  | .remember e name => I.withObject e fun h => do
      modify fun s => { s with references := put name h.target s.references }
      return referenceText h.target
  | .describe target => withReference I target fun r => do
      return (((← get).arena.get? r).map description).getD .nil
  | .setField e n => I.withObject e fun h => do
      let v ← I.eval n
      let arena := (← get).arena
      match (arena.get? h.target).bind Instance.native with
      | none => return .bool false
      | some state =>
          Run.setArena (arena.setNative h.target (state.setField "n" v))
          return .bool true
  | .resolve e operation => I.withObject e fun h => do
      return .text (← Lifetime.resolve h operation).className
  | .examine e => I.withObject e fun h => do
      return examination (← get) h
  | .same left right => I.withObjects left right fun h k => do
      return .list [.bool (h.sameObject k), .bool (h.sameProxy k)]
  | .materialize e n => I.withObject e fun h => do
      let v ← I.eval n
      Run.setArena (← Run.ofExcept ((← get).arena.materialize h.target (stateOf v)))
      return .nil
  | .setKeep e keep operation => I.withObject e fun h => do
      Run.setArena (← Run.ofExcept ((← get).arena.setKeep h keep operation))
      return .nil
  | .counts cls => do
      let arena := (← get).arena
      return .list [Interpreter.count (arena.instanceCount cls), Interpreter.count arena.live]
  | .collectable => do
      let s ← get
      return .list ((s.arena.collectable s.handles).map referenceText)
  | .pair target source => I.withObjects target source overwrite
  | .install name object => do
      let act (h : Option Handle) : Run Value := do
        let s ← get
        let (evicted, seat, arena) ←
          Run.ofExcept ((s.seat seatClass name).install s.arena h)
        set { s with seats := put (seatClass, name) seat s.seats, arena := arena }
        return (evicted.map fun i => Value.text i.className).getD .nil
      match object with
      | none => act none
      | some e => I.withObject e fun h => act (some h)
  | .current name => return Interpreter.orNil (← Lifetime.occupant seatClass name)
  | .installed name => do
      return (((← get).seat seatClass name).occupant.map referenceText).getD .nil
  | .addHandler e event => I.withObject e fun h => do
      let i ← Lifetime.resolve h "event_add"
      let s ← get
      let f : Callable := ⟨s.nextCallable, []⟩
      let handlers := Handlers.add ((i.handlers? event).getD []) f
      let arena := s.arena.modify h.target fun i => i.setHandlers event handlers
      set { s with nextCallable := s.nextCallable + 1, arena := arena }
      return .nil
  | .countHandlers e event => I.withObject e fun h => do
      let i ← Lifetime.resolve h "event_len"
      return ((i.handlers? event).map fun hs => ClassTable.number hs.length).getD .nil

end ObjectBridge.Workbench
