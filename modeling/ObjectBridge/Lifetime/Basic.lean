import ObjectBridge.Run

/-!
# The life of an object

Objects are registered when they are constructed, and removed by an explicit removal, by losing
their seat, or by a sweep. In between, handles are issued for them, and host code can freeze them
against sweeps or let sweeps take them.
-/

namespace ObjectBridge.Lifetime

/-- Store an object and issue its first handle. -/
def register (new : NewInstance) : Run Handle := do
  let (h, arena) ← Run.ofExcept ((← get).arena.register new)
  Run.setArena arena
  return h

/-- Store an object of a class with a native state, or with a deferred one. -/
def registerAs (c : ClassInfo) (native : Option NativeState) (keep : Keep)
    (overrides : Option Overrides) : Run Handle :=
  register {
    cls := c.id, className := c.name, kind := c.kind, native := native, keep := keep,
    overrides := overrides }

/-- Store an object with a native state that native code made. -/
def create (cls : ClassId) (native : NativeState) (keep : Keep) : Run Handle := do
  let s ← get
  let c ← Run.ofExcept (s.classes.descriptor cls)
  registerAs c (some native) keep (s.classes.overrides cls)

/-- The object of a handle, or an error that names the operation. -/
def resolve (h : Handle) (operation : String) : Run Instance := do
  Run.ofExcept ((← get).arena.resolve h operation)

/-- Issue another handle for the object of a reference, given handles that are in use besides the
ones in the state. -/
def issue? (inHand : List Handle) (r : Reference) (c : Constness) : Run (Option Handle) := do
  let s ← get
  match s.arena.issue (inHand ++ s.handles) r c with
  | none => return none
  | some (h, arena) =>
      Run.setArena arena
      return some h

/-- Issue another handle for the object of a handle that is about to be returned. -/
def issueFor (h : Handle) (c : Constness) : Run Handle := do
  Run.orFail (Arena.useAfterFree h "return") (← issue? [h] h.target c)

/-- Make a handle of a reference, if its object is still there. -/
def upgrade (r : Reference) : Run (Option Handle) :=
  issue? [] r .keep

/-- Remove the object of a handle. -/
def destroy (h : Handle) : Run Unit := do
  let (_, arena) ← Run.ofExcept ((← get).arena.destroy h)
  Run.setArena arena

/-- Let sweeps remove the object of a handle. -/
def manage (h : Handle) : Run Unit := do
  Run.setArena (← Run.ofExcept ((← get).arena.setKeep h .managed "_manage"))

/-- Keep sweeps from removing the object of a handle. -/
def unmanage (h : Handle) : Run Unit := do
  Run.setArena (← Run.ofExcept ((← get).arena.setKeep h .unmanaged "_unmanage"))

/-- How many objects of a class or of classes that derive from it have a native state. -/
def familyCount (s : State) (cls : ClassId) : Nat :=
  (s.classes.descendants cls).foldl (fun total id => total + s.arena.instanceCount id) 0

/-- The description of a handle and of its object's whereabouts. -/
def inspect (w : World) (h : Handle) : String :=
  "#<" ++ (if w.isConst h then "const " else "") ++ h.className ++ ":" ++ h.target.text ++
    (if w.arena.isDestroyed h then " (destroyed)" else "") ++ ">"

/-- The text of a handle alone. -/
def handleText (w : World) (h : Handle) : String :=
  "ObjectHandle(" ++ (if w.isConst h then "const " else "") ++ h.className ++ ":" ++
    h.target.text ++ ")"

/-- Seat an object in a class's seat, or nothing. -/
def install (cls : ClassId) (name : String) (next : Option Handle) : Run Unit := do
  let s ← get
  let (_, seat, arena) ← Run.ofExcept ((s.seat cls name).install s.arena next)
  set { s with seats := put (cls, name) seat s.seats, arena := arena }

/-- A handle for the object in a class's seat. -/
def occupant (cls : ClassId) (name : String) : Run (Option Handle) := do
  let s ← get
  match (s.seat cls name).current s.arena s.handles with
  | none => return none
  | some (h, arena) =>
      Run.setArena arena
      return some h

/-!
## Sweeps

A sweep removes the managed objects without a handle in use. The removal of an object lets go of
what its native state held, so a sweep goes on with another pass as long as there is something to
remove, but for at most `sweepPasses` passes. What a pass removes is settled at its start.

A sweep runs when it is asked for (`reclaim`), and by itself after a number of constructions
(`countConstruction`), though never while a body runs.
-/

/-- A sweep ends after this many passes. -/
def sweepPasses : Nat := 64

/-- Remove the objects of references, as far as they are still there, and count them. -/
def removeAll (a : Arena) (removed : Nat) : List Reference → Arena × Nat
  | [] => (a, removed)
  | r :: rest =>
      match a.destroy? r with
      | some (_, a) => removeAll a (removed + 1) rest
      | none => removeAll a removed rest

/-- Sweep until nothing is left to remove, for at most a number of passes. -/
def sweep : Nat → State → Nat → State × Nat
  | 0, s, removed => (s, removed)
  | passes + 1, s, removed =>
      match s.arena.collectable s.handles with
      | [] => (s, removed)
      | victims =>
          let (arena, removed) := removeAll s.arena removed victims
          sweep passes { s with arena := arena } removed

/-- Remove all managed objects that no handle uses, and tell how many there were. -/
def reclaim : Run Nat := do
  Run.tick
  let (s, removed) := sweep sweepPasses (← get) 0
  set { s with constructions := 0 }
  return removed

/-- Count a construction, and sweep when the threshold is reached. Nothing is swept, nor counted,
while any body runs. -/
def countConstruction : Run Unit := do
  let s ← get
  if s.options.autoReclaim = 0 ∨ !s.frames.isEmpty then
    return
  set { s with constructions := s.constructions + 1 }
  if s.options.autoReclaim ≤ s.constructions + 1 then
    let _ ← reclaim

end ObjectBridge.Lifetime
