import ObjectBridge.Class.Basic
import ObjectBridge.Error

/-!
# The arena of objects

Objects live in numbered slots. A slot has a generation, which moves on when its occupant is
removed, so a reference to a former occupant is recognised even after the slot is used again. Free
slots are used again last freed first. The arena also counts the objects of each class that have a
native state.

* `Arena.register`, `Arena.materialize` and `Arena.destroy?` are the steps in an object's life;
* `Arena.get?` is the object that a reference names, as long as it is there.

The arena holds no handles. It remembers the anchor and the proxy it issued last for an object, and
which proxies are const.
-/

namespace ObjectBridge

/-- Who may remove an object: a sweep, once nothing holds it, or nobody but an explicit removal. -/
inductive Keep where
  | managed
  | unmanaged
  deriving DecidableEq, Repr

namespace Keep

/-- The name of the ownership. -/
def name : Keep → String
  | managed => "Managed"
  | unmanaged => "Unmanaged"

end Keep

/-- An object in the arena. Its anchor and proxy are the ones issued last. -/
structure Instance where
  cls : ClassId
  className : String
  kind : ClassKind
  native : Option NativeState
  keep : Keep
  anchor : Anchor
  proxy : Proxy
  overrides : Option Overrides
  events : List (String × Handlers) := []

namespace Instance

/-- Whether the native state exists. -/
def isMaterialized (i : Instance) : Bool :=
  i.native.isSome

/-- The handlers of an event, if one was ever asked for. -/
def handlers? (i : Instance) (event : String) : Option Handlers :=
  i.events.lookup event

/-- Set the handlers of an event. -/
def setHandlers (i : Instance) (event : String) (hs : Handlers) : Instance :=
  { i with events := put event hs i.events }

/-- The values that the native state of an object, its overrides and its handlers hold. -/
def heldValues (i : Instance) : List Value :=
  (i.native.map fun state => Value.map state.fields).toList ++
    (i.overrides.map Overrides.values).getD [] ++ i.events.flatMap fun entry => entry.2.values

end Instance

/-- A slot. The generation tells apart the occupants that it had, as long as not all of the
generations are used up; `removals` counts the occupants that were removed without end, and no
operation reads it. -/
structure Slot where
  generation : UInt32 := 0
  occupant : Option Instance := none
  removals : Nat := 0

/-- What a new object is made of. Without a native state its construction is deferred. -/
structure NewInstance where
  cls : ClassId
  className : String
  kind : ClassKind
  native : Option NativeState
  keep : Keep
  overrides : Option Overrides

/-- The object that is stored, with the proxy of its first handle. -/
def NewInstance.stored (new : NewInstance) (p : Proxy) : Instance where
  cls := new.cls
  className := new.className
  kind := new.kind
  native := new.native
  keep := new.keep
  anchor := p.anchor
  proxy := p
  overrides := new.overrides

/-- The slots, the free ones among them, the counts of objects with a native state by class, the
number of objects, the serials to be given next and the proxies that are const. -/
structure Arena where
  slots : Array Slot := #[]
  free : List Nat := []
  counts : List (ClassId × Nat) := []
  live : Nat := 0
  nextAnchor : Nat := 0
  nextProxy : Nat := 0
  constProxies : List Nat := []

namespace Arena

/-- The object a reference names, if it is still there. -/
def get? (a : Arena) (r : Reference) : Option Instance :=
  match a.slots[r.slot]? with
  | some slot => if slot.generation = r.generation then slot.occupant else none
  | none => none

/-- Whether the object of a reference is still there. -/
def isLive (a : Arena) (r : Reference) : Bool :=
  (a.get? r).isSome

/-- Whether the object of a handle is gone. -/
def isDestroyed (a : Arena) (h : Handle) : Bool :=
  !a.isLive h.target

/-- The failure to reach an object through a handle. -/
def useAfterFree (h : Handle) (operation : String) : Error :=
  .useAfterFree h.className operation

/-- The object of a handle, or an error that names the operation. -/
def resolve (a : Arena) (h : Handle) (operation : String) : Except Error Instance :=
  match a.get? h.target with
  | some i => .ok i
  | none => .error (useAfterFree h operation)

/-- Change the occupant of a slot. -/
def setOccupant (a : Arena) (slot : Nat) (i : Instance) : Arena :=
  { a with slots := a.slots.modify slot fun s => { s with occupant := some i } }

/-- Change the object of a reference, if it is still there. -/
def modify (a : Arena) (r : Reference) (f : Instance → Instance) : Arena :=
  match a.get? r with
  | some i => a.setOccupant r.slot (f i)
  | none => a

/-- How many objects of exactly a class have a native state. -/
def instanceCount (a : Arena) (cls : ClassId) : Nat :=
  (a.counts.lookup cls).getD 0

/-- Count one object of a class more. -/
def countUp (a : Arena) (cls : ClassId) : List (ClassId × Nat) :=
  put cls (a.instanceCount cls + 1) a.counts

/-- Count one object of a class less. -/
def countDown (a : Arena) (cls : ClassId) : List (ClassId × Nat) :=
  put cls (a.instanceCount cls - 1) a.counts

/-- The slot for a new object, and the arena without it among the free ones. -/
def takeSlot (a : Arena) : Except Error (Nat × Arena) :=
  match a.free with
  | slot :: rest => .ok (slot, { a with free := rest })
  | [] =>
      let slot := a.slots.size
      if slot < UInt32.size then .ok (slot, { a with slots := a.slots.push {} })
      else .error (.native "instance table overflow")

/-- The first handle of a new object, which is not const. -/
def firstHandle (a : Arena) (new : NewInstance) (r : Reference) : Handle :=
  ⟨⟨a.nextProxy, ⟨a.nextAnchor, r⟩, new.cls, new.className⟩, false⟩

/-- Store an object and issue its first handle. -/
def register (a : Arena) (new : NewInstance) : Except Error (Handle × Arena) := do
  let (slot, a) ← a.takeSlot
  match a.slots[slot]? with
  | none => .error (.native "instance slot out of range")
  | some entry =>
      let h := a.firstHandle new ⟨slot, entry.generation⟩
      let counts := if new.native.isSome then a.countUp new.cls else a.counts
      return (h, {
        a.setOccupant slot (new.stored h.proxy) with
        counts := counts, live := a.live + 1
        nextAnchor := a.nextAnchor + 1, nextProxy := a.nextProxy + 1 })

/-- Give a deferred object its native state. An object that has one already keeps it. -/
def materialize (a : Arena) (r : Reference) (state : NativeState) : Except Error Arena :=
  match a.get? r with
  | none => .error (.native "cannot materialize a destroyed instance")
  | some i =>
      if i.isMaterialized then .ok a
      else
        .ok { a.setOccupant r.slot { i with native := some state } with
          counts := a.countUp i.cls }

/-- Remove the object of a reference, if it is still there. -/
def destroy? (a : Arena) (r : Reference) : Option (Instance × Arena) :=
  match a.get? r with
  | none => none
  | some i =>
      let slots := a.slots.modify r.slot fun s => ⟨s.generation + 1, none, s.removals + 1⟩
      let counts := if i.isMaterialized then a.countDown i.cls else a.counts
      some (i, { a with
        slots := slots, free := r.slot :: a.free, counts := counts, live := a.live - 1 })

/-- Remove the object of a handle. -/
def destroy (a : Arena) (h : Handle) : Except Error (Instance × Arena) :=
  match a.destroy? h.target with
  | some removed => .ok removed
  | none => .error (useAfterFree h "destroy")

/-- Set who may remove the object of a handle. -/
def setKeep (a : Arena) (h : Handle) (keep : Keep) (operation : String) : Except Error Arena := do
  let i ← a.resolve h operation
  return a.setOccupant h.target.slot { i with keep := keep }

/-- The native states of two objects in different slots. -/
def pair? (a : Arena) (target source : Reference) : Option (NativeState × NativeState) :=
  if target.slot = source.slot then none
  else
    match a.get? target, a.get? source with
    | some t, some s =>
        match t.native, s.native with
        | some x, some y => some (x, y)
        | _, _ => none
    | _, _ => none

/-- Replace the native state of an object. -/
def setNative (a : Arena) (r : Reference) (state : NativeState) : Arena :=
  a.modify r fun i => { i with native := some state }

/-- The values that the objects in the arena hold. -/
def heldValues (a : Arena) : List Value :=
  a.slots.toList.flatMap fun s =>
    match s.occupant with
    | some i => i.heldValues
    | none => []

end Arena

end ObjectBridge
