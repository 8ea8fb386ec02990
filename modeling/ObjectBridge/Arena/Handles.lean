import ObjectBridge.Arena.Basic

/-!
# Handles for the objects of the arena

Whether an anchor or a proxy is still in use is found out by looking at the handles that exist,
which the caller passes as `held`:

* `Arena.issue` issues another handle for an object, with its proxy if that is still in use;
* `Arena.collectable` lists the managed objects whose anchor is not in use any more.
-/

namespace ObjectBridge

/-- What a handle shows of its object's life. -/
inductive HandleState where
  | managed
  | unmanaged
  | constRef
  | detached
  deriving DecidableEq, Repr

/-- The const flag asked for when a handle is issued. -/
inductive Constness where
  | const
  | nonConst
  | keep
  deriving DecidableEq, Repr

namespace HandleState

/-- The name of the state. -/
def name : HandleState → String
  | managed => "Managed"
  | unmanaged => "Unmanaged"
  | constRef => "ConstRef"
  | detached => "Detached"

end HandleState

namespace Arena

/-- Whether a handle forbids changes: by its own view or by the flag of its proxy. -/
def isConst (a : Arena) (h : Handle) : Bool :=
  h.constView || a.constProxies.contains h.proxy.serial

/-- Set the const flag of a proxy. -/
def setConst (a : Arena) (p : Proxy) (isConst : Bool) : Arena :=
  let others := a.constProxies.filter fun serial => serial != p.serial
  { a with constProxies := if isConst then p.serial :: others else others }

/-- What a handle shows of its object's life. -/
def handleState (a : Arena) (h : Handle) : HandleState :=
  match a.get? h.target with
  | none => .detached
  | some i =>
      if a.isConst h then .constRef
      else
        match i.keep with
        | .managed => .managed
        | .unmanaged => .unmanaged

/-- Whether some handle uses an anchor. -/
def anchorHeld (held : List Handle) (anchor : Anchor) : Bool :=
  held.any fun h => h.proxy.anchor.serial == anchor.serial

/-- Whether some handle uses a proxy. -/
def proxyHeld (held : List Handle) (p : Proxy) : Bool :=
  held.any fun h => h.proxy.serial == p.serial

/-- Issue a handle with a new proxy, on the anchor in use or on a new one. -/
def issueFresh (a : Arena) (held : List Handle) (r : Reference) (i : Instance)
    (isConst : Bool) : Handle × Arena :=
  let inUse := anchorHeld held i.anchor
  let anchor := if inUse then i.anchor else ⟨a.nextAnchor, r⟩
  let proxy : Proxy := ⟨a.nextProxy, anchor, i.cls, i.className⟩
  let i := { i with anchor := anchor, proxy := if i.kind = .object then proxy else i.proxy }
  let a := { a.setOccupant r.slot i with
    nextAnchor := if inUse then a.nextAnchor else a.nextAnchor + 1
    nextProxy := a.nextProxy + 1 }
  (⟨proxy, false⟩, if isConst then a.setConst proxy true else a)

/-- Issue a handle for an object. An object with identity gets the proxy it has, as long as a
handle uses it: then a const handle is a view of it, and a non-const one clears the proxy's flag.
Otherwise the proxy is new. -/
def issue (a : Arena) (held : List Handle) (r : Reference) (c : Constness) :
    Option (Handle × Arena) :=
  match a.get? r with
  | none => none
  | some i =>
      if i.kind = .object ∧ proxyHeld held i.proxy then
        let h : Handle := ⟨i.proxy, false⟩
        match c with
        | .const => some (if a.isConst h then h else h.asConst, a)
        | .nonConst => some (h, a.setConst i.proxy false)
        | .keep => some (h, a)
      else some (a.issueFresh held r i (c = .const))

/-- The references of the slots from a number on whose objects a sweep may remove. -/
def collectableFrom (held : List Handle) : Nat → List Slot → List Reference
  | _, [] => []
  | number, s :: rest =>
      match s.occupant with
      | some i =>
          if i.keep = .managed ∧ ¬anchorHeld held i.anchor then
            ⟨number, s.generation⟩ :: collectableFrom held (number + 1) rest
          else collectableFrom held (number + 1) rest
      | none => collectableFrom held (number + 1) rest

/-- The managed objects that no handle uses, in the order of their slots. -/
def collectable (a : Arena) (held : List Handle) : List Reference :=
  collectableFrom held 0 a.slots.toList

end Arena

/-!
## Seats

A seat holds at most one object and owns it. Seating another object removes the one before, as
long as that one is still the object that was seated; leaving the seat empty removes it too.
Seating the object that sits there already changes nothing.
-/

/-- The object that was seated last, alive or not. -/
structure Seat where
  occupant : Option Reference := none
  deriving DecidableEq, Repr

namespace Seat

/-- Remove the object that was seated, if it is still there. -/
def evict (s : Seat) (a : Arena) : Option Instance × Arena :=
  match s.occupant.bind a.destroy? with
  | some (i, a) => (some i, a)
  | none => (none, a)

/-- Seat an object, or nothing. Answers with the object removed. -/
def install (s : Seat) (a : Arena) (next : Option Handle) :
    Except Error (Option Instance × Seat × Arena) :=
  match next with
  | none =>
      let (evicted, a) := s.evict a
      .ok (evicted, ⟨none⟩, a)
  | some h =>
      if s.occupant = some h.target then .ok (none, s, a)
      else do
        let a ← a.setKeep h .unmanaged "install"
        let (evicted, a) := s.evict a
        return (evicted, ⟨some h.target⟩, a)

/-- A handle for the object in the seat, if it is still there. -/
def current (s : Seat) (a : Arena) (held : List Handle) : Option (Handle × Arena) :=
  s.occupant.bind fun r => a.issue held r .nonConst

end Seat

end ObjectBridge
