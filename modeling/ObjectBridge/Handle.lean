/-!
# Handles

A handle is what host code holds of a native object. It reaches the object in three steps:

* a `Reference` names a slot of the arena and the generation the slot had;
* an `Anchor` is one shared token per object, on which its life depends;
* a `Proxy` is one host-side identity of the object. Handles with one proxy share its const flag,
  which the arena keeps.

A handle adds a const view of its own. Anchors and proxies are told apart by serial numbers.
-/

namespace ObjectBridge

/-- The number of a class in the class table. -/
abbrev ClassId := Nat

/-- A slot of the arena and the generation of its occupant. A reference keeps nothing alive. -/
@[ext]
structure Reference where
  slot : Nat
  generation : UInt32
  deriving DecidableEq, Repr

/-- The token that all proxies of one object share. -/
structure Anchor where
  serial : Nat
  target : Reference
  deriving DecidableEq, Repr

/-- One host-side identity of an object, with the object's class. -/
structure Proxy where
  serial : Nat
  anchor : Anchor
  cls : ClassId
  className : String
  deriving DecidableEq, Repr

/-- A proxy, seen through a const view or not. -/
structure Handle where
  proxy : Proxy
  constView : Bool
  deriving DecidableEq, Repr

namespace Reference

/-- The text `slot.generation`. -/
def text (r : Reference) : String :=
  toString r.slot ++ "." ++ toString r.generation.toNat

end Reference

namespace Handle

/-- The slot and generation a handle was issued for. -/
def target (h : Handle) : Reference :=
  h.proxy.anchor.target

/-- The class of the object. -/
def cls (h : Handle) : ClassId :=
  h.proxy.cls

/-- The name of the class of the object. -/
def className (h : Handle) : String :=
  h.proxy.className

/-- The const view of the same proxy. -/
def asConst (h : Handle) : Handle :=
  { h with constView := true }

/-- Whether two handles name the same occupant of the same slot. -/
def sameObject (h k : Handle) : Bool :=
  h.target == k.target

/-- Whether two handles share their proxy. -/
def sameProxy (h k : Handle) : Bool :=
  h.proxy.serial == k.proxy.serial

end Handle

end ObjectBridge
