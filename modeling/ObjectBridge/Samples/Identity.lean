import ObjectBridge.Samples.Shorthand

/-!
# The sample classes with identity

`A` has attributes, a virtual method together with a native caller of it, a protected method that
an overridable one reveals, an enumerable method that counts, and an event that the setter of `a1`
triggers. `AChild` derives from it with a state type of its own, so the methods of `A` look at the
receiver's class before they look at its state.
-/

namespace ObjectBridge.Samples

open Script

/-- A signed enumeration of three bits. -/
def signedEnum : EnumType :=
  .declare "Enum" .int32 [("a", 1), ("b", 2), ("c", 4)]

/-- An unsigned enumeration of three bits. -/
def unsignedEnum : EnumType :=
  .declare "UEnum" .uint8 [("x", 1), ("y", 2), ("z", 4)]

/-- Constants that a class can include. -/
def flavors : Mixin where
  name := "Flavors"
  constants := [("SWEET", .int 1), ("SOUR", .int 2), ("VERSION", .text "mixin")]
  enums := [unsignedEnum]

namespace Identity

/-- The state of `A` is compared by its number alone. -/
def shape : Shape where
  name := "A"
  copies := true
  assigns := true
  comparison := .oneField "n"

/-- The state of `AChild` can only be copied. -/
def childShape : Shape where
  name := "AChild"
  copies := true

/-- The initial fields for a number. -/
def initial (n : Expr) : Expr :=
  fields [("n", n), ("flag", .lit (.bool false)), ("u", .lit (.uint 0))]

/-- Statements for the type of the receiver's state. -/
def onState (code : String → Code) : Code :=
  [.branch (result (.receiverIs "AChild")) (code "AChild") (code "A")]

/-- Yield a field. -/
def getter (field : String) : Code :=
  onState fun type => [.ret (.state type field)]

/-- Set a field. -/
def setter (field : String) (e : Expr) : Code :=
  onState fun type => [setState type field e]

/-- Declare the attributes. -/
def addAttributes (d : ClassDraft) : ClassDraft :=
  let d := d.addAttribute "a1" intTy (getter "n")
    (setter "n" (.argAs 0 .int32) ++
      onState fun type => [act (.trigger .receiver "a_changed" [.state type "n"])])
  let d := d.addAttribute "flag" .bool (getter "flag") (setter "flag" (.argAs 0 .bool))
  let u16 := Ty.int .uint16
  let d := d.addMethod "set_u16" (takes [param "v" u16]) (setter "u" (.argAs 0 .uint16))
  let d := d.addMethod "get_u16" (reads [] u16) (getter "u")
  d.addMethod "set_e" (takes [param "e" (.enum signedEnum)]) (setter "n" (.argAs 0 .int32))

/-- Declare the methods that overrides and natives call each other through. -/
def addVirtuals (d : ClassDraft) : ClassDraft :=
  let p := Ty.object "P"
  let x := [param "x" intTy]
  let d := d.addMethod "vfunc" { gives x intTy with isVirtual := true }
    [.ret (.primitive .add [.argAs 0 .int64, int 1])]
  let d := d.addMethod "call_vfunc" (gives x intTy)
    [.ret (result (call .receiver "vfunc" [.arg 0]))]
  let d := d.addMethod "vstore" { takes [param "p" p] with isVirtual := true } []
  let d := d.addMethod "vstore_ref" { takes [paramBy "p" p .ref] with isVirtual := true } []
  let d := d.addMethod "secret" { reads [] intTy with isProtected := true }
    (onState fun type => [.ret (.primitive .add [.state type "n", .state type "n"])])
  d.addMethod "reveal" { gives [] intTy with isVirtual := true }
    [.ret (result (call .receiver "secret" []))]

/-- The class `A`. -/
def draft : ClassDraft :=
  let count := Ty.int .uint64
  let d : ClassDraft := { name := "A" }
  let d := ((d.addConstant "VERSION" (.int 2)).addEnum signedEnum).addMixin flavors
  let d := d.addConstructor {} [.ret (initial (int 17))] shape
  let d := d.addConstructor (takes [param "n" intTy]) [.ret (initial (.argAs 0 .int32))] shape
  let d := d.addStatic "new_a" (gives [param "n" intTy] (.object "A"))
    [.ret (result (.newObject "A" shape (initial (.argAs 0 .int32))))]
  let d := d.addStatic "instance_count" (gives [] count)
    [.ret (result (.instanceCount (.named "A")))]
  let d := d.addStatic "live_iterators" (gives [] count) [.ret (result .openStreams)]
  let d := addVirtuals (addAttributes d)
  let d := d.addIterator "a_each" (reads [param "n" intTy] intTy)
    [.ret (.argAs 0 .int64)] .counting
  d.addEvent "a_changed" [param "value" intTy]

/-- The class `AChild`. -/
def childDraft : ClassDraft :=
  let d : ClassDraft := { name := "AChild", base := some "A" }
  let d := d.addConstructor {} [.ret (initial (int 17))] childShape
  d.addMethod "child_only" (reads [] .text) [.ret (.lit (.text "child"))]

end Identity

end ObjectBridge.Samples
