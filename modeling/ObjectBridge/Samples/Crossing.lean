import ObjectBridge.Samples.Identity

/-!
# The sample class of crossings

`B` has a method for every way in which a value can cross: copies, references and pointers of
numbers, lists, maps and objects, keywords and overloads, texts and bytes, enumerations and flags.
Its state is the reference to an object, which keeps nothing alive.
-/

namespace ObjectBridge.Samples

open Script

namespace Crossing

/-- The state of `B` can be neither copied nor compared. -/
def shape : Shape where
  name := "B"

/-- Yield the argument plus one and set the argument to it. -/
def increment : Code :=
  [act (.setArg 0 (.primitive .add [.argAs 0 .int64, int 1])), .ret (.argAs 0 .int64)]

/-- Append a number to the list in the argument, and yield the length. -/
def push : Code :=
  [.branch (.primitive .present [.arg 0])
    [act (.setArg 0 (.primitive .append [.argAs 0 (.sequence .any), int 99])),
      .ret (.primitive .count [.arg 0])]
    [.ret (.lit (.uint 0))]]

/-- Declare the methods that change numbers. -/
def addNumbers (d : ClassDraft) : ClassDraft :=
  let v := paramBy "v" intTy
  let d := d.addMethod "inc_ref" (takes [v .ref])
    [act (.setArg 0 (.primitive .add [.argAs 0 .int64, int 1]))]
  let d := d.addMethod "inc_ptr" (gives [v .ptr] .bool)
    [.branch (.primitive .present [.argAs 0 (.option .int64)])
      [act (.setArg 0 (.primitive .add [.argAs 0 .int64, int 1])), .ret (.lit (.bool true))]
      [.ret (.lit (.bool false))]]
  let d := d.addMethod "inc_value" (gives [v .value] intTy) increment
  d.addMethod "inc_const" (gives [v .constRef] intTy) increment

/-- Declare the methods that change lists and maps. -/
def addContainers (d : ClassDraft) : ClassDraft :=
  let l := paramBy "l" (.list intTy)
  let d := d.addMethod "push_ref" (gives [l .ref] intTy) push
  let d := d.addMethod "push_ptr" (gives [l .ptr] intTy) push
  let d := d.addMethod "push_value" (gives [l .value] intTy) push
  let d := d.addMethod "push_const" (gives [l .constRef] intTy) push
  d.addMethod "map_ref" (takes [paramBy "m" (.map .text intTy) .ref])
    [act (.setArg 0 (.primitive .put [.argAs 0 .map, .lit (.text "k"), int 1]))]

/-- Declare the methods with keywords and overloads. -/
def addOverloads (d : ClassDraft) : ClassDraft :=
  let d := d.addMethod "method"
    (gives [param "a" intTy, param "s" .text, param "d" .double, paramOr "e" intTy (.int 0)]
      .text)
    [.ret (.primitive (.joined ":")
      [.argAs 0 .int64, .argAs 1 .text, .argAs 2 .double, .argAs 3 .int64])]
  let d := d.addMethod "method" (gives [param "s" .text] .text)
    [.ret (.primitive (.joined "") [.lit (.text "s:"), .argAs 0 .text])]
  let d := d.addMethod "kwargs"
    (gives [param "a" intTy, param "b" intTy, param "c" intTy, paramOr "d" .text (.text "x")]
      .text)
    [.ret (.primitive (.joined ",")
      [.argAs 0 .int64, .argAs 1 .int64, .argAs 2 .int64, .argAs 3 .text])]
  let overload (d : ClassDraft) (p : Param) (answer : String) : ClassDraft :=
    d.addMethod "over" (gives [p] .text) [.ret (.lit (.text answer))]
  let d := overload d (param "x" intTy) "int"
  let d := overload d (param "x" .double) "double"
  let d := overload d (param "s" .text) "string"
  overload d (paramBy "a" (.object "A") .constRef) "A"

/-- Declare the methods that take and yield objects. -/
def addObjects (d : ClassDraft) : ClassDraft :=
  let a := paramBy "a" (.object "A")
  let stored (passing : Passing) : Signature :=
    { result := some (.object "A", passing), isConst := true }
  let readStored : Code := [.ret (result (.upgradePair (.state "B" "stored")))]
  let d := d.addMethod "take_a" (gives [a .ref] intTy)
    [.ret (result (call (.argAs 0 .handle) "a1" []))]
  let d := d.addMethod "take_a_ptr" (gives [a .ptr] .bool)
    [.ret (.primitive .present [.arg 0])]
  let d := d.addMethod "take_a_value" (gives [a .value] intTy)
    [.perform (call (.argAs 0 .handle) "a1" []) (some "$before"),
      act (call (.argAs 0 .handle) "a1=" [int (-1)]), .ret (.var "$before")]
  let d := d.addMethod "mutate_const" (takes [a .constRef])
    [.ret (result (call (.argAs 0 .handle) "a1=" [int 0]))]
  let d := d.addMethod "destroy_a" (takes [a .ptr])
    [.branch (.primitive .present [.arg 0]) [act (.destroy (.argAs 0 .handle))] []]
  let d := d.addMethod "store_a" (takes [a .ptr])
    [setState "B" "stored" (.primitive .reference [.argAs 0 (.option .handle)])]
  let d := d.addMethod "stored_a" (stored .ptr) readStored
  let d := d.addMethod "stored_a_const" (stored .constPtr) readStored
  d.addMethod "stored_a_ref" (stored .ref) readStored

/-- Declare the methods that move points. -/
def addPoints (d : ClassDraft) : ClassDraft :=
  let p := Ty.object "P"
  let translate := call (.argAs 0 .handle) "translate" [.arg 1, .arg 1]
  let d := d.addMethod "shift" (takes [paramBy "p" p .ref, param "d" .double])
    [.ret (result translate)]
  d.addMethod "shift_copy" (gives [param "p" p, param "d" .double] p)
    [act translate, .ret (.argAs 0 .handle)]

/-- Declare the methods on texts, bytes and enumerations. -/
def addTexts (d : ClassDraft) : ClassDraft :=
  let count := Ty.int .uint64
  let u16 := Ty.int .uint16
  let flags := Ty.flags signedEnum
  let uflags := Ty.flags unsignedEnum
  let d := d.addMethod "byte_count" (reads [param "b" .bytes] count)
    [.ret (.primitive .count [.argAs 0 .bytes])]
  let d := d.addMethod "char_count" (reads [param "s" .text] count)
    [.ret (.primitive .count [.argAs 0 .text])]
  let d := d.addMethod "echo" (reads [param "s" .text] .text) [.ret (.arg 0)]
  let d := d.addMethod "u16_echo" (reads [param "v" u16] u16) [.ret (.arg 0)]
  let d := d.addMethod "enum_name" (reads [param "e" (.enum signedEnum)] .text)
    [.ret (.primitive .concat [.arg 0])]
  let d := d.addMethod "combine" (reads [param "x" flags, param "y" flags] flags)
    [.ret (.primitive .union [.arg 0, .arg 1])]
  d.addMethod "invert" (reads [param "f" uflags] uflags)
    [.ret (.primitive .complement [.arg 0])]

/-- The class `B`. -/
def draft : ClassDraft :=
  let d : ClassDraft := { name := "B" }
  let d := d.addConstructor {} [.ret (fields [("stored", .lit .nil)])] shape
  addTexts (addPoints (addObjects (addOverloads (addContainers (addNumbers d)))))

end Crossing

end ObjectBridge.Samples
