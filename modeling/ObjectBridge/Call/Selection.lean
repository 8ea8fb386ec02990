import ObjectBridge.Call.Arguments

/-!
# Selection of an overload

The overloads of a method are tried in order. The first one that takes the arguments without an
implicit conversion is selected, unless an argument turns out to be gone before; otherwise the first
one that takes them at all. `select` gives the overload's position together with the values of its
parameters, or the error that tells why nothing fits.

`search` is the loop behind it: it stops at an exact match, keeps the first match that needs a
conversion, and collects the rejections on its way.
-/

namespace ObjectBridge

/-- A selected overload by its position, with the values of its parameters and their sources. -/
structure Binding where
  index : Nat
  values : List Value
  sources : List Source

namespace Selection

/-- The error that lists the rejected candidates, by their positions, with the reasons. -/
def listing (w : World) (owner method : String) (signatures : List Signature)
    (rejected : List (Nat × Rejection)) : Error :=
  .overloadResolution owner method <| rejected.filterMap fun (i, r) =>
    signatures[i]?.map fun sig => ⟨sig.render w.cells method, r.reason⟩

/-- The error when no overload fits. A single candidate that was rejected because of a value is
reported by that value; if it was rejected for another reason, the rejection is put back. -/
def failure (w : World) (owner method : String) (signatures : List Signature)
    (rejected : List (Nat × Rejection)) : Error :=
  if signatures.length = 1 then
    match rejected.getLast? with
    | some (_, .mismatch position _ expected actual true) =>
        .typeMismatch expected actual position owner method
    | some (_, .mismatch position _ expected actual false) =>
        .conversion expected actual position owner method
    | some (_, .constObject _ _) => .constViolation owner method
    | some (_, reason) =>
        listing w owner method signatures (rejected.dropLast ++ [(0, reason)])
    | none => listing w owner method signatures rejected
  else listing w owner method signatures rejected

/-- Try the candidates from a position on. The first one before that takes the arguments with a
conversion is given, if there is one, and the rejections so far. -/
def search (w : World) (owner method : String) (signatures : List Signature) (args : CallArgs) :
    Nat → Option Binding → List (Nat × Rejection) → List Signature → Except Error Binding
  | _, some first, _, [] => .ok first
  | _, none, rejected, [] => .error (failure w owner method signatures rejected)
  | i, first?, rejected, sig :: rest =>
      match args.bind w sig.params with
      | .aborted cls => .error (.useAfterFree cls method)
      | .rejected r =>
          search w owner method signatures args (i + 1) first? (rejected ++ [(i, r)]) rest
      | .bound b =>
          let binding := ⟨i, b.values, b.sources⟩
          if b.cost = 0 then .ok binding
          else
            search w owner method signatures args (i + 1) (first?.or (some binding)) rejected rest

/-- Select an overload for arguments. -/
def select (w : World) (owner method : String) (signatures : List Signature) (args : CallArgs) :
    Except Error Binding :=
  search w owner method signatures args 0 none [] signatures

/-- Select one of some overloads together with its binding. -/
def pick (w : World) (owner method : String) (overloads : List Overload) (args : CallArgs) :
    Except Error (Overload × Binding) := do
  let binding ← select w owner method (overloads.map Overload.sig) args
  match overloads[binding.index]? with
  | some overload => return (overload, binding)
  | none => .error (.noSuchMethod owner method)

end Selection

end ObjectBridge
