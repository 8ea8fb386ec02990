import ObjectBridge.Call.Delivery
import ObjectBridge.Call.Selection
import ObjectBridge.Lifetime.Basic

/-!
# Construction

An object is constructed by the constructor that fits the arguments, among those of the nearest
class that declares any. Without any argument, a deferred constructor takes precedence: the object
is then registered without a native state.
-/

namespace ObjectBridge.Construction

variable (exec : Exec)

/-- Run a constructor, and answer with the state it yields and the arguments it leaves. -/
def runConstructor (owner : String) (overload : Overload) (values : List Value) :
    Run (NativeState × List Value) := do
  let values ← Delivery.prepare exec overload.sig.params values
  match overload.body with
  | .constructor code shape =>
      let body ← Lifetime.runNative exec none values code
      return (← Run.ofExcept (Lifetime.stateOf shape body), body.args)
  | _ => Run.fail (.native (owner ++ "::new is not a constructor"))

/-- Construct an object with arguments, and answer with the arguments as the caller then has
them. The overrides are those of the class at the beginning. -/
def constructWith (c : ClassInfo) (args : CallArgs) : Run (Handle × CallArgs) := do
  let s ← get
  let overrides := s.classes.overrides c.id
  let captured := (overrides.map Overrides.values).getD []
  let candidates ← Run.orFail (.noSuchMethod c.name "new") (s.classes.findConstructors c.id)
  let (overload, binding) ← Run.ofExcept
    (Selection.pick s.toWorld candidates.owner "new" candidates.overloads args)
  let (state, updated) ← Run.holding (args.values ++ captured)
    (runConstructor exec candidates.owner overload binding.values)
  let args ← Delivery.settle overload.sig.params binding.sources updated args
  Run.holding (.map state.fields :: args.values ++ updated ++ captured) Lifetime.countConstruction
  let h ← Lifetime.registerAs c (some state) .managed overrides
  return (h, args)

/-- Construct an object of a class. -/
def construct (cls : ClassId) (args : CallArgs) : Run (Handle × CallArgs) := do
  let classes := (← get).classes
  let c ← Run.ofExcept (classes.descriptor cls)
  if args.isEmpty && (classes.findLazy cls).isSome then
    let overrides := classes.overrides cls
    Run.holding ((overrides.map Overrides.values).getD []) Lifetime.countConstruction
    return (← Lifetime.registerAs c none .managed overrides, args)
  else constructWith exec c args

end ObjectBridge.Construction
