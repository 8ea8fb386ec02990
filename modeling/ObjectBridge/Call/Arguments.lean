import ObjectBridge.Conversion

/-!
# Arguments and their binding to parameters

A call gives positional values and values by keyword. Positional values fill the parameters from
the left, keywords fill parameters by name, and defaults fill what is left. Every value is then
converted to the declared type of its parameter.

`CallArgs.bind` does this for one list of parameters. It has three outcomes: the parameters are
bound, the arguments do not fit, or an argument is an object that is gone, in which case no other
parameter list is worth a try.
-/

namespace ObjectBridge

/-- The arguments of a call. -/
structure CallArgs where
  positional : List Value := []
  keywords : List (String × Value) := []

/-- Where the value of a parameter comes from; positions count from zero. -/
inductive Source where
  | positional (index : Nat)
  | keyword (index : Nat)
  | default
  deriving DecidableEq, Repr

/-- Why arguments do not fit parameters; positions count from one. -/
inductive Rejection where
  /-- There are more positional values than parameters. -/
  | tooMany (given limit : Nat)
  /-- No parameter has the name. -/
  | unknownKeyword (name : String)
  /-- A parameter is given by position and by keyword. -/
  | givenTwice (position : Nat) (name : String)
  /-- A parameter is given by two keywords. -/
  | repeatedKeyword (name : String)
  /-- A required parameter is not given, and whether that is so for all that follow. -/
  | missing (position : Nat) (following : Bool)
  /-- A value has another type than its parameter, which may be an object type. -/
  | mismatch (position : Nat) (name expected actual : String) (object : Bool)
  /-- A const object is given for a parameter through which it may be changed. -/
  | constObject (position : Nat) (name : String)
  deriving DecidableEq, Repr

/-- The values of the parameters, where they come from, and the number of implicit conversions. -/
structure Bound where
  values : List Value
  sources : List Source
  cost : Nat

/-- What becomes of binding arguments to parameters. -/
inductive Outcome where
  | bound (b : Bound)
  | rejected (r : Rejection)
  /-- An argument is an object of the class that is gone. -/
  | aborted (cls : String)

namespace Rejection

/-- The beginning of a reason about one argument. -/
def about (position : Nat) (name : String) : String :=
  "argument #" ++ Text.naturalText position ++ " (" ++ name ++ ")"

/-- The reason as diagnostics give it. -/
def reason : Rejection → String
  | tooMany given limit =>
      "too many arguments: " ++ Text.naturalText given ++ " given, at most " ++
        Text.naturalText limit ++ " expected"
  | unknownKeyword name => "unknown keyword parameter: " ++ name
  | givenTwice position name => about position name ++ " given both positionally and by keyword"
  | repeatedKeyword name => "keyword parameter " ++ name ++ " given more than once"
  | missing position following =>
      "no value given for argument #" ++ Text.naturalText position ++
        if following then " and following" else ""
  | mismatch position name expected actual true =>
      about position name ++ ": expected object of class " ++ expected ++ ", got " ++ actual
  | mismatch position name expected actual false =>
      about position name ++ ": cannot convert " ++ actual ++ " to " ++ expected
  | constObject position name =>
      about position name ++ ": const object passed to non-const reference"

end Rejection

namespace CallArgs

/-- Whether no argument is given at all. -/
def isEmpty (args : CallArgs) : Bool :=
  args.positional.isEmpty && args.keywords.isEmpty

/-- The values given, positional ones first. -/
def values (args : CallArgs) : List Value :=
  args.positional ++ args.keywords.map Prod.snd

/-- The value given at a source. -/
def given? (args : CallArgs) : Source → Option Value
  | .positional i => args.positional[i]?
  | .keyword i => args.keywords[i]?.map Prod.snd
  | .default => none

/-- Replace the value given at a source. -/
def replace (args : CallArgs) (v : Value) : Source → CallArgs
  | .positional i => { args with positional := args.positional.set i v }
  | .keyword i =>
      { args with keywords := args.keywords.modify i fun (name, _) => (name, v) }
  | .default => args

/-- The sources of the parameters from a position on, as far as positional values reach. -/
def positionalSources (given : Nat) : Nat → List Param → List (Option Source)
  | _, [] => []
  | i, _ :: rest =>
      (if i < given then some (.positional i) else none) :: positionalSources given (i + 1) rest

/-- Let the keywords from a number on fill parameters. -/
def placeKeywords (params : List Param) (sources : List (Option Source)) (number : Nat) :
    List String → Except Rejection (List (Option Source))
  | [] => .ok sources
  | name :: rest =>
      match params.findIdx? fun p => p.name == name with
      | none => .error (.unknownKeyword name)
      | some i =>
          match sources.getD i none with
          | some (.positional _) => .error (.givenTwice (i + 1) name)
          | some _ => .error (.repeatedKeyword name)
          | none =>
              placeKeywords params (sources.set i (some (.keyword number))) (number + 1) rest

/-- The first required parameter without a source. -/
def missing? (params : List Param) (sources : List (Option Source)) : Option Rejection :=
  let unfilled := fun (p, source) => Option.isNone source && Param.isRequired p
  (params.zip sources).findIdx? unfilled |>.map fun i =>
    .missing (i + 1) (!(sources.drop (i + 1)).any Option.isSome)

/-- Find a source for every parameter. -/
def findSources (args : CallArgs) (params : List Param) : Except Rejection (List Source) := do
  let given := args.positional.length
  if params.length < given then
    .error (.tooMany given params.length)
  let sources ←
    placeKeywords params (positionalSources given 0 params) 0 (args.keywords.map Prod.fst)
  match missing? params sources with
  | some r => .error r
  | none => return sources.map fun source => source.getD .default

/-- The value at a source before it is converted. -/
def raw (args : CallArgs) (p : Param) : Source → Value
  | .default => p.default?.getD .nil
  | source => (args.given? source).getD .nil

/-- Convert the values for the parameters from a position on. -/
def convertAll (w : World) (args : CallArgs) (position : Nat) :
    List (Param × Source) → Outcome
  | [] => .bound ⟨[], [], 0⟩
  | (p, source) :: rest =>
      match Conversion.convert w p.type p.passing (args.raw p source) with
      | .error (.destroyed cls) => .aborted cls
      | .error .constObject => .rejected (.constObject position p.name)
      | .error (.mismatch expected actual) =>
          .rejected (.mismatch position p.name expected actual p.type.isObject)
      | .ok (v, cost) =>
          match convertAll w args (position + 1) rest with
          | .bound b => .bound ⟨v :: b.values, source :: b.sources, cost + b.cost⟩
          | failure => failure

/-- Bind arguments to parameters. -/
def bind (w : World) (args : CallArgs) (params : List Param) : Outcome :=
  match args.findSources params with
  | .error r => .rejected r
  | .ok sources => convertAll w args 1 (params.zip sources)

end CallArgs

end ObjectBridge
