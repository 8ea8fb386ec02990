import ObjectBridge.Text.Basic

/-!
# Floating-point numbers and their shortest decimal text

A finite number is a whole significand times a power of two. `Parts.of` takes the 64 bits apart;
`truncated` is the whole part of the value, and `ofInteger64` and `ofNatural64` go back to the
nearest floating-point number.

A number is written with the fewest digits that read back as the same number; of two candidates
with that many digits the nearer one is taken, and the larger one when both are equally near. The
digits are always positional: no exponent is written, and a whole number has no decimal point.
-/

namespace ObjectBridge.Decimal

/-! ## Exact values -/

/-- Sign, significand and exponent of a finite number, whose size is
`significand * 2 ^ exponent`. `atBoundary` says that the next smaller number is only half as far
away as the next larger one. -/
structure Parts where
  negative : Bool
  significand : Nat
  exponent : Int
  atBoundary : Bool
  deriving DecidableEq, Repr

/-- What 64 bits stand for. -/
inductive Reading where
  | finite (parts : Parts)
  | infinite (negative : Bool)
  | notANumber
  deriving DecidableEq, Repr

/-- Take the 64 bits of a number apart. -/
def Reading.ofBits (bits : Nat) : Reading :=
  let negative : Bool := decide (Nat.pow 2 63 ≤ bits)
  let fraction : Nat := bits % Nat.pow 2 52
  let biased : Nat := bits / Nat.pow 2 52 % Nat.pow 2 11
  if biased = 2047 then
    if fraction = 0 then .infinite negative else .notANumber
  else if biased = 0 then .finite ⟨negative, fraction, -1074, false⟩
  else
    .finite
      ⟨negative, fraction + Nat.pow 2 52, (biased : Int) - 1075, fraction = 0 && 1 < biased⟩

/-- The reading of a floating-point number. -/
def Reading.of (x : Float) : Reading :=
  Reading.ofBits x.toBits.toNat

/-- The whole part of a finite number. -/
def Parts.truncated (p : Parts) : Int :=
  let size :=
    if 0 ≤ p.exponent then p.significand * Nat.pow 2 p.exponent.toNat
    else p.significand / Nat.pow 2 (-p.exponent).toNat
  if p.negative then -(size : Int) else size

/-- The whole part of a number, if it is finite. -/
def truncated? (x : Float) : Option Int :=
  match Reading.of x with
  | .finite parts => some parts.truncated
  | _ => none

/-- The floating-point number nearest to an unsigned word. -/
def ofNatural64 (n : UInt64) : Float :=
  n.toFloat

/-- The floating-point number nearest to a signed word. -/
def ofInteger64 (n : Int64) : Float :=
  if n.toInt < 0 then -(UInt64.ofNat n.toInt.natAbs).toFloat
  else (UInt64.ofNat n.toInt.natAbs).toFloat

/-! ## Shortest text -/

/-- How many decimal digits a natural number has. -/
def digitCount (n : Nat) : Nat :=
  (Nat.toDigits 10 n).length

/-- The decimal exponent of the first digit of a nonzero size. Every nonzero size is at least
`10 ^ -400`, so scaling by `10 ^ 400` keeps the first digit. -/
def leadingExponent (p : Parts) : Int :=
  let scaled :=
    if 0 ≤ p.exponent then p.significand * Nat.pow 2 p.exponent.toNat * Nat.pow 10 400
    else p.significand * Nat.pow 10 400 / Nat.pow 2 (-p.exponent).toNat
  (digitCount scaled : Int) - 401

/-- The multiple of `10 ^ step` that reads back as the number and is nearest to it, if one does.
All sizes are compared as whole multiples of `2 ^ (exponent - 2)` scaled by a common factor. -/
def onGrid? (p : Parts) (step : Int) : Option Nat :=
  let unit := p.exponent - 2
  let gridScale := Nat.pow 10 step.toNat * Nat.pow 2 (-unit).toNat
  let binaryScale := Nat.pow 2 unit.toNat * Nat.pow 10 (-step).toNat
  let exact := 4 * p.significand * binaryScale
  let low := (4 * p.significand - (if p.atBoundary then 1 else 2)) * binaryScale
  let high := (4 * p.significand + 2) * binaryScale
  let even := p.significand % 2 = 0
  let below := exact / gridScale
  let above := below + 1
  let belowReads := if even then low ≤ below * gridScale else low < below * gridScale
  let aboveReads := if even then above * gridScale ≤ high else above * gridScale < high
  if belowReads ∧ aboveReads then
    if exact - below * gridScale < above * gridScale - exact then some below else some above
  else if belowReads then some below
  else if aboveReads then some above
  else none

/-- Try grids of one digit more each, from the step given, at most `fuel` of them. -/
def shortestFrom (p : Parts) : Nat → Int → Nat × Int
  | 0, step => (0, step)
  | fuel + 1, step =>
      match onGrid? p step with
      | some digits => (digits, step)
      | none => shortestFrom p fuel (step - 1)

/-- The shortest digits and the power of ten they are counted in. The search starts above the
first digit, since a number just below a power of ten may be written as that power. Seventeen
digits always read back. -/
def shortest (p : Parts) : Nat × Int :=
  shortestFrom p 19 (leadingExponent p + 1)

/-- Digits in a power of ten, written positionally. -/
def positional (digits : List Char) (step : Int) : List Char :=
  if 0 ≤ step then digits ++ List.replicate step.toNat '0'
  else
    let places := (-step).toNat
    if digits.length ≤ places then
      '0' :: '.' :: List.replicate (places - digits.length) '0' ++ digits
    else
      digits.take (digits.length - places) ++ '.' :: digits.drop (digits.length - places)

/-- The text of the size of a finite number. -/
def sizeText (p : Parts) : List Char :=
  if p.significand = 0 then ['0']
  else
    let (digits, step) := shortest p
    positional (Nat.toDigits 10 digits) step

/-- The text of a floating-point number. -/
def floatText (x : Float) : String :=
  match Reading.of x with
  | .notANumber => "NaN"
  | .infinite negative => if negative then "-inf" else "inf"
  | .finite p => String.ofList (if p.negative then '-' :: sizeText p else sizeText p)

end ObjectBridge.Decimal
