/-!
# Texts

Blanks at the ends of a text, the pieces between separators, and decimal integers.  Blanks are the characters with the
Unicode property `White_Space`.

A decimal integer is an optional sign, then one or more ASCII digits.  The main reader is `payload?`: a number that
fits a signed 64-bit word is taken as it is, a larger one that fits an unsigned word is taken as the same 64 bits.
-/

namespace ObjectBridge.Text

/-! ## Blanks and pieces -/

/-- The characters with the property `White_Space`. -/
def isBlank (c : Char) : Bool :=
  let n := c.toNat
  (9 ≤ n && n ≤ 13) || n == 32 || n == 0x85 || n == 0xA0 || n == 0x1680 ||
    (0x2000 ≤ n && n ≤ 0x200A) || n == 0x2028 || n == 0x2029 || n == 0x202F ||
    n == 0x205F || n == 0x3000

/-- Drop the blanks in front. -/
def trimFront (cs : List Char) : List Char :=
  cs.dropWhile isBlank

/-- Drop the blanks at both ends. -/
def trimChars (cs : List Char) : List Char :=
  (trimFront (trimFront cs).reverse).reverse

/-- Drop the blanks at both ends of a text. -/
def trim (s : String) : String :=
  String.ofList (trimChars s.toList)

/-- The pieces between the occurrences of a separator; never the empty list. -/
def splitChars (sep : Char) : List Char → List (List Char)
  | [] => [[]]
  | c :: rest =>
      if c = sep then [] :: splitChars sep rest
      else
        match splitChars sep rest with
        | [] => [[c]]
        | piece :: pieces => (c :: piece) :: pieces

/-- Texts joined with a separator between two neighbours. -/
def join (sep : String) : List String → String
  | [] => ""
  | [s] => s
  | s :: rest => s ++ sep ++ join sep rest

/-! ## Decimal integers -/

/-- The value of an ASCII digit. -/
def digit? (c : Char) : Option Nat :=
  if '0' ≤ c ∧ c ≤ '9' then some (c.toNat - '0'.toNat) else none

/-- Read digits behind a number already read; `none` at the first other character. -/
def digitsOnto? (acc : Nat) : List Char → Option Nat
  | [] => some acc
  | c :: rest => do digitsOnto? (acc * 10 + (← digit? c)) rest

/-- Read one or more digits. -/
def natural? : List Char → Option Nat
  | [] => none
  | cs => digitsOnto? 0 cs

/-- Read an optional sign and one or more digits. -/
def integer? : List Char → Option Int
  | '-' :: rest => (natural? rest).map fun n => -(n : Int)
  | '+' :: rest => (natural? rest).map fun n => (n : Int)
  | cs => (natural? cs).map fun n => (n : Int)

/-- The 64-bit payload a text stands for: any number of the signed or of the unsigned range. -/
def payload? (cs : List Char) : Option Int64 := do
  let n ← integer? cs
  if Int64.minValue.toInt ≤ n ∧ n < UInt64.size then some (Int64.ofInt n) else none

/-- The decimal digits of a number. -/
def naturalText (n : Nat) : String :=
  String.ofList (Nat.toDigits 10 n)

/-- The decimal digits of a number, with a minus sign in front of a negative one. -/
def integerText (n : Int) : String :=
  if n < 0 then "-" ++ naturalText n.natAbs else naturalText n.natAbs

end ObjectBridge.Text
