/-!
# Options

Three numbers tune the runtime: after how many constructions a sweep runs by itself, how deep host
code may be nested, and whether calls are traced.
-/

namespace ObjectBridge

/-- The tunables of the runtime. A threshold of zero means that no sweep runs by itself. -/
structure Options where
  autoReclaim : Nat := 0
  maxDepth : Nat := 256
  traceCalls : Bool := false
  deriving DecidableEq, Repr

/-!
## Reading options from a configuration text

A text holds one `key = value` pair a line, with blank lines and comments between them. Only the
three options are known, each with its type, and each at most once; whatever else a configuration
language offers (tables, dotted keys, texts, numbers with a fraction, dates, lists) has no place
here, so a text that uses it is refused.

* `readKey?` reads a bare key or a quoted one;
* `readNatural?` reads an integer with a sign, a radix and underscores between digits;
* `Options.read?` reads a whole text.
-/

namespace Options

/-- Drop the spaces and tabs in front. -/
def skipSpace (cs : List Char) : List Char :=
  cs.dropWhile fun c => c == ' ' || c == '\t'

/-- A character of a bare key. -/
def isBare (c : Char) : Bool :=
  c.isAlphanum || c == '_' || c == '-'

/-- A character that a comment or a quoted key may hold: a tab, or no control character. -/
def isPlain (c : Char) : Bool :=
  c == '\t' || (0x20 ≤ c.toNat && c.toNat != 0x7F)

/-- The value of a hexadecimal digit. -/
def hexDigit? (c : Char) : Option Nat :=
  if '0' ≤ c ∧ c ≤ '9' then some (c.toNat - '0'.toNat)
  else if 'a' ≤ c ∧ c ≤ 'f' then some (c.toNat - 'a'.toNat + 10)
  else if 'A' ≤ c ∧ c ≤ 'F' then some (c.toNat - 'A'.toNat + 10)
  else none

/-- The character with a number written in hexadecimal digits, if there is one. -/
def codePoint? (acc : Nat) : List Char → Option Char
  | [] => if acc.isValidChar then some (Char.ofNat acc) else none
  | c :: rest => do codePoint? (acc * 16 + (← hexDigit? c)) rest

/-- The characters of a quoted key up to the quote that closes it, and the rest. -/
def readQuoted? : List Char → Option (List Char × List Char)
  | '"' :: rest => some ([], rest)
  | '\\' :: 'b' :: rest => add '\x08' (readQuoted? rest)
  | '\\' :: 't' :: rest => add '\t' (readQuoted? rest)
  | '\\' :: 'n' :: rest => add '\n' (readQuoted? rest)
  | '\\' :: 'f' :: rest => add '\x0c' (readQuoted? rest)
  | '\\' :: 'r' :: rest => add '\r' (readQuoted? rest)
  | '\\' :: '"' :: rest => add '"' (readQuoted? rest)
  | '\\' :: '\\' :: rest => add '\\' (readQuoted? rest)
  | '\\' :: 'u' :: a :: b :: c :: d :: rest =>
      (codePoint? 0 [a, b, c, d]).bind fun x => add x (readQuoted? rest)
  | '\\' :: 'U' :: a :: b :: c :: d :: e :: f :: g :: h :: rest =>
      (codePoint? 0 [a, b, c, d, e, f, g, h]).bind fun x => add x (readQuoted? rest)
  | c :: rest => if isPlain c && c != '\\' then add c (readQuoted? rest) else none
  | [] => none
where
  /-- Put a character before the characters read. -/
  add (c : Char) (read : Option (List Char × List Char)) : Option (List Char × List Char) :=
    read.map fun (cs, rest) => (c :: cs, rest)

/-- The characters of a key in single quotes, which know no escapes, and the rest. -/
def readLiteral? : List Char → Option (List Char × List Char)
  | '\'' :: rest => some ([], rest)
  | c :: rest =>
      if isPlain c then (readLiteral? rest).map fun (cs, rest) => (c :: cs, rest) else none
  | [] => none

/-- A key and the rest of the text. -/
def readKey? : List Char → Option (String × List Char)
  | '"' :: rest => (readQuoted? rest).map fun (cs, rest) => (String.ofList cs, rest)
  | '\'' :: rest => (readLiteral? rest).map fun (cs, rest) => (String.ofList cs, rest)
  | cs =>
      let key := cs.takeWhile isBare
      if key.isEmpty then none else some (String.ofList key, cs.dropWhile isBare)

/-- The characters that make up a value: everything up to a blank, a comment or the line's end. -/
def isWord (c : Char) : Bool :=
  c != ' ' && c != '\t' && c != '\n' && c != '\r' && c != '#'

/-- Digits of a radix with single underscores between them, read onto a number. -/
def readDigits? (radix acc : Nat) : List Char → Option Nat
  | [] => some acc
  | '_' :: c :: rest => digit c rest
  | c :: rest => digit c rest
where
  /-- Take one digit and go on. -/
  digit (c : Char) (rest : List Char) : Option Nat :=
    match hexDigit? c with
    | some d => if d < radix then readDigits? radix (acc * radix + d) rest else none
    | none => none

/-- A number whose first character is a digit of the radix. -/
def readRadix? (radix : Nat) : List Char → Option Nat
  | '_' :: _ => none
  | [] => none
  | cs => readDigits? radix 0 cs

/-- A decimal number without zeros in front. -/
def readDecimal? : List Char → Option Nat
  | ['0'] => some 0
  | '0' :: _ => none
  | cs => readRadix? 10 cs

/-- A word as a number that is not negative and fits a signed 64-bit word. -/
def readNatural? (word : List Char) : Option Nat :=
  let number :=
    match word with
    | '0' :: 'x' :: digits => readRadix? 16 digits
    | '0' :: 'o' :: digits => readRadix? 8 digits
    | '0' :: 'b' :: digits => readRadix? 2 digits
    | '+' :: digits => readDecimal? digits
    | '-' :: digits => (readDecimal? digits).filter fun n => n = 0
    | digits => readDecimal? digits
  number.filter fun n => n < Nat.pow 2 63

/-- A word as a truth value. -/
def readBool? (word : List Char) : Option Bool :=
  if word = "true".toList then some true
  else if word = "false".toList then some false
  else none

/-- Set an option from the word behind its key. -/
def set? (o : Options) (key : String) (word : List Char) : Option Options :=
  if key = "auto_reclaim_threshold" then
    (readNatural? word).map fun n => { o with autoReclaim := n }
  else if key = "max_dispatch_depth" then
    (readNatural? word).map fun n => { o with maxDepth := n }
  else if key = "trace_calls" then
    (readBool? word).map fun b => { o with traceCalls := b }
  else none

/-- Whether nothing but blanks and a comment is left of a line. -/
def isEnd (cs : List Char) : Bool :=
  match skipSpace cs with
  | [] => true
  | '#' :: comment => comment.all isPlain
  | _ => false

/-- Read a line into the options, given the keys that were set before. -/
def readLine? (o : Options) (keys : List String) (line : List Char) :
    Option (Options × List String) :=
  if isEnd line then some (o, keys)
  else do
    let (key, rest) ← readKey? (skipSpace line)
    match skipSpace rest with
    | '=' :: rest =>
        let rest := skipSpace rest
        if keys.contains key || !isEnd (rest.dropWhile isWord) then none
        else some (← o.set? key (rest.takeWhile isWord), key :: keys)
    | _ => none

/-- The lines of a text. A line ends at a line feed, which a carriage return may precede. -/
def lines : List Char → List (List Char)
  | [] => [[]]
  | '\n' :: rest => [] :: lines rest
  | '\r' :: '\n' :: rest => [] :: lines rest
  | c :: rest =>
      match lines rest with
      | [] => [[c]]
      | line :: more => (c :: line) :: more

/-- Read lines one after the other. -/
def readLines? (o : Options) (keys : List String) : List (List Char) → Option Options
  | [] => some o
  | line :: rest => do
      let (o, keys) ← readLine? o keys line
      readLines? o keys rest

/-- Read a configuration text. A byte order mark in front is ignored. -/
def read? (text : String) : Option Options :=
  match text.toList with
  | '\uFEFF' :: cs => readLines? {} [] (lines cs)
  | cs => readLines? {} [] (lines cs)

end Options

end ObjectBridge
