import Roster.Json.Basic

/-!
# Reading JSON

`Json.parse?` reads one document. It refuses what is not JSON, a lone surrogate
escape, a control character inside a string, a number beyond the largest
double, and arrays and objects nested deeper than `maxDepth`.

Fields are kept as they are written, a repeated key included; `Json.settle`
makes every key count once.

An integer that fits a signed or an unsigned word stays an integer. Any other
number is a double. Of its digits as many are read as fit an unsigned word, the
others count as zeros.
-/

namespace Roster.Json

/-- How deep arrays and objects may be nested. -/
def maxDepth : Nat := 127

/-- The blanks of JSON. -/
def isBlank (c : Char) : Bool := c = ' ' || c = '\n' || c = '\t' || c = '\r'

/-- The text after its leading blanks. -/
def skipBlanks (cs : List Char) : List Char := cs.dropWhile isBlank

/-! ## Strings -/

/-- The characters of a string up to its closing quote, escapes still in place, and the rest. -/
def quotedBody : List Char → Option (List Char × List Char)
  | [] => none
  | '"' :: rest => some ([], rest)
  | '\\' :: c :: rest => (quotedBody rest).map fun p => ('\\' :: c :: p.1, p.2)
  | c :: rest =>
    if c.toNat < 32 then none else (quotedBody rest).map fun p => (c :: p.1, p.2)

/-- What a string is made of: a character, or a code unit from an escape of four digits. -/
inductive Piece where
  | char (c : Char)
  | unit (n : Nat)

/-- The value of a digit of base sixteen. -/
def hexValue? (c : Char) : Option Nat :=
  if c.isDigit then some (c.toNat - '0'.toNat)
  else if 'a' ≤ c ∧ c ≤ 'f' then some (c.toNat - 'a'.toNat + 10)
  else if 'A' ≤ c ∧ c ≤ 'F' then some (c.toNat - 'A'.toNat + 10)
  else none

/-- The value of four digits of base sixteen. -/
def hex4? (a b c d : Char) : Option Nat := do
  return ((← hexValue? a) * 16 + (← hexValue? b)) * 256 + ((← hexValue? c) * 16 + (← hexValue? d))

/-- The character that an escape of one letter stands for. -/
def escape? (c : Char) : Option Char :=
  if c = '"' ∨ c = '\\' ∨ c = '/' then some c
  else if c = 'b' then some '\x08'
  else if c = 'f' then some '\x0c'
  else if c = 'n' then some '\n'
  else if c = 'r' then some '\r'
  else if c = 't' then some '\t'
  else none

/-- Resolves the escapes of a string body. -/
def pieces? : List Char → Option (List Piece)
  | [] => some []
  | '\\' :: 'u' :: a :: b :: c :: d :: rest => do
    return .unit (← hex4? a b c d) :: (← pieces? rest)
  | '\\' :: c :: rest => do return .char (← escape? c) :: (← pieces? rest)
  | c :: rest => do return .char c :: (← pieces? rest)

/-- Joins code units to characters: a high surrogate needs a low one right after it. -/
def joinUnits? : List Piece → Option (List Char)
  | [] => some []
  | .char c :: rest => do return c :: (← joinUnits? rest)
  | .unit high :: .unit low :: rest =>
    if 0xD800 ≤ high ∧ high < 0xDC00 then
      if 0xDC00 ≤ low ∧ low < 0xE000 then do
        return Char.ofNat (0x10000 + (high - 0xD800) * 0x400 + (low - 0xDC00)) ::
          (← joinUnits? rest)
      else none
    else if 0xDC00 ≤ high ∧ high < 0xE000 then none
    else do return Char.ofNat high :: (← joinUnits? (.unit low :: rest))
  | .unit n :: rest =>
    if 0xD800 ≤ n ∧ n < 0xE000 then none
    else do return Char.ofNat n :: (← joinUnits? rest)

/-- A string, its opening quote already read, and the rest. -/
def string? (cs : List Char) : Option (String × List Char) := do
  let (body, rest) ← quotedBody cs
  let units ← pieces? body
  return (String.ofList (← joinUnits? units), rest)

/-! ## Numbers -/

/-- Reads digits into a word as long as it holds them; answers the word and how many digits were
left out. -/
def wordDigits : Nat → List Char → Nat × Nat
  | acc, [] => (acc, 0)
  | acc, c :: rest =>
    let next := acc * 10 + (c.toNat - '0'.toNat)
    if next < wordBound then wordDigits next rest else (acc, rest.length + 1)

/-- The number that digits denote. -/
def naturalOf (digits : List Char) : Nat :=
  digits.foldl (fun n c => n * 10 + (c.toNat - '0'.toNat)) 0

/-- The parts of a number: sign, whole digits, fraction digits and exponent where present. -/
structure Numeral where
  negative : Bool
  whole : List Char
  fraction : Option (List Char)
  exponent : Option Int

/-- The digits after a point, if there is one; a point needs a digit. -/
def fraction? : List Char → Option (Option (List Char) × List Char)
  | '.' :: rest =>
    let digits := rest.takeWhile Char.isDigit
    if digits.isEmpty then none else some (some digits, rest.dropWhile Char.isDigit)
  | rest => some (none, rest)

/-- The digits of an exponent after its sign. -/
def exponentDigits? (negative : Bool) (cs : List Char) : Option (Option Int × List Char) :=
  let digits := cs.takeWhile Char.isDigit
  if digits.isEmpty then none
  else
    let n : Int := naturalOf digits
    some (some (if negative then -n else n), cs.dropWhile Char.isDigit)

/-- An exponent, if there is one. -/
def exponent? : List Char → Option (Option Int × List Char)
  | c :: rest =>
    if c = 'e' ∨ c = 'E' then
      match rest with
      | '+' :: rest => exponentDigits? false rest
      | '-' :: rest => exponentDigits? true rest
      | rest => exponentDigits? false rest
    else some (none, c :: rest)
  | [] => some (none, [])

/-- Splits a number off the text. A leading zero stands alone. -/
def numeral? (cs : List Char) : Option (Numeral × List Char) := do
  let (negative, cs) := match cs with
    | '-' :: rest => (true, rest)
    | rest => (false, rest)
  let whole := cs.takeWhile Char.isDigit
  if whole.isEmpty ∨ (whole.head? = some '0' ∧ 1 < whole.length) then none
  let (fraction, cs) ← fraction? (cs.dropWhile Char.isDigit)
  let (exponent, cs) ← exponent? cs
  return (⟨negative, whole, fraction, exponent⟩, cs)

/-- The double that a numeral denotes. -/
def Numeral.double? (n : Numeral) : Option Double :=
  let (whole, left) := wordDigits 0 n.whole
  let fraction := n.fraction.getD []
  let (digits, unread) := wordDigits whole fraction
  Double.ofDecimal? n.negative digits
    ((left : Int) - ((fraction.length : Int) - unread) + n.exponent.getD 0)

/-- The number that a numeral denotes. -/
def Numeral.number? (n : Numeral) : Option Number :=
  match n.fraction, n.exponent with
  | none, none =>
    let value := naturalOf n.whole
    if n.negative then
      if 0 < value ∧ value ≤ signedBound then some (.int (-value)) else n.double?.map .float
    else if value < wordBound then some (.int value) else n.double?.map .float
  | _, _ => n.double?.map .float

/-! ## Values -/

mutual

/-- One value and the rest of the text. `fuel` bounds the steps, `depth` the nesting still
allowed. -/
def value? : Nat → Nat → List Char → Option (Json × List Char)
  | 0, _, _ => none
  | fuel + 1, depth, cs =>
    match skipBlanks cs with
    | 'n' :: 'u' :: 'l' :: 'l' :: rest => some (.null, rest)
    | 't' :: 'r' :: 'u' :: 'e' :: rest => some (.bool true, rest)
    | 'f' :: 'a' :: 'l' :: 's' :: 'e' :: rest => some (.bool false, rest)
    | '"' :: rest => (string? rest).map fun p => (.str p.1, p.2)
    | '[' :: rest =>
      if depth = 0 then none
      else match skipBlanks rest with
        | ']' :: rest => some (.arr [], rest)
        | rest => (items? fuel (depth - 1) rest).map fun p => (.arr p.1, p.2)
    | '\x7b' :: rest =>
      if depth = 0 then none
      else match skipBlanks rest with
        | '\x7d' :: rest => some (.obj [], rest)
        | rest => (members? fuel (depth - 1) rest).map fun p => (.obj p.1, p.2)
    | rest => do
      let (numeral, rest) ← numeral? rest
      return (.num (← numeral.number?), rest)

/-- The items of an array up to its closing bracket; there is at least one. -/
def items? : Nat → Nat → List Char → Option (List Json × List Char)
  | 0, _, _ => none
  | fuel + 1, depth, cs => do
    let (v, rest) ← value? fuel depth cs
    match skipBlanks rest with
    | ',' :: rest => (items? fuel depth rest).map fun p => (v :: p.1, p.2)
    | ']' :: rest => some ([v], rest)
    | _ => none

/-- The fields of an object up to its closing brace; there is at least one. -/
def members? : Nat → Nat → List Char → Option (List (String × Json) × List Char)
  | 0, _, _ => none
  | fuel + 1, depth, cs => do
    match skipBlanks cs with
    | '"' :: rest =>
      let (key, rest) ← string? rest
      match skipBlanks rest with
      | ':' :: rest =>
        let (v, rest) ← value? fuel depth rest
        match skipBlanks rest with
        | ',' :: rest => (members? fuel depth rest).map fun p => ((key, v) :: p.1, p.2)
        | '\x7d' :: rest => some ([(key, v)], rest)
        | _ => none
      | _ => none
    | _ => none

end

/-- Reads a text that is one value, blanks around it aside, with arrays and objects nested at most
`depth` deep. -/
def parseWithin? (depth : Nat) (text : String) : Option Json :=
  let cs := text.toList
  match value? (2 * cs.length + 1) depth cs with
  | some (v, rest) => if (skipBlanks rest).isEmpty then some v else none
  | none => none

/-- Reads a text that is one JSON document. -/
def parse? (text : String) : Option Json := parseWithin? maxDepth text

end Roster.Json
