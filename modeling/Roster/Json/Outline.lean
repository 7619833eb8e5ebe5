import Roster.Json.Parser
import Roster.Text.Bytes

/-!
# Documents read in part

Whoever needs a few fields of a document passes over the others. An `Outline` is
a document whose parts are still bytes. `Raw.read?` reads a part that is needed;
of the others only the ends were looked for.

How much is asked of a value that is passed over is a `Scan`. `Scan.form` asks
for the form alone: a surrogate may stand by itself, a number may be beyond the
largest double, the bytes of a string need not be a text, and nothing limits the
nesting. `Scan.content` asks for a value that could be read, and tells two
failures apart: a value that is refused when its end is reached, and a value
inside of which the reader stops.
-/

namespace Roster.Json

/-- A part of a document as it is written: its bytes, each as the character of the same number. -/
abbrev Raw := List Char

/-- Bytes as characters. -/
def Raw.ofBytes (bytes : List UInt8) : Raw := bytes.map fun b => Char.ofNat b.toNat

/-- The text of a part, if its bytes are one. -/
def Raw.text? (raw : Raw) : Option String := Text.ofBytes? (raw.map fun c => UInt8.ofNat c.toNat)

/-! ## Passing over a value -/

/-- How the leaves of a document are passed over. Both answer whether the leaf could be read, and
what stands behind it; they answer nothing where the reader stops inside. A string comes without its
opening quote. -/
structure Scan where
  string : Raw → Option (Bool × Raw)
  number : Raw → Option (Bool × Raw)

namespace Scan

mutual

/-- Passes over one value. A reader that was refused an item still takes the bracket that follows
it, but no comma. `fuel` bounds the steps, `depth` the nesting still allowed. -/
def value? (s : Scan) : Nat → Nat → Raw → Option (Bool × Raw)
  | 0, _, _ => none
  | fuel + 1, depth, cs =>
    match skipBlanks cs with
    | 'n' :: 'u' :: 'l' :: 'l' :: rest => some (true, rest)
    | 't' :: 'r' :: 'u' :: 'e' :: rest => some (true, rest)
    | 'f' :: 'a' :: 'l' :: 's' :: 'e' :: rest => some (true, rest)
    | '"' :: rest => s.string rest
    | '[' :: rest =>
      if depth = 0 then none
      else match skipBlanks rest with
        | ']' :: rest => some (true, rest)
        | rest => s.items? fuel (depth - 1) rest
    | '\x7b' :: rest =>
      if depth = 0 then none
      else match skipBlanks rest with
        | '\x7d' :: rest => some (true, rest)
        | rest => s.members? fuel (depth - 1) rest
    | rest => s.number rest

/-- Passes over the items of an array and its closing bracket; there is at least one item. -/
def items? (s : Scan) : Nat → Nat → Raw → Option (Bool × Raw)
  | 0, _, _ => none
  | fuel + 1, depth, cs => do
    let (readable, rest) ← s.value? fuel depth cs
    match skipBlanks rest with
    | ',' :: rest => if readable then s.items? fuel depth rest else none
    | ']' :: rest => some (readable, rest)
    | _ => none

/-- Passes over the members of an object and its closing brace; there is at least one member. -/
def members? (s : Scan) : Nat → Nat → Raw → Option (Bool × Raw)
  | 0, _, _ => none
  | fuel + 1, depth, cs => do
    match skipBlanks cs with
    | '"' :: rest =>
      let (readable, rest) ← s.string rest
      match readable, skipBlanks rest with
      | true, ':' :: rest =>
        let (readable, rest) ← s.value? fuel depth rest
        match skipBlanks rest with
        | ',' :: rest => if readable then s.members? fuel depth rest else none
        | '\x7d' :: rest => some (readable, rest)
        | _ => none
      | _, _ => none
    | _ => none

end

/-- Asks for the form alone. -/
def form : Scan where
  string cs := do
    let (body, rest) ← quotedBody cs
    let _ ← pieces? body
    return (true, rest)
  number cs := do
    let (_, rest) ← numeral? cs
    return (true, rest)

/-- Whether the body of a string can be read. A reader stops at a surrogate by itself; but where a
high one ends the string, it has already looked at the closing quote for the low one. -/
def readableBody? (body : Raw) : Option Bool := do
  let units ← pieces? body
  if (joinUnits? units).isSome then return (Raw.text? body).isSome
  match units.getLast? with
  | some (.unit n) =>
    if 0xD800 ≤ n ∧ n < 0xDC00 ∧ (joinUnits? units.dropLast).isSome then some false else none
  | _ => none

/-- A reader stops inside a number when its exponent leaves a signed word of 32 bits before the last
digit, unless the number is zero or becomes it. -/
def stopsInExponent (n : Numeral) : Bool :=
  n.exponent.any fun e => 2147483647 < e / 10 && (n.whole ++ n.fraction.getD []).any (· ≠ '0')

/-- Asks for a value that can be read. -/
def content : Scan where
  string cs := do
    let (body, rest) ← quotedBody cs
    return (← readableBody? body, rest)
  number cs := do
    let (n, rest) ← numeral? cs
    if stopsInExponent n then none
    return (n.number?.isSome, rest)

end Scan

/-! ## Parts -/

/-- Reads a part after all. It stands inside a document, and so may be nested less deep. -/
def Raw.read? (raw : Raw) : Option Json := raw.text? >>= parseWithin? (maxDepth - 1)

/-- A reader gets to the end of the part, whether or not it is refused there. -/
def Raw.isPassable (raw : Raw) : Bool :=
  match Scan.content.value? (2 * raw.length + 1) (maxDepth - 1) raw with
  | some (_, rest) => rest.isEmpty
  | none => false

/-- Splits one value off. -/
def Raw.split? (cs : Raw) : Option (Raw × Raw) := do
  let cs := skipBlanks cs
  let (_, rest) ← Scan.form.value? (2 * cs.length + 1) cs.length cs
  return (cs.take (cs.length - rest.length), rest)

/-- Splits a key and its colon off, the opening quote already read. A key is always read. -/
def Raw.splitKey? (cs : Raw) : Option (String × Raw) := do
  let (body, rest) ← quotedBody cs
  let key ← joinUnits? (← pieces? (← Raw.text? body).toList)
  match skipBlanks rest with
  | ':' :: rest => return (String.ofList key, rest)
  | _ => none

/-- The items of an array up to its closing bracket; there is at least one. -/
def Raw.items? : Nat → Raw → Option (List Raw × Raw)
  | 0, _ => none
  | fuel + 1, cs => do
    let (item, rest) ← Raw.split? cs
    match skipBlanks rest with
    | ',' :: rest => (Raw.items? fuel rest).map fun p => (item :: p.1, p.2)
    | ']' :: rest => some ([item], rest)
    | _ => none

/-- The members of an object up to its closing brace; there is at least one. -/
def Raw.members? : Nat → Raw → Option (List (String × Raw) × Raw)
  | 0, _ => none
  | fuel + 1, cs => do
    match skipBlanks cs with
    | '"' :: rest =>
      let (key, rest) ← Raw.splitKey? rest
      let (value, rest) ← Raw.split? rest
      match skipBlanks rest with
      | ',' :: rest => (Raw.members? fuel rest).map fun p => ((key, value) :: p.1, p.2)
      | '\x7d' :: rest => some ([(key, value)], rest)
      | _ => none
    | _ => none

/-! ## Outlines -/

/-- A document whose parts are not read yet. -/
inductive Outline where
  /-- The members of an object. -/
  | record (members : List (String × Raw))
  /-- The items of an array. -/
  | tuple (items : List Raw)

namespace Outline

/-- The outline of a document that is an object or an array. -/
def ofBytes? (bytes : List UInt8) : Option Outline := do
  let cs := Raw.ofBytes bytes
  let (outline, rest) ←
    match skipBlanks cs with
    | '[' :: rest =>
      match skipBlanks rest with
      | ']' :: rest => some (tuple [], rest)
      | rest => (Raw.items? cs.length rest).map fun p => (tuple p.1, p.2)
    | '\x7b' :: rest =>
      match skipBlanks rest with
      | '\x7d' :: rest => some (record [], rest)
      | rest => (Raw.members? cs.length rest).map fun p => (record p.1, p.2)
    | _ => none
  if (skipBlanks rest).isEmpty then some outline else none

/-- Reads the fields with the given names. An array has to be all of them in their order. -/
def fields? (names : List String) : Outline → Option (List (String × Json))
  | record members =>
    (members.filter fun p => names.contains p.1).mapM fun p => do return (p.1, ← p.2.read?)
  | tuple items => do
    if items.length ≠ names.length then none
    return names.zip (← items.mapM Raw.read?)

end Outline

end Roster.Json
