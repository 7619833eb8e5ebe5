import Roster.Keyed
import Roster.Number.Layout

/-!
# JSON values

The dynamic values of the service: rows, request bodies and answers. Numbers
come in two classes that stay apart, integers and doubles, because `1` and `1.0`
are written differently. An object is a list of fields in the order of the
text; `Json.settle` is the reading in which every key counts once.
-/

namespace Roster

/-- A JSON number: written without a fraction or an exponent, or with one. -/
inductive Json.Number where
  | int (i : Int)
  | float (d : Double)
deriving DecidableEq, Repr

/-- A JSON value. -/
inductive Json where
  | null
  | bool (b : Bool)
  | num (n : Json.Number)
  | str (s : String)
  | arr (items : List Json)
  | obj (fields : List (String × Json))
deriving Repr

namespace Json

instance : Inhabited Json := ⟨.null⟩

/-- The first number that an unsigned word of 64 bits does not hold. -/
def wordBound : Nat := Nat.pow 2 64

/-- The first number that a signed word of 64 bits does not hold. -/
def signedBound : Nat := Nat.pow 2 63

/-- The integer fits a signed word. -/
def fitsSigned (i : Int) : Bool := -signedBound ≤ i && i < signedBound

/-- The number as a double, rounded to the nearest one. -/
def Number.toDouble : Number → Double
  | .int i => Double.ofInt i
  | .float d => d

/-- An integer as a value. -/
def ofInt (i : Int) : Json := .num (.int i)

/-- A natural number as a value. -/
def ofNat (n : Nat) : Json := .num (.int n)

/-- Texts as an array. -/
def ofStrings (texts : List String) : Json := .arr (texts.map .str)

/-- The value is `null`. -/
def isNull : Json → Bool
  | .null => true
  | _ => false

/-- The fields of an object; any other value has none. -/
def fields : Json → Keyed Json
  | .obj fs => fs
  | _ => []

/-- A field of an object. -/
def get? (v : Json) (name : String) : Option Json := Keyed.get? v.fields name

/-- A field of an object, `null` where there is none. -/
def field (v : Json) (name : String) : Json := (v.get? name).getD .null

/-- The items of an array, any other value being its own only item. -/
def flatten : Json → List Json
  | .arr items => items
  | v => [v]

/-- The kind of a value, as messages name it. -/
def kind : Json → String
  | .null => "null"
  | .bool _ => "a boolean"
  | .num _ => "a number"
  | .str _ => "a string"
  | .arr _ => "an array"
  | .obj _ => "an object"

/-! ## Keys that count once -/

mutual

/-- The value in which each key of each object counts once: at the place where it first stands,
with the value that it last has. -/
def settle : Json → Json
  | .arr items => .arr (settleItems items)
  | .obj fields => .obj (Keyed.ofPairs (settleFields fields))
  | v => v

/-- Settles every item of an array. -/
def settleItems : List Json → List Json
  | [] => []
  | v :: rest => v.settle :: settleItems rest

/-- Settles the value of every field. -/
def settleFields : List (String × Json) → List (String × Json)
  | [] => []
  | (k, v) :: rest => (k, v.settle) :: settleFields rest

end

/-! ## Keys in order -/

mutual

/-- The value with the keys of every object in increasing order. -/
def sortKeys : Json → Json
  | .arr items => .arr (sortItems items)
  | .obj fields => .obj (Keyed.sorted (sortFields fields))
  | v => v

/-- Sorts the keys inside every item of an array. -/
def sortItems : List Json → List Json
  | [] => []
  | v :: rest => v.sortKeys :: sortItems rest

/-- Sorts the keys inside the value of every field. -/
def sortFields : List (String × Json) → List (String × Json)
  | [] => []
  | (k, v) :: rest => (k, v.sortKeys) :: sortFields rest

end

end Json

end Roster
