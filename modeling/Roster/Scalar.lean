import Roster.Json.Basic

/-!
# Scalars

The operands of comparisons. An integer operand is exact as long as a signed
word holds it; any other number is a double.
-/

namespace Roster

/-- A value that a field can be compared with. -/
inductive Scalar where
  | null
  | bool (b : Bool)
  | int (i : Int64)
  | float (d : Double)
  | text (s : String)
deriving DecidableEq, Repr, Inhabited

namespace Scalar

/-- The scalar that a JSON value is; arrays and objects are none. -/
def ofJson? : Json → Option Scalar
  | .null => some .null
  | .bool b => some (.bool b)
  | .num (.int i) =>
    if Json.fitsSigned i then some (.int (Int64.ofInt i)) else some (.float (Double.ofInt i))
  | .num (.float d) => some (.float d)
  | .str s => some (.text s)
  | .arr _ => none
  | .obj _ => none

/-- The scalar as a JSON value. -/
def toJson : Scalar → Json
  | .null => .null
  | .bool b => .bool b
  | .int i => .ofInt i.toInt
  | .float d => .num (.float d)
  | .text s => .str s

/-- The text of a text. -/
def text? : Scalar → Option String
  | .text s => some s
  | _ => none

/-- The value as a bare text; `null` has none. -/
def spelled? : Scalar → Option String
  | .null => none
  | .bool b => some (if b then "true" else "false")
  | .int i => some (signedDecimal i.toInt)
  | .float d => some (Layout.plain.write d)
  | .text s => some s

/-- The scalar is `null`. -/
def isNull : Scalar → Bool
  | .null => true
  | _ => false

/-- Equal as operands: of one sort, and doubles equal as numbers. -/
def agrees : Scalar → Scalar → Bool
  | .float a, .float b => a.sameValue b
  | a, b => a = b

end Scalar

end Roster
