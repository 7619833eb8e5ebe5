import Roster.Json.Shape
import Roster.Scalar

/-!
# Comparisons on one field

An operator object such as `{"gte": 3, "not": null}` is a `Filter`: up to eleven
comparisons of one field that have to hold together, and whether texts are
compared without regard to case. `Filter.comparisons` lists the ones that are
present, in one fixed order; evaluation and SQL both go along that list.
-/

namespace Roster

/-- The comparisons of one field. -/
structure Filter where
  equals : Option Scalar := none
  differs : Option Scalar := none
  oneOf : Option (List Scalar) := none
  noneOf : Option (List Scalar) := none
  lt : Option Scalar := none
  lte : Option Scalar := none
  gt : Option Scalar := none
  gte : Option Scalar := none
  contains : Option String := none
  startsWith : Option String := none
  endsWith : Option String := none
  ignoreCase : Bool := false
deriving DecidableEq, Repr, Inhabited

/-- An order that a field can stand in to a bound. -/
inductive Bound where
  | lt
  | lte
  | gt
  | gte
deriving DecidableEq, Repr

/-- A place that a term can have in a text. -/
inductive TextMatch where
  | contains
  | startsWith
  | endsWith
deriving DecidableEq, Repr

/-- One comparison of a field. -/
inductive Comparison where
  | equals (value : Scalar)
  | differs (value : Scalar)
  | oneOf (values : List Scalar)
  | noneOf (values : List Scalar)
  | ordered (bound : Bound) (value : Scalar)
  | textual (place : TextMatch) (term : String)
deriving DecidableEq, Repr

namespace Bound

/-- How a value has to compare with the bound. -/
def accepts : Bound → Ordering → Bool
  | .lt, o => o == .lt
  | .lte, o => o != .gt
  | .gt, o => o == .gt
  | .gte, o => o != .lt

/-- The relation that a bound is named for. -/
def Relates {α : Type _} [LT α] [LE α] : Bound → α → α → Prop
  | .lt, a, b => a < b
  | .lte, a, b => a ≤ b
  | .gt, a, b => b < a
  | .gte, a, b => b ≤ a

/-- **A bound accepts the values that stand to it in its relation**, in every linear order. -/
theorem accepts_compare {α : Type _} [Ord α] [LT α] [LE α] [Std.LawfulOrderOrd α]
    [Std.LawfulOrderLT α] (bound : Bound) (a b : α) :
    bound.accepts (compare a b) = true ↔ bound.Relates a b := by
  cases bound with
  | lt => exact beq_iff_eq.trans Std.compare_eq_lt
  | lte => exact bne_iff_ne.trans (Ordering.isLE_iff_ne_gt.symm.trans Std.isLE_compare)
  | gt => exact beq_iff_eq.trans Std.compare_eq_gt
  | gte => exact bne_iff_ne.trans (Ordering.isGE_iff_ne_lt.symm.trans Std.isGE_compare)

/-- The key of the bound. -/
def key : Bound → String
  | .lt => "lt"
  | .lte => "lte"
  | .gt => "gt"
  | .gte => "gte"

end Bound

namespace Filter

/-- The keys of an operator object, in the order in which they are written. -/
def keys : List String :=
  ["equals", "not", "in", "notIn", "lt", "lte", "gt", "gte", "contains", "startsWith", "endsWith",
    "mode"]

/-- The comparisons that are present. -/
def comparisons (f : Filter) : List Comparison :=
  (f.equals.map Comparison.equals).toList ++ (f.differs.map Comparison.differs).toList ++
    (f.oneOf.map Comparison.oneOf).toList ++ (f.noneOf.map Comparison.noneOf).toList ++
    (f.lt.map (Comparison.ordered .lt)).toList ++ (f.lte.map (Comparison.ordered .lte)).toList ++
    (f.gt.map (Comparison.ordered .gt)).toList ++ (f.gte.map (Comparison.ordered .gte)).toList ++
    (f.contains.map (Comparison.textual .contains)).toList ++
    (f.startsWith.map (Comparison.textual .startsWith)).toList ++
    (f.endsWith.map (Comparison.textual .endsWith)).toList

/-- There is no comparison. -/
def isBlank (f : Filter) : Bool := f.comparisons.isEmpty

/-- A term is looked for inside texts. -/
def matchesText (f : Filter) : Bool :=
  f.contains.isSome || f.startsWith.isSome || f.endsWith.isSome

/-- The values that the filter holds its field to, one at a time. -/
def pinnedValues (f : Filter) : List Scalar := f.equals.toList ++ f.oneOf.getD []

/-! ## JSON -/

/-- A scalar operand; `null` is one. -/
def readScalar (v : Json) : Except ShapeError Scalar :=
  match Scalar.ofJson? v with
  | some s => .ok s
  | none => .error (.noAlternative "Scalar")

/-- A list of scalar operands. -/
def readScalars (v : Json) : Except ShapeError (List Scalar) := do
  (← v.asItems).mapM readScalar

/-- Whether case is ignored. -/
def readMode : Json → Except ShapeError Bool :=
  Json.asVariant ["default", "insensitive"] fun
    | "default" => some false
    | "insensitive" => some true
    | _ => none

/-- Reads one key of an operator object. -/
def setKey (key : String) (v : Json) (f : Filter) : Except ShapeError Filter :=
  match key with
  | "equals" => do return { f with equals := some (← readScalar v) }
  | "not" => do return { f with differs := some (← readScalar v) }
  | "in" => do return { f with oneOf := ← Json.optional readScalars v }
  | "notIn" => do return { f with noneOf := ← Json.optional readScalars v }
  | "lt" => do return { f with lt := some (← readScalar v) }
  | "lte" => do return { f with lte := some (← readScalar v) }
  | "gt" => do return { f with gt := some (← readScalar v) }
  | "gte" => do return { f with gte := some (← readScalar v) }
  | "contains" => do return { f with contains := ← Json.optional Json.asText v }
  | "startsWith" => do return { f with startsWith := ← Json.optional Json.asText v }
  | "endsWith" => do return { f with endsWith := ← Json.optional Json.asText v }
  | "mode" => do return { f with ignoreCase := ← readMode v }
  | _ => .ok f

/-- How an operator object is read. -/
def shape : Json.RecordShape ShapeError Filter := ⟨"FieldFilter", keys, false, setKey, id⟩

/-- Reads an operator object. -/
def ofJson (v : Json) : Except ShapeError Filter := shape.read {} v

/-- The fields of an operator object: what is present, in the order of `keys`. -/
def toFields (f : Filter) : List (String × Json) :=
  let scalar (key : String) (v : Option Scalar) : List (String × Json) :=
    (v.map fun s => (key, s.toJson)).toList
  let scalars (key : String) (v : Option (List Scalar)) : List (String × Json) :=
    (v.map fun l => (key, Json.arr (l.map Scalar.toJson))).toList
  let term (key : String) (v : Option String) : List (String × Json) :=
    (v.map fun s => (key, Json.str s)).toList
  scalar "equals" f.equals ++ scalar "not" f.differs ++ scalars "in" f.oneOf ++
    scalars "notIn" f.noneOf ++ scalar "lt" f.lt ++ scalar "lte" f.lte ++ scalar "gt" f.gt ++
    scalar "gte" f.gte ++ term "contains" f.contains ++ term "startsWith" f.startsWith ++
    term "endsWith" f.endsWith ++
    (if f.ignoreCase then [("mode", Json.str "insensitive")] else [])

/-- The operator object. -/
def toJson (f : Filter) : Json := .obj f.toFields

/-! ## Agreement -/

/-- Optional operands agree. -/
def optionAgrees : Option Scalar → Option Scalar → Bool
  | none, none => true
  | some a, some b => a.agrees b
  | _, _ => false

/-- Lists of operands agree one by one. -/
def listAgrees : List Scalar → List Scalar → Bool
  | [], [] => true
  | a :: as, b :: bs => a.agrees b && listAgrees as bs
  | _, _ => false

/-- Optional lists of operands agree. -/
def optionListAgrees : Option (List Scalar) → Option (List Scalar) → Bool
  | none, none => true
  | some a, some b => listAgrees a b
  | _, _ => false

/-- Equal operands under equal keys. -/
def agrees (f g : Filter) : Bool :=
  optionAgrees f.equals g.equals && optionAgrees f.differs g.differs &&
    optionListAgrees f.oneOf g.oneOf && optionListAgrees f.noneOf g.noneOf &&
    optionAgrees f.lt g.lt && optionAgrees f.lte g.lte && optionAgrees f.gt g.gt &&
    optionAgrees f.gte g.gte && f.contains = g.contains && f.startsWith = g.startsWith &&
    f.endsWith = g.endsWith && f.ignoreCase = g.ignoreCase

end Filter

end Roster
