import Roster.Predicate.Basic
import Roster.Text.Lowercase
import Roster.Truth

/-!
# Predicates on rows

A row is a JSON value that carries related records under the names of their
relations: an object for a single one, an array for many.

The value of a predicate on a row is three-valued: a comparison with a null
column is unknown, so neither the comparison nor its negation accepts the row. A
condition behind a relation asks whether some related record passes, and is
never unknown.
-/

namespace Roster

/-! ## Values behind a path -/

/-- One step from several values at once: arrays are taken apart, a missing field is `null`. -/
def stepInto (name : String) (values : List Json) : List Json :=
  values.flatMap fun v => v.flatten.map (·.field name)

/-- All steps of a path. A missing record on the way contributes nothing. -/
def walk : List String → List Json → List Json
  | [], values => values
  | [last], values => stepInto last values
  | name :: rest, values => walk rest ((stepInto name values).filter fun v => !v.isNull)

/-- The values that a path reaches on a row, arrays taken apart. -/
def Path.valuesIn (path : Path) (row : Json) : List Json :=
  (walk path.segments [row]).flatMap Json.flatten

/-! ## Comparisons -/

/-- A text as it is compared. -/
def comparedText (ignoreCase : Bool) (text : String) : String :=
  if ignoreCase then Text.lowercase text else text

/-- How a value compares with an operand; values of different sorts do not. -/
def compareWith (ignoreCase : Bool) : Json → Scalar → Option Ordering
  | .null, .null => some .eq
  | .bool a, .bool b => some (compare a b)
  | .num a, .int b => some (a.toDouble.order (Double.ofInt b.toInt))
  | .num a, .float b => some (a.toDouble.order b)
  | .str a, .text b => some (compare (comparedText ignoreCase a) (comparedText ignoreCase b))
  | _, _ => none

/-- The value equals an operand. -/
def equalTo (ignoreCase : Bool) (v : Json) (operand : Scalar) : Bool :=
  compareWith ignoreCase v operand == some .eq

/-- Equality: with `null`, whether the value is null; else unknown on a null value. -/
def equalsTruth (ignoreCase : Bool) (v : Json) (operand : Scalar) : Truth :=
  if operand.isNull then .ofBool v.isNull
  else if v.isNull then .unknown
  else .ofBool (equalTo ignoreCase v operand)

/-- Inequality: with `null`, whether the value is not null; else a null value passes. -/
def differsTruth (ignoreCase : Bool) (v : Json) (operand : Scalar) : Truth :=
  if operand.isNull then .ofBool !v.isNull
  else if v.isNull then .yes
  else .ofBool !(equalTo ignoreCase v operand)

/-- Membership: a null value is unknown unless the list is empty or names `null`. -/
def oneOfTruth (ignoreCase : Bool) (v : Json) (operands : List Scalar) : Truth :=
  if v.isNull && !operands.any Scalar.isNull && !operands.isEmpty then .unknown
  else .ofBool (operands.any (equalTo ignoreCase v))

/-- Exclusion: a null value passes a list that does not name `null`, fails one that names nothing
else, and is unknown otherwise. -/
def noneOfTruth (ignoreCase : Bool) (v : Json) (operands : List Scalar) : Truth :=
  if v.isNull then
    if !operands.any Scalar.isNull then .yes
    else if operands.all Scalar.isNull then .no
    else .unknown
  else .ofBool !(operands.any (equalTo ignoreCase v))

/-- Order: unknown where a side is null, false where the two do not compare. -/
def orderedTruth (ignoreCase : Bool) (bound : Bound) (v : Json) (operand : Scalar) : Truth :=
  if v.isNull || operand.isNull then .unknown
  else .ofBool ((compareWith ignoreCase v operand).any bound.accepts)

/-- The term stands somewhere in the text. -/
def occursIn (term : List Char) : List Char → Bool
  | [] => term.isEmpty
  | c :: rest => term.isPrefixOf (c :: rest) || occursIn term rest

/-- A term stands in a text where the text is the term with something around it. -/
theorem occursIn_iff (term text : List Char) : occursIn term text = true ↔ term <:+: text := by
  induction text with
  | nil => simp [occursIn]
  | cons c rest ih =>
    rw [occursIn, Bool.or_eq_true, ih, List.isPrefixOf_iff_prefix, List.infix_cons_iff]

/-- The term stands at a place of the text. -/
def TextMatch.accepts (place : TextMatch) (text term : String) : Bool :=
  match place with
  | .contains => occursIn term.toList text.toList
  | .startsWith => term.toList.isPrefixOf text.toList
  | .endsWith => term.toList.isSuffixOf text.toList

/-- A term in a text: unknown on a null value, false on any other value that is no text. -/
def textualTruth (ignoreCase : Bool) (place : TextMatch) (v : Json) (term : String) : Truth :=
  match v with
  | .null => .unknown
  | .str text => .ofBool (place.accepts (comparedText ignoreCase text)
      (comparedText ignoreCase term))
  | _ => .no

/-- The value of one comparison. -/
def Comparison.truth (ignoreCase : Bool) (v : Json) : Comparison → Truth
  | .equals operand => equalsTruth ignoreCase v operand
  | .differs operand => differsTruth ignoreCase v operand
  | .oneOf operands => oneOfTruth ignoreCase v operands
  | .noneOf operands => noneOfTruth ignoreCase v operands
  | .ordered bound operand => orderedTruth ignoreCase bound v operand
  | .textual place term => textualTruth ignoreCase place v term

/-- The value of a filter: all its comparisons together. -/
def Filter.truth (f : Filter) (v : Json) : Truth :=
  .all (f.comparisons.map (Comparison.truth f.ignoreCase v))

/-! ## Predicates -/

/-- A test of the values behind a path. Behind a relation some record has to pass; in the row
itself the tests of an array's items are joined. -/
def leafTruth (row : Json) (path : Path) (test : Json → Truth) : Truth :=
  let values := path.valuesIn row
  if path.isNested then .ofBool (values.any fun v => (test v).holds)
  else .any (values.map test)

namespace Predicate

mutual

/-- The value of a predicate on a row. -/
def truth (row : Json) : Predicate → Truth
  | .equals path value => leafTruth row path fun v => equalsTruth false v value
  | .operator path filter => leafTruth row path filter.truth
  | .and children => .all (truths row children)
  | .or children => .any (truths row children)
  | .not inner => (inner.truth row).not

/-- The values of several predicates. -/
def truths (row : Json) : List Predicate → List Truth
  | [] => []
  | p :: rest => p.truth row :: truths row rest

end

/-- The predicate accepts the row. -/
def accepts (p : Predicate) (row : Json) : Bool := (p.truth row).holds

end Predicate

/-- An optional predicate accepts a row; where there is none every row is accepted. -/
def accepts? (filter : Option Predicate) (row : Json) : Bool := filter.all (·.accepts row)

end Roster
