import Roster.Predicate.Merge
import Roster.Text.Blank

/-!
# Search

A search text becomes predicates over the searched fields. One word is a
disjunction: some field has it. Several words are a conjunction of such
disjunctions: every word is in some field.

A filter carries its search as one of its top conditions, and the next search
over the same fields replaces it. It is told from other conditions by its shape
alone.
-/

namespace Roster

/-- How a word has to stand in a field. -/
inductive SearchOperator where
  | contains
  | startsWith
  | endsWith
  | equals
deriving DecidableEq, Repr, Inhabited

/-- What is searched for. -/
structure Search where
  fields : List Path
  text : String
  operator : SearchOperator := .contains
  caseSensitive : Bool := false

namespace SearchOperator

/-- The filter that looks for a word. -/
def filter (o : SearchOperator) (caseSensitive : Bool) (word : String) : Filter :=
  match o with
  | .contains => { contains := some word, ignoreCase := !caseSensitive }
  | .startsWith => { startsWith := some word, ignoreCase := !caseSensitive }
  | .endsWith => { endsWith := some word, ignoreCase := !caseSensitive }
  | .equals => { equals := some (.text word), ignoreCase := !caseSensitive }

/-- The comparison that looks for a word. -/
def comparison (o : SearchOperator) (word : String) : Comparison :=
  match o with
  | .contains => .textual .contains word
  | .startsWith => .textual .startsWith word
  | .endsWith => .textual .endsWith word
  | .equals => .equals (.text word)

/-- The filter of a word has the one comparison. -/
theorem comparisons_filter (o : SearchOperator) (caseSensitive : Bool) (word : String) :
    (o.filter caseSensitive word).comparisons = [o.comparison word] := by
  cases o <;> rfl

/-- The filter of a word ignores case unless the search is case-sensitive. -/
theorem ignoreCase_filter (o : SearchOperator) (caseSensitive : Bool) (word : String) :
    (o.filter caseSensitive word).ignoreCase = !caseSensitive := by
  cases o <;> rfl

/-- The names of the operators. -/
def names : List String := ["contains", "startsWith", "endsWith", "equals"]

/-- The operator of a name. -/
def ofName? : String → Option SearchOperator
  | "contains" => some .contains
  | "startsWith" => some .startsWith
  | "endsWith" => some .endsWith
  | "equals" => some .equals
  | _ => none

/-- Reads an operator. -/
def ofJson : Json → Except ShapeError SearchOperator := Json.asVariant names ofName?

end SearchOperator

namespace Search

/-- One leaf for each field. -/
def branches (s : Search) (word : String) : List Predicate :=
  s.fields.map fun path => .operator path (s.operator.filter s.caseSensitive word)

/-- The predicates of a search: none without a word or a field, the branches of a single word, and
for more words one conjunction. -/
def compile (s : Search) : List Predicate :=
  match Text.words s.text with
  | [] => []
  | [word] => s.branches word
  | words =>
    if s.fields.isEmpty then [] else [.and (words.map fun word => .or (s.branches word))]

/-- The search as one condition. -/
def condition (s : Search) : Option Predicate :=
  match s.compile with
  | [] => none
  | [.and children] => some (.and children)
  | branches => some (.or branches)

/-- A disjunction of leaves on the fields, each field at least once. -/
def isAlternatives (fields : List Path) : Predicate → Bool
  | .or children =>
    let paths := children.map Predicate.path?
    !children.isEmpty && paths.all (fun path => path.any fields.contains) &&
      fields.all fun field => paths.contains (some field)
  | _ => false

/-- A condition with the shape of a search over the fields. -/
def isSearch (fields : List Path) : Predicate → Bool
  | .and children => !children.isEmpty && children.all (isAlternatives fields)
  | p => isAlternatives fields p

/-- The filter without its search over the fields. -/
def clear (filter : Option Predicate) (fields : List Path) : Option Predicate :=
  match filter with
  | none => none
  | some p => Predicate.mergeAnd ((p.conjuncts.filter fun c => !isSearch fields c).map some)

/-- The filter with its search over the same fields replaced by this one. -/
def apply (s : Search) (filter : Option Predicate) : Option Predicate :=
  let kept := ((clear filter s.fields).map Predicate.conjuncts).getD []
  Predicate.mergeAnd (kept.map some ++ [s.condition])

end Search

end Roster
