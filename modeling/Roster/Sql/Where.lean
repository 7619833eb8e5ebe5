import Roster.Predicate.Basic
import Roster.Schema.Basic
import Roster.Sql.Condition

/-!
# The condition of a predicate

A comparison of a field becomes a condition on its column, and a path through
relations becomes an `EXISTS` per relation. SQL makes a comparison with a null
column unknown; where a predicate accepts a null field, the condition says so.

Related rows are numbered from one in the order in which their relations are
written. A path takes as many numbers as it goes through relations, so the
numbers that a predicate starts with are known before it is looked at.
-/

namespace Roster.Sql

/-- Why a predicate has no condition. -/
inductive WhereFault where
  | path (fault : PathFault)
  | unknownEntity (name : String)
deriving DecidableEq, Repr

/-- The wording of a fault. -/
def WhereFault.message : WhereFault → String
  | .path fault => fault.message
  | .unknownEntity name => unknownEntityMessage name

/-! ## Comparisons -/

/-- The column holds a value. -/
def holds (column : Column) (value : Scalar) : Condition :=
  if value.isNull then .isNull column else .equals column value

/-- The column holds a value, as the filter compares texts. -/
def matchesValue (ignoreCase : Bool) (column : Column) (value : Scalar) : Condition :=
  match value, ignoreCase with
  | .text text, true => .like column true (escapeTerm text.toList)
  | _, _ => holds column value

/-- The values that are not null. -/
def present (values : List Scalar) : List Scalar := values.filter fun v => !v.isNull

/-- The column holds something else. -/
def differsFrom (ignoreCase : Bool) (column : Column) (value : Scalar) : Condition :=
  if value.isNull then .isNotNull column
  else .any [.not (matchesValue ignoreCase column value), .isNull column]

/-- The column holds one of some values. -/
def holdsOneOf (ignoreCase : Bool) (column : Column) (values : List Scalar) : Condition :=
  if ignoreCase then .any (values.map (matchesValue true column))
  else .any ((if (present values).isEmpty then [] else [.isIn column (present values)]) ++
    (if values.any Scalar.isNull then [.isNull column] else []))

/-- The column holds none of some values. -/
def holdsNoneOf (column : Column) (values : List Scalar) : Condition :=
  match (present values).isEmpty, values.any Scalar.isNull with
  | true, false => .always
  | true, true => .isNotNull column
  | false, true => .isNotIn column (present values)
  | false, false => .any [.isNotIn column (present values), .isNull column]

/-- The condition of one comparison. -/
def ofComparison (ignoreCase : Bool) (column : Column) : Comparison → Condition
  | .equals value => matchesValue ignoreCase column value
  | .differs value => differsFrom ignoreCase column value
  | .oneOf values => holdsOneOf ignoreCase column values
  | .noneOf values => holdsNoneOf column values
  | .ordered bound value => .ordered column bound value
  | .textual place term => .like column ignoreCase (patternOf place term.toList)

/-- The condition of a filter: all its comparisons. -/
def ofFilter (column : Column) (f : Filter) : Condition :=
  .all (f.comparisons.map (ofComparison f.ignoreCase column))

/-! ## Paths -/

/-- The column of a field. -/
def columnOf (e : Entity) (row : Alias) (field : String) : Except WhereFault Column :=
  match e.field? field with
  | some f => .ok ⟨row, f.column⟩
  | none => .error (.path (.noField e.name field))

/-- The condition of a test behind a path. `used` related rows have their numbers. -/
def ofPath (r : Registry) (test : Column → Condition) :
    Entity → Alias → Nat → List String → Except WhereFault Condition
  | _, _, _, [] => .error (.path .empty)
  | e, row, _, [field] => (columnOf e row field).map test
  | e, row, used, hop :: rest => do
    let some relation := e.relation? hop | throw (.path (.noRelation e.name hop))
    let some target := r.entity? relation.target | throw (.unknownEntity relation.target)
    let outer ← columnOf e row relation.localField
    let own := Alias.related (used + 1)
    let link ← columnOf target own relation.foreignField
    return .exists target.table link outer (← ofPath r test target own (used + 1) rest)

/-! ## Predicates -/

mutual

/-- How many related rows a predicate speaks of. -/
def hops : Predicate → Nat
  | .equals path _ => path.relations.length
  | .operator path _ => path.relations.length
  | .and children => hopsOfAll children
  | .or children => hopsOfAll children
  | .not inner => hops inner

/-- How many related rows several predicates speak of. -/
def hopsOfAll : List Predicate → Nat
  | [] => 0
  | p :: rest => hops p + hopsOfAll rest

end

mutual

/-- The condition of a predicate on a row of an entity. -/
def ofPredicate (r : Registry) (e : Entity) (row : Alias) (used : Nat) :
    Predicate → Except WhereFault Condition
  | .equals path value => ofPath r (holds · value) e row used path.segments
  | .operator path filter => ofPath r (ofFilter · filter) e row used path.segments
  | .and children => (ofPredicates r e row used children).map .all
  | .or children => (ofPredicates r e row used children).map .any
  | .not inner => (ofPredicate r e row used inner).map .not

/-- The conditions of several predicates on a row, numbered one after the other. -/
def ofPredicates (r : Registry) (e : Entity) (row : Alias) (used : Nat) :
    List Predicate → Except WhereFault (List Condition)
  | [] => .ok []
  | p :: rest => do
    let first ← ofPredicate r e row used p
    return first :: (← ofPredicates r e row (used + hops p) rest)

end

/-- The condition of a filter on the rows that are selected. The empty filter needs none. -/
def whereOf (r : Registry) (e : Entity) (filter : Option Predicate) :
    Except WhereFault (Option Condition) :=
  match filter with
  | none => .ok none
  | some p => if p.isEmpty then .ok none else (ofPredicate r e .main 0 p).map some

end Roster.Sql
