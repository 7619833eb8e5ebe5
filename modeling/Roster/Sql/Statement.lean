import Roster.Query.Descriptor
import Roster.Sql.Text
import Roster.Sql.Where

/-!
# Statements

The two statements of a list query: one selects the rows of the window, the
other counts all rows that pass the filter. Rows are ordered by the sort keys
and then by their id, so that a window always holds the same rows.
-/

namespace Roster.Sql

/-- A statement that selects rows. -/
structure SelectStatement where
  /-- Columns, and the names that their values get. -/
  columns : List (String × String)
  table : String
  condition : Option Condition
  order : List (String × Direction)
  limit : Option Nat
  offset : Option Nat

/-- The condition of a statement. -/
def conditionText (condition : Option Condition) : String :=
  match condition with
  | some c => " WHERE " ++ c.text
  | none => ""

/-- A number after a keyword. -/
def clauseText (keyword : String) (n : Option Nat) : String :=
  match n with
  | some n => " " ++ keyword ++ " " ++ decimal n
  | none => ""

/-- The keyword of a direction. -/
def directionText : Direction → String
  | .asc => "ASC"
  | .desc => "DESC"

namespace SelectStatement

/-- The order of a statement. -/
def orderText (order : List (String × Direction)) : String :=
  if order.isEmpty then ""
  else " ORDER BY " ++ ", ".intercalate (order.map fun key =>
    (Column.mk .main key.1).text ++ " " ++ directionText key.2)

/-- The text of a statement. -/
def text (s : SelectStatement) : String :=
  "SELECT " ++ ", ".intercalate (s.columns.map fun column =>
      (Column.mk .main column.1).text ++ " AS " ++ identifier column.2) ++
    " " ++ sourceText s.table .main ++ conditionText s.condition ++ orderText s.order ++
    clauseText "LIMIT" s.limit ++ clauseText "OFFSET" s.offset

end SelectStatement

/-- The field that a sort key names. -/
def sortField (e : Entity) (key : SortKey) : Except WhereFault Field :=
  match e.field? key.path.leaf with
  | some field => .ok field
  | none => .error (.path (.noField e.name key.path.text))

/-- The order of the rows: the sort keys, then the id if it is not among them. -/
def orderOf (e : Entity) (keys : List SortKey) : Except WhereFault (List (String × Direction)) := do
  let sorted ← keys.mapM fun key => return (← sortField e key, key.direction)
  let last := if sorted.any (·.1.name == "id") then none else e.field? "id"
  return sorted.map (fun key => (key.1.column, key.2)) ++
    (last.map fun id => (id.column, Direction.asc)).toList

/-- The statement that selects the rows of a query. -/
def selectOf (r : Registry) (e : Entity) (q : Descriptor) : Except WhereFault SelectStatement := do
  let condition ← whereOf r e q.filter
  let order ← orderOf e (q.orderBy.getD [])
  return {
    columns := e.fields.map fun field => (field.column, field.name)
    table := e.table
    condition := condition
    order := order
    limit := q.take
    offset := q.skip.filter (0 < ·) }

/-- The text of the statement that selects the rows of a query. -/
def selectText (r : Registry) (e : Entity) (q : Descriptor) : Except WhereFault String :=
  (selectOf r e q).map SelectStatement.text

/-- The text of the statement that counts the rows that pass a filter. -/
def countText (r : Registry) (e : Entity) (filter : Option Predicate) : Except WhereFault String :=
  (whereOf r e filter).map fun condition =>
    "SELECT COUNT(*) " ++ sourceText e.table .main ++ conditionText condition

end Roster.Sql
