import Roster.Sql.Pattern

/-!
# Conditions

The condition of a `WHERE` clause, over the columns of named rows: the row that
is selected and the related rows that some `EXISTS` speaks of.

`Condition.all` and `Condition.any` join conditions from the left; a single
condition is joined to nothing.
-/

namespace Roster.Sql

/-- The name of a row. -/
inductive Alias where
  /-- The row that is selected. -/
  | main
  /-- A related row; each has a number of its own. -/
  | related (number : Nat)
deriving DecidableEq, Repr

/-- A column of a row. -/
structure Column where
  row : Alias
  name : String
deriving DecidableEq, Repr

/-- A condition. -/
inductive Condition where
  | always
  | never
  | isNull (column : Column)
  | isNotNull (column : Column)
  | equals (column : Column) (value : Scalar)
  | ordered (column : Column) (bound : Bound) (value : Scalar)
  | isIn (column : Column) (values : List Scalar)
  | isNotIn (column : Column) (values : List Scalar)
  | like (column : Column) (ignoreCase : Bool) (pattern : List Char)
  /-- Some row of the table has `link` equal to a column of an outer row and passes `inner`. -/
  | exists (table : String) (link outer : Column) (inner : Condition)
  | not (inner : Condition)
  | and (left right : Condition)
  | or (left right : Condition)
deriving Repr

namespace Condition

instance : Inhabited Condition := ⟨always⟩

/-- Every condition, joined from the left. -/
def all : List Condition → Condition
  | [] => always
  | first :: rest => rest.foldl and first

/-- Some condition, joined from the left. -/
def any : List Condition → Condition
  | [] => never
  | first :: rest => rest.foldl or first

end Condition

end Roster.Sql
