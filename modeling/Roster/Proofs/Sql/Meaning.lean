import Roster.Proofs.Number.Exact
import Roster.Proofs.Predicate.Acceptance
import Roster.Proofs.Sql.Like
import Roster.Sql.Where
import Roster.Text.Bytes

/-!
# What a condition means

A condition is read over a database, the records of every table, and over the record that each name
stands for. Its value is three-valued: a comparison with a null cell is unknown, the connectives are
those of `Truth`, and `EXISTS` asks whether some record makes its condition true, so it is never
unknown. A list of values is compared one by one: `IN` is the disjunction of the equalities, and
`NOT IN` its negation.

Numbers are compared as the rational numbers that they are, and texts by their bytes.
-/

namespace Roster.Sql

/-- The value of a column. -/
inductive Cell where
  | null
  | bool (b : Bool)
  | number (q : ℚ)
  | text (s : String)
deriving DecidableEq

/-- A record: a cell in every column. -/
abbrev Record := String → Cell

/-- The records of every table. -/
abbrev Database := String → List Record

namespace Cell

/-- The cell that keeps a value of a field. Arrays and objects are kept by none. -/
def ofJson : Json → Cell
  | .null => .null
  | .bool b => .bool b
  | .num (.int i) => .number i
  | .num (.float d) => .number d.value
  | .str s => .text s
  | .arr _ => .null
  | .obj _ => .null

/-- The value of an operand. -/
def ofScalar : Scalar → Cell
  | .null => .null
  | .bool b => .bool b
  | .int i => .number i.toInt
  | .float d => .number d.value
  | .text s => .text s

/-- How two cells compare; null compares with nothing, and neither do values of two types. -/
def order? : Cell → Cell → Option Ordering
  | .bool a, .bool b => some (compare a b)
  | .number a, .number b => some (compare a b)
  | .text a, .text b => some (compare (Text.bytes a) (Text.bytes b))
  | _, _ => none

/-- The cell is null. -/
def isNull : Cell → Bool
  | .null => true
  | _ => false

/-- A comparison: unknown where a side is null. -/
def test (accepts : Ordering → Bool) (a b : Cell) : Truth :=
  if a.isNull || b.isNull then .unknown else .ofBool ((a.order? b).any accepts)

/-- Equality. -/
def equals (a b : Cell) : Truth := test (· == .eq) a b

/-- The cell is one of some values. -/
def isIn (cell : Cell) (values : List Scalar) : Truth :=
  .any (values.map fun value => cell.equals (ofScalar value))

/-- The text of the cell is like a pattern. -/
def like (ignoreCase : Bool) (pattern : List Char) : Cell → Truth
  | .null => .unknown
  | .text s => .ofBool (likes (comparedText ignoreCase (String.ofList pattern)).toList
      (comparedText ignoreCase s).toList)
  | _ => .no

end Cell

/-- The records that names stand for, with another one under a name. -/
def bind (env : Alias → Record) (name : Alias) (record : Record) : Alias → Record :=
  fun other => if other = name then record else env other

namespace Condition

/-- The value of a condition. -/
def truth (db : Database) (env : Alias → Record) : Condition → Truth
  | always => .yes
  | never => .no
  | isNull c => .ofBool (env c.row c.name).isNull
  | isNotNull c => .ofBool !(env c.row c.name).isNull
  | equals c value => (env c.row c.name).equals (.ofScalar value)
  | ordered c bound value => (env c.row c.name).test bound.accepts (.ofScalar value)
  | isIn c values => (env c.row c.name).isIn values
  | isNotIn c values => ((env c.row c.name).isIn values).not
  | like c ignoreCase pattern => (env c.row c.name).like ignoreCase pattern
  | .exists table link outer inner =>
    .ofBool ((db table).any fun record =>
      let env := bind env link.row record
      (((env link.row link.name).equals (env outer.row outer.name)).and (inner.truth db env)).holds)
  | not inner => (inner.truth db env).not
  | and left right => (left.truth db env).and (right.truth db env)
  | or left right => (left.truth db env).or (right.truth db env)

/-- The condition selects a record. -/
def selects (db : Database) (c : Condition) (record : Record) : Bool :=
  (c.truth db fun _ => record).holds

/-! ## Connectives -/

/-- A condition that is joined from the left has the value that its parts have joined. -/
theorem truth_foldl {db : Database} {env : Alias → Record}
    {join : Condition → Condition → Condition} {joined : Truth → Truth → Truth}
    (truths : ∀ left right,
      (join left right).truth db env = joined (left.truth db env) (right.truth db env))
    (first : Condition) (rest : List Condition) :
    (rest.foldl join first).truth db env =
      (rest.map (truth db env)).foldl joined (first.truth db env) := by
  rw [List.foldl_map]
  exact (List.foldl_hom (truth db env) fun left right => (truths left right).symm).symm

theorem truth_all (db : Database) (env : Alias → Record) (cs : List Condition) :
    (all cs).truth db env = .all (cs.map (truth db env)) := by
  cases cs with
  | nil => rfl
  | cons first rest =>
    rw [all, truth_foldl fun _ _ => rfl, Truth.foldl_and, List.map_cons, Truth.all_cons]

theorem truth_any (db : Database) (env : Alias → Record) (cs : List Condition) :
    (any cs).truth db env = .any (cs.map (truth db env)) := by
  cases cs with
  | nil => rfl
  | cons first rest =>
    rw [any, truth_foldl fun _ _ => rfl, Truth.foldl_or, List.map_cons, Truth.any_cons]

end Condition

end Roster.Sql
