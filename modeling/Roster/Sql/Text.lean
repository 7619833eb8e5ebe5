import Roster.Sql.Condition

/-!
# The text of conditions

Names stand between double quotes and texts between single ones. A text with a
character that needs a backslash is written as an escape literal, `E'…'`.

The operands of `AND`, `OR` and `NOT` are put into parentheses unless they are
plain comparisons or an `EXISTS`; the left operand of a chain of one connective
goes without them too.
-/

namespace Roster.Sql

/-- A text between characters. -/
def enclose (opening closing : String) (text : String) : String := opening ++ text ++ closing

/-- A name; a double quote in it is written twice. -/
def identifier (text : String) : String :=
  enclose "\"" "\"" (String.ofList (text.toList.flatMap fun c => if c = '"' then [c, c] else [c]))

/-- The letter that a character has after a backslash, if it needs one. -/
def escapeLetter? (c : Char) : Option Char :=
  if c = '\\' || c = '"' || c = '\'' then some c
  else if c = '\x00' then some '0'
  else if c = '\x08' then some 'b'
  else if c = '\t' then some 't'
  else if c = '\x1a' then some 'z'
  else if c = '\n' then some 'n'
  else if c = '\r' then some 'r'
  else none

/-- A character of a text literal. -/
def literalChar (c : Char) : List Char :=
  match escapeLetter? c with
  | some letter => ['\\', letter]
  | none => [c]

/-- A text literal. -/
def literal (text : List Char) : String :=
  let opening := if text.any fun c => (escapeLetter? c).isSome then "E'" else "'"
  enclose opening "'" (String.ofList (text.flatMap literalChar))

/-- A value. -/
def valueText : Scalar → String
  | .null => "NULL"
  | .bool b => if b then "TRUE" else "FALSE"
  | .int i => signedDecimal i.toInt
  | .float d => Layout.plain.write d
  | .text s => literal s.toList

/-- A list of values. -/
def valuesText (values : List Scalar) : String :=
  enclose "(" ")" (", ".intercalate (values.map valueText))

/-- The name of a row. -/
def Alias.text : Alias → String
  | .main => identifier "e"
  | .related number => identifier ("r" ++ decimal number)

/-- A column of a row. -/
def Column.text (c : Column) : String := c.row.text ++ "." ++ identifier c.name

/-- The sign of a bound. -/
def boundSign : Bound → String
  | .lt => "<"
  | .lte => "<="
  | .gt => ">"
  | .gte => ">="

/-- The table that rows are taken from, under a name of their own. -/
def sourceText (table : String) (row : Alias) : String :=
  "FROM " ++ identifier table ++ " AS " ++ row.text

namespace Condition

/-- The condition needs no parentheses as an operand. -/
def isPlain : Condition → Bool
  | isNull _ => true
  | isNotNull _ => true
  | equals _ _ => true
  | ordered _ _ _ => true
  | isIn _ _ => true
  | isNotIn _ _ => true
  | like _ ignoreCase _ => !ignoreCase
  | .exists _ _ _ _ => true
  | _ => false

/-- The condition is a conjunction. -/
def isAnd : Condition → Bool
  | and _ _ => true
  | _ => false

/-- The condition is a disjunction. -/
def isOr : Condition → Bool
  | or _ _ => true
  | _ => false

/-- An operand, in parentheses unless it goes `bare`. -/
def operandText (bare : Bool) (text : String) : String :=
  if bare then text else enclose "(" ")" text

/-- The text of a condition. -/
def text : Condition → String
  | always => "TRUE"
  | never => "FALSE"
  | isNull column => column.text ++ " IS NULL"
  | isNotNull column => column.text ++ " IS NOT NULL"
  | equals column value => column.text ++ " = " ++ valueText value
  | ordered column bound value => column.text ++ " " ++ boundSign bound ++ " " ++ valueText value
  | isIn column values => column.text ++ " IN " ++ valuesText values
  | isNotIn column values => column.text ++ " NOT IN " ++ valuesText values
  | like column ignoreCase pattern =>
    column.text ++ (if ignoreCase then " ILIKE " else " LIKE ") ++ literal pattern
  | .exists table link outer inner =>
    "EXISTS" ++ enclose "(" ")" ("SELECT 1 " ++ sourceText table link.row ++ " WHERE " ++ link.text ++
      " = " ++ outer.text ++ " AND " ++ operandText inner.isPlain inner.text)
  | not inner => "NOT " ++ operandText inner.isPlain inner.text
  | and left right =>
    operandText (left.isPlain || left.isAnd) left.text ++ " AND " ++
      operandText right.isPlain right.text
  | or left right =>
    operandText (left.isPlain || left.isOr) left.text ++ " OR " ++
      operandText right.isPlain right.text

end Condition

end Roster.Sql
