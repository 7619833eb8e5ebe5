import Roster.Filter

/-!
# Patterns

In a `LIKE` pattern `%` stands for any text, `_` for any character, and a
backslash takes the next character as it is. A term that is looked for inside a
text is escaped, so that it stands for itself, and gets a `%` where the text may
go on.
-/

namespace Roster.Sql

/-- A character of a term inside a pattern. -/
def escapeChar (c : Char) : List Char :=
  if c = '\\' || c = '%' || c = '_' then ['\\', c] else [c]

/-- The pattern that a term alone is. -/
def escapeTerm (term : List Char) : List Char := term.flatMap escapeChar

/-- The pattern of a term at a place. -/
def patternOf (place : TextMatch) (term : List Char) : List Char :=
  match place with
  | .contains => '%' :: (escapeTerm term ++ ['%'])
  | .startsWith => escapeTerm term ++ ['%']
  | .endsWith => '%' :: escapeTerm term

end Roster.Sql
