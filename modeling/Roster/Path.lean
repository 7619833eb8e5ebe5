import Roster.Text.Split

/-!
# Field paths

A path names a field of a record, or a field of related records behind one or
more relations: `job.ownerId`. Its text is its segments joined by points.

`Path.parse?` accepts a text whose segments are all identifiers. `Path.ofText`
takes any text apart; what it yields may have segments that no query can spell.
-/

namespace Roster

/-- A path to a field: relation names, then the field's name. -/
structure Path where
  segments : List String
deriving DecidableEq, Repr, Inhabited

namespace Path

/-- A letter of ASCII or the low line. -/
def isNameStart (c : Char) : Bool := c.isAlpha || c = '_'

/-- A letter or digit of ASCII or the low line. -/
def isNameChar (c : Char) : Bool := c.isAlphanum || c = '_'

/-- The text is an identifier. -/
def isName (text : String) : Bool :=
  match text.toList with
  | [] => false
  | first :: rest => isNameStart first && rest.all isNameChar

/-- A path of any text, cut at its points. -/
def ofText (text : String) : Path := ⟨Text.splitOn text '.'⟩

/-- A path of a text whose pieces are identifiers. -/
def parse? (text : String) : Option Path :=
  let path := ofText text
  if path.segments.all isName then some path else none

/-- A path of one identifier. -/
def single? (name : String) : Option Path := if isName name then some ⟨[name]⟩ else none

/-- The text of a path. -/
def text (p : Path) : String := ".".intercalate p.segments

/-- The first segment. -/
def head (p : Path) : String := p.segments.headD ""

/-- The last segment: the name of the field. -/
def leaf (p : Path) : String := p.segments.getLastD ""

/-- The segments before the last: the relations to go through. -/
def relations (p : Path) : List String := p.segments.dropLast

/-- The path goes through a relation. -/
def isNested (p : Path) : Bool := 1 < p.segments.length

/-- The path with one more segment. -/
def child (p : Path) (name : String) : Path := ⟨p.segments ++ [name]⟩

/-- The path is `other` or goes on from it. -/
def startsWith (p other : Path) : Bool := other.segments.isPrefixOf p.segments

end Path

end Roster
