import Roster.Predicate.Clause

/-!
# Sort keys

An `orderBy` is a list of sort keys, the first one deciding before the others.
It is written as an array of objects with one key each, and read from those,
from objects with several keys, or from a single object. A key that leads to an
object opens a relation, as in a `where` clause.
-/

namespace Roster

/-- A direction to sort in. -/
inductive Direction where
  | asc
  | desc
deriving DecidableEq, Repr, Inhabited

/-- A field to sort by. -/
structure SortKey where
  path : Path
  direction : Direction
deriving DecidableEq, Repr

/-- The word for a direction. -/
def Direction.word : Direction → String
  | .asc => "asc"
  | .desc => "desc"

/-- The direction of a word. -/
def Direction.ofWord? : String → Option Direction
  | "asc" => some .asc
  | "desc" => some .desc
  | _ => none

namespace SortKey

mutual

/-- Reads the keys of an entry. -/
def readKeys (hops : List String) : List (String × Json) → Except OrderFault (List SortKey)
  | [] => .ok []
  | (key, v) :: rest => do
    if Path.isName key then
      let first ← readValue ⟨hops ++ [key]⟩ v
      return first ++ (← readKeys hops rest)
    else .error (.badName key)

/-- Reads what stands under a path: a direction, or keys of a related record. -/
def readValue (path : Path) : Json → Except OrderFault (List SortKey)
  | .str word =>
    match Direction.ofWord? word with
    | some direction => .ok [⟨path, direction⟩]
    | none => .error (.unknownDirection word path)
  | .obj fields =>
    if fields.isEmpty then .error .emptyEntry else readKeys path.segments fields
  | _ => .error (.badValue path)

end

/-- Reads one entry. -/
def readEntry : Json → Except OrderFault (List SortKey)
  | .obj fields => if fields.isEmpty then .error .emptyEntry else readKeys [] fields
  | _ => .error .entryNotObject

/-- Reads entries one after the other. -/
def readEntries : List Json → Except OrderFault (List SortKey)
  | [] => .ok []
  | v :: rest => do
    let first ← readEntry v
    return first ++ (← readEntries rest)

/-- Reads an `orderBy`. -/
def listOfJson : Json → Except QueryFault (List SortKey)
  | .arr entries => (readEntries entries).mapError .order
  | .obj fields => (readEntry (.obj fields)).mapError .order
  | _ => .error (.order .notEntries)

/-- One entry of the written form. -/
def toJson (k : SortKey) : Json := Predicate.nest k.path (.str k.direction.word)

/-- The written form of sort keys. -/
def listToJson (keys : List SortKey) : Json := .arr (keys.map toJson)

end SortKey

end Roster
