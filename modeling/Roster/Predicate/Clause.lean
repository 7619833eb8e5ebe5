import Roster.Predicate.Basic
import Roster.Query.Fault

/-!
# Where clauses

The JSON form of predicates. In a clause every key is a condition, and all
conditions of an object hold together:

- `AND`, `OR` and `NOT` combine clauses;
- any other key is a field, or a relation to a record with fields of its own.

A field stands against a scalar or an operator object. An object without an
operator key opens a relation: what is inside is read under the longer path, so
relations leave no trace in the tree but the paths of its leaves.

`Predicate.ofJson` reads a clause, `Predicate.toJson` writes the canonical one.
-/

namespace Roster

/-- The keys of a clause that are no names. -/
inductive Connective where
  | and
  | or
  | not
deriving DecidableEq, Repr

/-- The connective that a key is. -/
def Connective.ofKey? (key : String) : Option Connective :=
  if key = "AND" then some .and
  else if key = "OR" then some .or
  else if key = "NOT" then some .not
  else none

namespace Predicate

/-- The conditions of one clause as one predicate; a single condition stands for itself. -/
def combine : List Predicate → Predicate
  | [p] => p
  | ps => .and ps

/-- The path of a key under the relations gone through so far. -/
def pathAt (hops : List String) (key : String) : Except QueryFault Path :=
  if Path.isName key then .ok ⟨hops ++ [key]⟩ else .error (.path key)

/-- An object with an operator key. -/
def hasOperatorKey (fields : List (String × Json)) : Bool :=
  fields.any fun field => Filter.keys.contains field.1

/-- Reads an operator object under a path. -/
def readOperator (path : Path) (v : Json) : Except QueryFault Predicate :=
  match Filter.ofJson v with
  | .error error => .error (.clause (.badOperator path error))
  | .ok filter =>
    if filter.isBlank then .error (.clause (.noComparison path)) else .ok (.operator path filter)

/-- Reads a key with a value that is neither an array nor an object. -/
def readPlain (hops : List String) (key : String) (v : Json) : Except QueryFault Predicate :=
  match Connective.ofKey? key with
  | some .and => .error (.clause (.notClauses key v.kind))
  | some .or => .error (.clause .orNotArray)
  | some .not => .error (.clause (.notObject v.kind))
  | none => do
    let path ← pathAt hops key
    match Scalar.ofJson? v with
    | some value => .ok (.equals path value)
    | none => .error (.clause (.arrayOperand path))

mutual

/-- Reads a clause. -/
def readClause (hops : List String) : Json → Except QueryFault Predicate
  | .obj fields => do return combine (← readFields hops fields)
  | v => .error (.clause (.notObject v.kind))

/-- Reads every item of an array as a clause. -/
def readItems (hops : List String) : List Json → Except QueryFault (List Predicate)
  | [] => .ok []
  | v :: rest => do
    let p ← readClause hops v
    return p :: (← readItems hops rest)

/-- Reads the keys of a clause in their order. -/
def readFields (hops : List String) : List (String × Json) → Except QueryFault (List Predicate)
  | [] => .ok []
  | (key, v) :: rest => do
    let p ← readKey hops key v
    return p :: (← readFields hops rest)

/-- Reads one key of a clause. -/
def readKey (hops : List String) (key : String) : Json → Except QueryFault Predicate
  | .arr items =>
    match Connective.ofKey? key with
    | some .and => do return .and (← readItems hops items)
    | some .or => do return .or (← readItems hops items)
    | some .not => do return .not (.and (← readItems hops items))
    | none => do .error (.clause (.arrayOperand (← pathAt hops key)))
  | .obj fields =>
    match Connective.ofKey? key with
    | some .and => do return .and [combine (← readFields hops fields)]
    | some .or => .error (.clause .orNotArray)
    | some .not => do return .not (combine (← readFields hops fields))
    | none => do
      let path ← pathAt hops key
      if hasOperatorKey fields then readOperator path (.obj fields)
      else return combine (← readFields path.segments fields)
  | v => readPlain hops key v

end

/-- Reads a `where` clause. -/
def ofJson (v : Json) : Except QueryFault Predicate := readClause [] v

/-! ## Writing -/

/-- A value under the segments of a path, one object inside the other. -/
def nest (path : Path) (v : Json) : Json :=
  path.segments.foldr (fun segment inner => .obj [(segment, inner)]) v

mutual

/-- The canonical clause. -/
def toJson : Predicate → Json
  | .equals path value => nest path value.toJson
  | .operator path filter => nest path filter.toJson
  | .and [] => .obj []
  | .and (p :: rest) => .obj [("AND", .arr (p.toJson :: clauses rest))]
  | .or children => .obj [("OR", .arr (clauses children))]
  | .not inner => .obj [("NOT", inner.toJson)]

/-- The canonical clauses of several predicates. -/
def clauses : List Predicate → List Json
  | [] => []
  | p :: rest => p.toJson :: clauses rest

end

/-- The text of the canonical clause. -/
def text (p : Predicate) : String := p.toJson.text

end Predicate

end Roster
