import Roster.Query.Descriptor
import Roster.Schema.Basic
import Roster.Timestamp
import Roster.Uuid

/-!
# Queries against a schema

Every path of a query has to lead to a field, and every operand has to be of the
kind of its field. `Registry.problems` lists what is wrong, in the order where,
orderBy, select, include; a query without problems is valid.
-/

namespace Roster

/-- What a schema has against a query. `place` says in which part of the query. -/
inductive Problem where
  /-- A path leads nowhere. -/
  | unresolved (place : String) (fault : PathFault)
  /-- A scalar of another kind than the field. -/
  | operand (place : String) (path : Path) (kind : FieldKind)
  /-- The same under an operator. -/
  | operatorOperand (place : String) (path : Path) (operator : String) (kind : FieldKind)
  /-- Text operators on a field that holds no texts. -/
  | textOnly (place : String) (path : Path)
  /-- A sort key behind a relation. -/
  | nestedSort (path : Path) (entity : String)
  /-- A sort key that is no field. -/
  | unknownSort (entity : String) (path : Path)
  /-- A selected name that is no field. -/
  | unknownField (place entity name : String)
  /-- An included name that is no relation. -/
  | unknownRelation (place entity relation : String)
deriving DecidableEq, Repr

/-- The word for what a field of a kind is compared with. -/
def FieldKind.operandWord : FieldKind → String
  | .text => "text"
  | .integer => "integer"
  | .decimal => "numeric"
  | .bool => "boolean"
  | .timestamp => "RFC 3339 timestamp"
  | .uuid => "uuid"

/-- The wording of a problem. -/
def Problem.message : Problem → String
  | .unresolved place fault => place ++ ": " ++ fault.message
  | .operand place path kind =>
    place ++ ": `" ++ path.text ++ "` expects a " ++ kind.operandWord ++ " value"
  | .operatorOperand place path operator kind =>
    place ++ ": `" ++ path.text ++ "` " ++ operator ++ ": expects a " ++ kind.operandWord ++ " value"
  | .textOnly place path =>
    place ++ ": `" ++ path.text ++
      "` only text fields support contains, startsWith, endsWith and mode"
  | .nestedSort path entity =>
    "orderBy: `" ++ path.text ++ "` is not a field of `" ++ entity ++
      "`; sorting through relations is not supported"
  | .unknownSort entity path => "orderBy: " ++ noFieldMessage entity path.text
  | .unknownField place entity name => place ++ ": " ++ noFieldMessage entity name
  | .unknownRelation place entity relation => place ++ ": " ++ noRelationMessage entity relation

/-- A field of the kind can be compared with a scalar that is not null. -/
def FieldKind.admits : FieldKind → Scalar → Bool
  | .text, .text _ => true
  | .integer, .int _ => true
  | .decimal, .int _ => true
  | .decimal, .float _ => true
  | .bool, .bool _ => true
  | .timestamp, .text s => Timestamp.isValid s
  | .uuid, .text s => (Uuid.parse? s).isSome
  | _, _ => false

/-- The same where `null` is an operand too. -/
def FieldKind.admitsNullable (k : FieldKind) (s : Scalar) : Bool := s.isNull || k.admits s

namespace Filter

/-- The problems of a filter on a field. -/
def problems (f : Filter) (place : String) (path : Path) (kind : FieldKind) : List Problem :=
  let check (operator : String) (admits : Scalar → Bool) (operands : List Scalar) : List Problem :=
    (operands.filter fun s => !admits s).map fun _ => .operatorOperand place path operator kind
  (if !kind.isText && (f.matchesText || f.ignoreCase) then [.textOnly place path] else []) ++
    check "equals" kind.admitsNullable f.equals.toList ++
    check "not" kind.admitsNullable f.differs.toList ++
    check "lt" kind.admits f.lt.toList ++ check "lte" kind.admits f.lte.toList ++
    check "gt" kind.admits f.gt.toList ++ check "gte" kind.admits f.gte.toList ++
    check "in" kind.admits (f.oneOf.getD []) ++ check "notIn" kind.admits (f.noneOf.getD [])

end Filter

namespace Predicate

mutual

/-- The problems of a predicate on rows of an entity. -/
def problems (r : Registry) (e : Entity) (place : String) : Predicate → List Problem
  | .equals path value =>
    match r.resolve e path with
    | .ok (_, field) =>
      if field.kind.admitsNullable value then [] else [.operand place path field.kind]
    | .error fault => [.unresolved place fault]
  | .operator path filter =>
    match r.resolve e path with
    | .ok (_, field) => filter.problems place path field.kind
    | .error fault => [.unresolved place fault]
  | .and children => problemsOfAll r e place children
  | .or children => problemsOfAll r e place children
  | .not inner => inner.problems r e place

/-- The problems of several predicates. -/
def problemsOfAll (r : Registry) (e : Entity) (place : String) : List Predicate → List Problem
  | [] => []
  | p :: rest => p.problems r e place ++ problemsOfAll r e place rest

end

end Predicate

/-- The problems of a selection. -/
def selectProblems (e : Entity) (place : String) (select : Select) : List Problem :=
  (select.names.filter fun name => (e.field? name).isNone).map (.unknownField place e.name)

/-- The problems of a sort key. -/
def SortKey.problems (e : Entity) (key : SortKey) : List Problem :=
  if key.path.isNested then [.nestedSort key.path e.name]
  else if (e.field? key.path.leaf).isNone then [.unknownSort e.name key.path]
  else []

namespace IncludeEntry

mutual

/-- The problems below the name of a relation that leads to `target`. -/
def problems (r : Registry) (target : Entity) (place : String) : IncludeEntry → List Problem
  | .nested inc select filter =>
    ((filter.map (Predicate.problems r target (place ++ ".where"))).getD []) ++
      ((select.map (selectProblems target (place ++ ".select"))).getD []) ++
      includeProblems r target (place ++ ".include") inc
  | _ => []

/-- The problems of the includes of a node. -/
def includeProblems (r : Registry) (e : Entity) (place : String) :
    Option (List (String × IncludeEntry)) → List Problem
  | none => []
  | some tree => treeProblems r e place tree

/-- The problems of an include tree on rows of an entity. -/
def treeProblems (r : Registry) (e : Entity) (place : String) :
    List (String × IncludeEntry) → List Problem
  | [] => []
  | (relation, entry) :: rest =>
    (match r.target? e relation with
      | some target => entry.problems r target (place ++ "." ++ relation)
      | none => [.unknownRelation place e.name relation]) ++ treeProblems r e place rest

end

end IncludeEntry

/-- What the schema has against a query for an entity. -/
def Registry.problems (r : Registry) (e : Entity) (q : Descriptor) : List Problem :=
  ((q.filter.map (Predicate.problems r e "where")).getD []) ++
    ((q.orderBy.getD []).flatMap (SortKey.problems e)) ++
    ((q.select.map (selectProblems e "select")).getD []) ++
    IncludeEntry.includeProblems r e "include" q.include?

/-- The query is valid for an entity. -/
def Registry.accepts (r : Registry) (e : Entity) (q : Descriptor) : Bool :=
  (r.problems e q).isEmpty

end Roster
