import Roster.Keyed
import Roster.Path

/-!
# Schemas

An entity has fields, each kept in a column, and relations to other entities. A
row is related to every row of the target whose foreign field equals its own
local field. A registry holds the entities by name, in increasing order.
-/

namespace Roster

/-- What a field holds. -/
inductive FieldKind where
  | text
  | integer
  | decimal
  | bool
  | timestamp
  | uuid
deriving DecidableEq, Repr, Inhabited

/-- A field of an entity. -/
structure Field where
  name : String
  column : String
  kind : FieldKind
deriving DecidableEq, Repr, Inhabited

/-- A link from an entity to another one. -/
structure Relation where
  name : String
  target : String
  localField : String
  foreignField : String
  /-- At most one record is related. -/
  singular : Bool
deriving DecidableEq, Repr, Inhabited

/-- A kind of record. -/
structure Entity where
  name : String
  table : String
  fields : List Field
  relations : List Relation
  /-- The entity has a list of its own; others are only included. -/
  listable : Bool
deriving DecidableEq, Repr, Inhabited

/-- The field holds texts. -/
def FieldKind.isText (k : FieldKind) : Bool := k = .text

namespace Entity

/-- A field by name. -/
def field? (e : Entity) (name : String) : Option Field := e.fields.find? (·.name == name)

/-- A relation by name. -/
def relation? (e : Entity) (name : String) : Option Relation := e.relations.find? (·.name == name)

end Entity

/-- Entities by name. -/
abbrev Registry := Keyed Entity

/-- Why a path leads to no field. -/
inductive PathFault where
  | empty
  | noRelation (entity hop : String)
  | noField (entity leaf : String)
deriving DecidableEq, Repr

/-- The wording of an entity that is not registered. -/
def unknownEntityMessage (entity : String) : String := "unknown entity `" ++ entity ++ "`"

/-- The wording of a relation that an entity does not have. -/
def noRelationMessage (entity relation : String) : String :=
  "`" ++ entity ++ "` has no relation `" ++ relation ++ "`"

/-- The wording of a field that an entity does not have. -/
def noFieldMessage (entity field : String) : String :=
  "`" ++ entity ++ "` has no field `" ++ field ++ "`"

/-- The wording of a path fault. -/
def PathFault.message : PathFault → String
  | .empty => "empty field path"
  | .noRelation entity hop => noRelationMessage entity hop
  | .noField entity leaf => noFieldMessage entity leaf

namespace Registry

/-- The registry with one more entity. -/
def register (r : Registry) (e : Entity) : Registry := Keyed.putSorted r e.name e

/-- The registry of a list of entities. -/
def ofEntities (es : List Entity) : Registry := es.foldl register []

/-- An entity by name. -/
def entity? (r : Registry) (name : String) : Option Entity := Keyed.get? r name

/-- An entity that has a list of its own. -/
def listable? (r : Registry) (name : String) : Option Entity :=
  (r.entity? name).filter (·.listable)

/-- The entity at the other end of a relation. -/
def target? (r : Registry) (e : Entity) (relation : String) : Option Entity :=
  e.relation? relation >>= fun rel => r.entity? rel.target

/-- The entity that relations lead to, one after the other. -/
def follow (r : Registry) : Entity → List String → Except PathFault Entity
  | e, [] => .ok e
  | e, hop :: rest =>
    match r.target? e hop with
    | some target => r.follow target rest
    | none => .error (.noRelation e.name hop)

/-- The owner and the field that a path leads to. -/
def resolve (r : Registry) (e : Entity) (path : Path) : Except PathFault (Entity × Field) :=
  if path.segments.isEmpty then .error .empty
  else do
    let owner ← r.follow e path.relations
    match owner.field? path.leaf with
    | some field => .ok (owner, field)
    | none => .error (.noField owner.name path.leaf)

end Registry

end Roster
