import Roster.Schema.Basic
import Roster.Scope.Rule

/-!
# Redaction

The last step before rows are handed out. The fields that a caller may not read
are removed from a row and, along the relations of its entity, from every record
inside it.
-/

namespace Roster.Caller

/-- The name is a restricted field of an entity. -/
def hides (c : Caller) (entity name : String) : Bool :=
  (c.rule entity).restricted.any fun path => path.leaf == name

mutual

/-- A row without the fields that the caller may not read. -/
def redact (c : Caller) (r : Registry) (e : Entity) : Json → Json
  | .obj fields => .obj (redactFields c r e fields)
  | v => v

/-- The fields of a row that are left. -/
def redactFields (c : Caller) (r : Registry) (e : Entity) :
    List (String × Json) → List (String × Json)
  | [] => []
  | (name, v) :: rest =>
    if c.hides e.name name then redactFields c r e rest
    else
      (name, match r.target? e name with
        | some target => redactRelated c r target v
        | none => v) :: redactFields c r e rest

/-- What stands under a relation: a record, or an array of records. -/
def redactRelated (c : Caller) (r : Registry) (target : Entity) : Json → Json
  | .arr items => .arr (redactItems c r target items)
  | .obj fields => .obj (redactFields c r target fields)
  | v => v

/-- Every record of an array. -/
def redactItems (c : Caller) (r : Registry) (target : Entity) : List Json → List Json
  | [] => []
  | v :: rest => redact c r target v :: redactItems c r target rest

end

end Roster.Caller
