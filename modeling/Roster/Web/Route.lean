import Roster.Text.Split

/-!
# Routes

The locations that the server knows. Parameters are taken as they are written;
they are decoded when they are used.
-/

namespace Roster

/-- A location. -/
inductive Route where
  /-- The list of an entity. -/
  | list (entity : String)
  /-- A record of an entity. -/
  | record (entity id : String)
  | health
  | metrics
deriving DecidableEq, Repr

namespace Route

/-- The path of a request target: what stands before its query. -/
def pathOf (target : String) : String :=
  String.ofList (target.toList.takeWhile fun c => c ≠ '?' && c ≠ '#')

/-- The route of a path. The entity can be empty, the identifier of a record cannot. -/
def ofPath? (path : String) : Option Route :=
  match Text.splitOn path '/' with
  | ["", "health"] => some health
  | ["", "metrics"] => some metrics
  | ["", "api", entity, "list"] => some (list entity)
  | ["", "api", entity, id] => if id.isEmpty then none else some (record entity id)
  | _ => none

/-- The template of a route. -/
def template : Route → String
  | list _ => "/api/\x7bentity\x7d/list"
  | record _ _ => "/api/\x7bentity\x7d/\x7bid\x7d"
  | health => "/health"
  | metrics => "/metrics"

/-- The methods of a route. -/
def methods : Route → List String
  | list _ => ["POST"]
  | _ => ["GET", "HEAD"]

end Route

end Roster
