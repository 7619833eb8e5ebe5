import Roster.Json.Shape
import Roster.Uuid

/-!
# Callers

Who asks: an identifier and one of three roles.
-/

namespace Roster

/-- What a caller is to the office. -/
inductive Role where
  | admin
  | recruiter
  | candidate
deriving DecidableEq, Repr, Inhabited

/-- Who asks. -/
structure Caller where
  id : Uuid
  role : Role
deriving DecidableEq, Repr, Inhabited

namespace Role

/-- The word for a role. -/
def word : Role → String
  | .admin => "admin"
  | .recruiter => "recruiter"
  | .candidate => "candidate"

/-- The words of all roles. -/
def words : List String := ["admin", "recruiter", "candidate"]

/-- The role of a word. -/
def ofWord? : String → Option Role
  | "admin" => some .admin
  | "recruiter" => some .recruiter
  | "candidate" => some .candidate
  | _ => none

/-- The wording of a word that is no role. -/
def unknownMessage (word : String) : String := "unknown role `" ++ word ++ "`"

/-- Reads a role. -/
def ofJson : Json → Except ShapeError Role := Json.asVariant words ofWord?

end Role

end Roster
