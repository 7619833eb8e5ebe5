import Roster.Json.Outline
import Roster.Scope.Caller

/-!
# Claims of tokens

What a token says: who issued it, whom it names, in which role, and until when.
All of that has to be there. Other claims are passed over, but two of them are
looked at all the same: an audience and a first moment.
-/

namespace Roster

/-- What a token says. -/
structure Claims where
  issuer : String
  subject : String
  role : Role
  /-- Seconds since the epoch. -/
  issuedAt : Int
  /-- Seconds since the epoch. -/
  expiry : Int
deriving DecidableEq, Repr

namespace Claims

/-- Claims while they are read. -/
structure Draft where
  issuer : Option String := none
  subject : Option String := none
  role : Option Role := none
  issuedAt : Option Int := none
  expiry : Option Int := none

/-- The claims of a draft that lacks none. -/
def Draft.claims? (d : Draft) : Option Claims := do
  return ⟨← d.issuer, ← d.subject, ← d.role, ← d.issuedAt, ← d.expiry⟩

/-- Reads one claim. -/
def Draft.set (name : String) (v : Json) (d : Draft) : Except ShapeError Draft :=
  match name with
  | "iss" => do return { d with issuer := some (← v.asText) }
  | "sub" => do return { d with subject := some (← v.asText) }
  | "role" => do return { d with role := some (← Role.ofJson v) }
  | "iat" => do return { d with issuedAt := some (← v.asInteger) }
  | "exp" => do return { d with expiry := some (← v.asInteger) }
  | _ => .ok d

/-- How claims are read. -/
def shape : Json.RecordShape ShapeError Draft :=
  ⟨"Claims", ["iss", "sub", "role", "iat", "exp"], true, Draft.set, id⟩

/-- Reads claims, all of which have to be there. -/
def ofOutline? (outline : Json.Outline) : Option Claims := do
  let fields ← outline.fields? shape.fields
  (shape.read {} (.obj fields)).toOption.bind Draft.claims?

/-- A value where a number is expected can be passed. An array or an object is opened, and then has
to end. -/
def isPassableNumber (raw : Json.Raw) : Bool :=
  match raw with
  | '[' :: rest => Json.skipBlanks rest == [']']
  | '\x7b' :: rest => Json.skipBlanks rest == ['\x7d']
  | raw => raw.isPassable

/-- A member stands at most once, and can be passed. -/
def isPassableMember (name : String) (passable : Json.Raw → Bool)
    (members : List (String × Json.Raw)) : Bool :=
  match members.filter (·.1 == name) with
  | [] => true
  | [member] => passable member.2
  | _ => false

/-- What a second look asks of claims: the audience and the first moment can be passed, whatever
they are. Claims in an array are taken for expiry, first moment, subject, issuer and audience, and
of those only a subject that is no text cannot be passed. -/
def isPassable : Json.Outline → Bool
  | .record members =>
    isPassableMember "aud" Json.Raw.isPassable members &&
      isPassableMember "nbf" isPassableNumber members
  | .tuple items => ((items[2]?).bind List.head?) == some '"'

/-- The time at which claims expire; a time before the epoch is none, and claims in an array have
none. -/
def expiry? (claims : Claims) : Json.Outline → Option Int
  | .record _ => if 0 ≤ claims.expiry then some claims.expiry else none
  | .tuple _ => none

/-- Claims as they are written. -/
def toJson (c : Claims) : Json :=
  .obj [("iss", .str c.issuer), ("sub", .str c.subject), ("role", .str c.role.word),
    ("iat", .ofInt c.issuedAt), ("exp", .ofInt c.expiry)]

end Claims

end Roster
