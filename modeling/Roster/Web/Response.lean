import Roster.Service.Listing

/-!
# Responses

What the server answers: a status, a few headers and a body. A request that is
refused gets a short text; `Refusal` lists the reasons, and a fault of the list
service is one of them. Faults inside the service are not told apart outside.
-/

namespace Roster

/-- The body of a response. -/
inductive Body where
  | none
  | text (content : String)
  | json (content : Json)
  /-- The metrics page. -/
  | metrics (page : String)

/-- The content type of a body. -/
def Body.contentType? : Body → Option String
  | none => Option.none
  | text _ => some "text/plain; charset=utf-8"
  | json _ => some "application/json"
  | metrics _ => some "text/plain; version=0.0.4; charset=utf-8"

/-- An answer to a request. -/
structure Response where
  status : Nat
  contentType : Option String
  /-- The methods that the route has, where the request used another one. -/
  allow : Option String := none
  /-- How to authenticate, where that failed. -/
  authenticate : Option String := none
  body : Body

namespace Response

/-- A response with a body. -/
def of (status : Nat) (body : Body) : Response :=
  { status := status, contentType := body.contentType?, body := body }

/-- The response to a request that asks for the headers alone. -/
def headersOnly (r : Response) : Response := { r with body := .none }

end Response

/-- Why a request is refused. -/
inductive Refusal where
  | internal
  | notFound
  | unauthorized
  | forbidden (reason : String)
  | badRequest (reason : String)
  /-- A part of the location is no text. -/
  | badLocation (parameter : String)
deriving DecidableEq, Repr

namespace Refusal

/-- The status of a refusal. -/
def status : Refusal → Nat
  | internal => 500
  | notFound => 404
  | unauthorized => 401
  | forbidden _ => 403
  | badRequest _ => 400
  | badLocation _ => 400

/-- The wording of a refusal. -/
def message : Refusal → String
  | internal => "internal server error"
  | notFound => "not found"
  | unauthorized => "unauthorized"
  | forbidden reason => "forbidden: " ++ reason
  | badRequest reason => "bad request: " ++ reason
  | badLocation parameter => "Invalid URL: Invalid UTF-8 in `" ++ parameter ++ "`"

/-- The response of a refusal. -/
def response (r : Refusal) : Response := .of r.status (.text r.message)

/-- The refusal of a list fault. What is wrong inside stays inside. -/
def ofListFault : ListFault → Refusal
  | .unknownEntity _ => notFound
  | .notFound => notFound
  | .invalid problems => badRequest ("; ".intercalate (problems.map Problem.message))
  | .scope (.lookup _) => internal
  | .storage _ => internal
  | .scope fault => forbidden fault.message

end Refusal

end Roster
