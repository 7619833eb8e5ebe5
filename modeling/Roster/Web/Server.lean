import Roster.Text.Percent
import Roster.Web.Response
import Roster.Web.Route
import Roster.Web.Token

/-!
# The server

A request comes with a token or without one. A token that is not valid is
refused whatever the request asks for; without a token only the lists and the
records are closed. Then the route decides, and what it did is measured.

A server answers in the monad of its storage: `Server.handle` gives the response
and what there is to measure about it.
-/

namespace Roster

/-- A request. -/
structure Request where
  method : String
  /-- The path and what follows it. -/
  target : String
  authorization : Option String := none
  body : String := ""
deriving DecidableEq, Repr

/-- A list service behind tokens. -/
structure Server (m : Type → Type) where
  service : Service m
  secret : List UInt8

/-- A response, and what there is to measure about how it came about. -/
abbrev Measured := Response × List Sample

/-! ## Reading requests -/

/-- The characters that a header is read with. -/
def isHeaderChar (c : Char) : Bool := c = '\t' || (' ' ≤ c && c ≤ '~')

namespace Request

/-- The word that a token follows. -/
def bearer : String := "Bearer "

/-- The token that a request brings. -/
def token? (r : Request) : Option String :=
  match r.authorization with
  | none => none
  | some value =>
    if value.toList.all isHeaderChar && bearer.isPrefixOf value
    then some (String.ofList (value.toList.drop bearer.length))
    else none

/-- The blanks of ASCII. -/
def isAsciiBlank (c : Char) : Bool :=
  c = ' ' || c = '\t' || c = '\n' || c = '\x0c' || c = '\r'

/-- The query in the body of a request. A blank body is the empty query, like `null`. -/
def query (r : Request) : Except Refusal Descriptor :=
  if r.body.toList.all isAsciiBlank then .ok {}
  else
    match Json.parse? r.body with
    | none => .error (.badRequest "invalid query: ")
    | some .null => .ok {}
    | some doc =>
      (Descriptor.ofDocument doc).mapError fun fault =>
        .badRequest ("invalid query: " ++ fault.message)

end Request

/-- A parameter of a location, decoded. -/
def parameter (name written : String) : Except Refusal String :=
  match Percent.decode? written with
  | some value => .ok value
  | none => .error (.badLocation name)

namespace Server

variable {m : Type → Type}

/-- The caller of a request, if it names one. -/
def caller (s : Server m) (now : Int) (r : Request) : Except TokenFault (Option Caller) :=
  match r.token? with
  | none => .ok none
  | some token => (Token.verify s.secret now token).map some

/-- The response to a token that is not valid. -/
def invalidToken : Response :=
  { Response.of 401 (.text "Invalid token") with
    authenticate := some "Bearer error=\"invalid_token\"" }

/-- A result, or the response of its refusal, to which nothing belongs that is measured. -/
def settle {α : Type} [Monad m] (result : Except Refusal α) (go : α → m Measured) : m Measured :=
  match result with
  | .ok a => go a
  | .error refusal => pure (refusal.response, [])

variable [Monad m]

/-- The response of an answer of the list service. -/
def answer {α : Type} (result : Except ListFault α) (toJson : α → Json) : Response :=
  match result with
  | .ok a => .of 200 (.json (toJson a))
  | .error fault => (Refusal.ofListFault fault).response

/-- A page as it is answered. -/
def pageJson (page : Page) : Json :=
  .obj [("data", .arr page.data), ("count", .ofNat page.count), ("query", page.query.toJson)]

/-- Who asks; the lists and the records are for callers only. -/
def requireCaller (caller : Option Caller) : Except Refusal Caller :=
  match caller with
  | some c => .ok c
  | none => .error .unauthorized

/-- Answers a list. -/
def list (s : Server m) (caller : Option Caller) (entity : String) (r : Request)
    (seconds : Double) : m Measured :=
  let request : Except Refusal (Caller × String × Descriptor) := do
    return (← requireCaller caller, ← parameter "entity" entity, ← r.query)
  settle request fun (c, entity, q) => do
    let result ← (s.service.list entity c q).run
    return (answer result pageJson, s.service.listSamples entity c q seconds result)

/-- Answers a record. -/
def record (s : Server m) (caller : Option Caller) (entity id : String) : m Measured :=
  let request : Except Refusal (Caller × String × Uuid) := do
    let c ← requireCaller caller
    let entity ← parameter "entity" entity
    let id ← parameter "id" id
    let some id := Uuid.parse? id | throw .notFound
    return (c, entity, id)
  settle request fun (c, entity, id) => do
    let result ← (s.service.get entity c id).run
    return (answer result fun row => row, s.service.resolveSamples entity c {})

/-- Answers whether the storage can be used. -/
def health (s : Server m) : m Measured := do
  let healthy ← s.service.storage.healthy
  let word := if healthy then "healthy" else "unhealthy"
  return (.of (if healthy then 200 else 503)
    (.json (.obj [("status", .str word), ("storage", .bool healthy)])), [])

/-- Answers a request whose caller is known, on a route that has its method. -/
def serve (s : Server m) (log : List Sample) (route : Route) (caller : Option Caller)
    (r : Request) (seconds : Double) : m Measured :=
  match route with
  | .list entity => s.list caller entity r seconds
  | .record entity id => s.record caller entity id
  | .health => s.health
  | .metrics => pure (.of 200 (.metrics (Metrics.page log)), [])

/-- Answers a request that has passed the check of its token. -/
def dispatch (s : Server m) (log : List Sample) (route : Option Route) (caller : Option Caller)
    (r : Request) (seconds : Double) : m Measured :=
  match route with
  | none => pure (.of 404 .none, [])
  | some route =>
    if route.methods.contains r.method then s.serve log route caller r seconds
    else pure (.of 405 .none, [])

/-- The methods to name in a response, if the request used another one than its route has. -/
def allowed (route : Option Route) (method : String) : Option String :=
  route.bind fun route =>
    if route.methods.contains method then none else some (",".intercalate route.methods)

/-- Answers a request at a time. `log` is what was measured before, and `seconds` the time that the
answer took. -/
def handle (s : Server m) (now : Int) (log : List Sample) (seconds : Double) (r : Request) :
    m Measured := do
  let path := Route.pathOf r.target
  let route := Route.ofPath? path
  let (response, samples) ←
    match s.caller now r with
    | .error _ => pure (invalidToken, [])
    | .ok caller => s.dispatch log route caller r seconds
  let response := { response with allow := allowed route r.method }
  let response := if r.method == "HEAD" then response.headersOnly else response
  let label := (route.map Route.template).getD path
  return (response, samples ++ [.request r.method label response.status seconds])

end Server

end Roster
