import Roster.Client.Batch
import Roster.Predicate.Eval

/-!
# Desks

A desk answers list requests from rows of its own. It can be told to fail, and
to hold requests back until they are released one by one, so that answers come
in any order. A request meets the next failure when it arrives, and the rows as
they are when it is answered.
-/

namespace Roster

/-- A request at a desk. -/
structure ListRequest where
  number : Nat
  entity : String
  query : Descriptor

/-- A request that is held back. -/
structure HeldRequest where
  request : ListRequest
  /-- How it will fail. -/
  failure : Option ClientFault
  /-- Somebody waits for the answer. -/
  wanted : Bool := true

/-- What came of a request: an answer, or its number if it is held back. -/
inductive Reply where
  | answer (result : Except ClientFault Page)
  | waits (number : Nat)

/-- A server in the same process. -/
structure Desk where
  rows : List Json := []
  /-- The failures of requests to come. -/
  failures : List ClientFault := []
  holding : Bool := false
  held : List HeldRequest := []
  calls : Nat := 0
  last : Option ListRequest := none

namespace Desk

/-- The page of a query. -/
def serve (d : Desk) (q : Descriptor) : Page :=
  let found := d.rows.filter (accepts? q.filter)
  let rows := found.drop (q.skip.getD 0)
  ⟨(q.take.map rows.take).getD rows, found.length, q⟩

/-- The answer to a request that is not held any more. -/
def answer (d : Desk) (failure : Option ClientFault) (q : Descriptor) : Except ClientFault Page :=
  match failure with
  | some fault => .error fault
  | none => .ok (d.serve q)

/-- A request arrives. -/
def arrive (d : Desk) (entity : String) (q : Descriptor) : Desk × ListRequest × Reply :=
  let request : ListRequest := ⟨d.calls + 1, entity, q⟩
  let failure := d.failures.head?
  let d := { d with calls := request.number, last := some request, failures := d.failures.tail }
  if d.holding then
    ({ d with held := d.held ++ [⟨request, failure, true⟩] }, request, .waits request.number)
  else (d, request, .answer (d.answer failure q))

/-- Lets the held request at a place go on: its number and its answer, if it is still wanted. -/
def release (d : Desk) (place : Nat) : Desk × Option (Nat × Except ClientFault Page) :=
  match d.held[place]? with
  | none => (d, none)
  | some h =>
    let rest := { d with held := d.held.eraseIdx place }
    if h.wanted then (rest, some (h.request.number, d.answer h.failure h.request.query))
    else (rest, none)

/-- Nobody waits for a request any more. -/
def forget (d : Desk) (number : Nat) : Desk :=
  { d with held := d.held.map fun h =>
      if h.request.number = number then { h with wanted := false } else h }

end Desk

/-! ## Numbered rows -/

/-- A row with a name and a number. -/
structure NumberedRow where
  id : String
  n : Int
deriving DecidableEq, Repr

namespace NumberedRow

/-- A row while it is read. -/
structure Draft where
  id : Option String := none
  n : Option Int := none

/-- Reads one field of a row. -/
def setField (name : String) (v : Json) (d : Draft) : Except ShapeError Draft :=
  match name with
  | "id" => do return { d with id := some (← v.asText) }
  | "n" => do return { d with n := some (← v.asInteger) }
  | _ => .ok d

/-- How a row is read; other fields are passed over. -/
def shape : Json.RecordShape ShapeError Draft := ⟨"Row", ["id", "n"], true, setField, fun e => e⟩

/-- The first field that a draft lacks. -/
def missing? (d : Draft) : Option String :=
  if d.id.isNone then some "id" else if d.n.isNone then some "n" else none

/-- Reads a row. -/
def ofJson (v : Json) : Except ShapeError NumberedRow := do
  let d ← shape.readWhole {} missing? v
  return ⟨d.id.getD "", d.n.getD 0⟩

/-- The row as a value. -/
def toJson (r : NumberedRow) : Json := .obj [("id", .str r.id), ("n", .ofInt r.n)]

/-- Rows numbered from zero. -/
def upTo (count : Nat) : List NumberedRow :=
  (List.range count).map fun n => ⟨"r" ++ decimal n, n⟩

end NumberedRow

end Roster
