import Roster.Client.Session

/-!
# Calls

A client has a state of its own, and calls that need pages. A call that has to
wait for a page is left in the background, under a name; whatever happens
meanwhile happens to the same state. When a request is answered, every call that
waits for it goes on.

What the calls are is left open: a `Behaviour` says what a call does at first,
and how it goes on with a page.
-/

namespace Roster

/-- What a call comes to at first: an answer, or a page that it needs. -/
inductive CallStart (κ α : Type) where
  | answer (a : α)
  | page (entity : String) (query : Descriptor) (rest : κ)

/-- A call: over, or waiting for a request. -/
inductive Call (κ α : Type) where
  | done (answer : α)
  | waiting (request : Nat) (rest : κ)

/-- The calls of a client: on a state `σ`, given by `ι`, left to wait as `κ` and answered by `α`. -/
structure Behaviour (σ ι κ α : Type) where
  act : Session → σ → ι → Session × σ × CallStart κ α
  resume : σ → κ → Except ClientFault Page → σ × α

/-- A session, a state, and the calls in the background. -/
structure Client (σ κ α : Type) where
  session : Session
  state : σ
  calls : Keyed (Call κ α) := []

namespace Client

variable {σ ι κ α : Type}

/-- Starts a call. -/
def begin (b : Behaviour σ ι κ α) (c : Client σ κ α) (input : ι) : Client σ κ α × Call κ α :=
  let (session, state, first) := b.act c.session c.state input
  match first with
  | .answer a => ({ c with session := session, state := state }, .done a)
  | .page entity q rest =>
    match session.list entity q with
    | (session, .answer result) =>
      let (state, a) := b.resume state rest result
      ({ c with session := session, state := state }, .done a)
    | (session, .waits request) =>
      ({ c with session := session, state := state }, .waiting request rest)

/-- Starts a call in the background. -/
def start (b : Behaviour σ ι κ α) (c : Client σ κ α) (name : String) (input : ι) : Client σ κ α :=
  let (c, call) := c.begin b input
  { c with calls := c.calls.put name call }

/-- Some call waits for a request. -/
def awaits (c : Client σ κ α) (request : Nat) : Bool :=
  c.calls.any fun p =>
    match p.2 with
    | .waiting n _ => n == request
    | .done _ => false

/-- Does a call, which is given up if it would have to wait. -/
def run (b : Behaviour σ ι κ α) (c : Client σ κ α) (input : ι) : Client σ κ α × Option α :=
  match c.begin b input with
  | (c, .done a) => (c, some a)
  | (c, .waiting request _) =>
    (if c.awaits request then c else { c with session := c.session.forget request }, none)

/-- Calls going on with the answer to a request, one after the other. -/
def resumeAll (b : Behaviour σ ι κ α) (request : Nat) (result : Except ClientFault Page) :
    σ → Keyed (Call κ α) → σ × Keyed (Call κ α)
  | state, [] => (state, [])
  | state, (name, call) :: rest =>
    let (state, call) :=
      match call with
      | .done a => (state, .done a)
      | .waiting n k =>
        if n = request then
          let (state, a) := b.resume state k result
          (state, .done a)
        else (state, .waiting n k)
    let (state, rest) := resumeAll b request result state rest
    (state, (name, call) :: rest)

/-- Lets a held request go on, and all calls that wait for it. Answers whether there was one. -/
def release (b : Behaviour σ ι κ α) (c : Client σ κ α) (place : Nat) : Client σ κ α × Bool :=
  match c.session.release place with
  | (session, none) => ({ c with session := session }, false)
  | (session, some (request, result)) =>
    let (state, calls) := resumeAll b request result c.state c.calls
    (⟨session, state, calls⟩, true)

/-- The call of a name. One that is over is handed out once. -/
def join (c : Client σ κ α) (name : String) : Client σ κ α × Option (Call κ α) :=
  match c.calls.get? name with
  | some (.done a) => ({ c with calls := c.calls.erase name }, some (.done a))
  | other => (c, other)

/-- The client with another desk. -/
def onDesk (c : Client σ κ α) (f : Desk → Desk) : Client σ κ α :=
  { c with session := { c.session with desk := f c.session.desk } }

end Client

end Roster
