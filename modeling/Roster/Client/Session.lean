import Roster.Client.Desk
import Roster.Client.PageCache

/-!
# Sessions

A client's way to a desk, with a cache in between or without one. A query that
the cache knows does not reach the desk, and equal queries that are on their way
together share one request and its answer.
-/

namespace Roster

/-- A desk behind a cache, if there is one. -/
structure Session where
  desk : Desk
  cache : Option PageCache := none

namespace Session

/-- Sends a query to the desk. -/
def send (s : Session) (entity : String) (q : Descriptor) : Session × ListRequest × Reply :=
  let (desk, request, reply) := s.desk.arrive entity q
  ({ s with desk := desk }, request, reply)

/-- Asks for a page. -/
def list (s : Session) (entity : String) (q : Descriptor) : Session × Reply :=
  match s.cache with
  | none =>
    let (s, _, reply) := s.send entity q
    (s, reply)
  | some cache =>
    let key := cache.key entity q
    match cache.lookup key with
    | .page page => (s, .answer (.ok page))
    | .flight number => (s, .waits number)
    | .absent =>
      let (s, request, reply) := s.send entity q
      let cache :=
        match reply with
        | .answer result => cache.land key result.toOption
        | .waits _ => cache.depart key request.number
      ({ s with cache := some cache }, reply)

/-- A request is over. -/
def land (s : Session) (number : Nat) (page : Option Page) : Session :=
  { s with cache := s.cache.map fun cache =>
      match cache.keyOf? number with
      | some key => cache.land key page
      | none => cache }

/-- Lets a held request go on. Its answer is for everybody who waits for its number. -/
def release (s : Session) (place : Nat) : Session × Option (Nat × Except ClientFault Page) :=
  match s.desk.release place with
  | (desk, some (number, result)) =>
    (({ s with desk := desk }).land number result.toOption, some (number, result))
  | (desk, none) => ({ s with desk := desk }, none)

/-- Nobody waits for a request any more. -/
def forget (s : Session) (number : Nat) : Session :=
  ({ s with desk := s.desk.forget number }).land number none

/-- Drops what is kept for an entity. -/
def invalidate (s : Session) (entity : String) : Session :=
  { s with cache := s.cache.map (·.invalidate entity) }

/-- Drops everything that is kept. -/
def invalidateAll (s : Session) : Session := { s with cache := s.cache.map PageCache.invalidateAll }

/-- After a change to an entity: a change that succeeded drops what is kept for it. -/
def mutate {α : Type} (s : Session) (entity : String) (result : Except ClientFault α) : Session :=
  match result with
  | .ok _ => s.invalidate entity
  | .error _ => s

end Session

end Roster
