import Roster.Digest.Sha256
import Roster.Query.Descriptor

/-!
# Page caches

A cache keeps pages under keys. The key of a query holds the entity, the epoch
of the entity and the digest of the query's canonical text. An invalidation
gives entities a new epoch, so a page that was asked for before it is stored
under a key that nobody computes any more.

A query that is on its way is noted under its key as well: whoever asks the same
meanwhile waits for the same answer.
-/

namespace Roster

/-- The epochs of all entities. -/
structure Epochs where
  /-- The last epoch that was given out. -/
  last : Nat := 0
  /-- The epoch that every entity has reached. -/
  floor : Nat := 0
  entities : Keyed Nat := []

namespace Epochs

/-- The epoch of an entity. -/
def current (e : Epochs) (entity : String) : Nat := max ((e.entities.get? entity).getD 0) e.floor

/-- A new epoch for one entity. -/
def advance (e : Epochs) (entity : String) : Epochs :=
  { e with last := e.last + 1, entities := e.entities.put entity (e.last + 1) }

/-- A new epoch for all entities. -/
def advanceAll (e : Epochs) : Epochs := ⟨e.last + 1, e.last + 1, []⟩

end Epochs

/-- Pages, and queries on their way, by key. -/
structure PageCache where
  epochs : Epochs := {}
  pages : Keyed Page := []
  /-- The numbers of the requests that are on their way. -/
  flights : Keyed Nat := []

/-- What a cache knows about a key. -/
inductive CacheEntry where
  | page (page : Page)
  | flight (request : Nat)
  | absent

namespace PageCache

/-- The digest of a query. -/
def digest (q : Descriptor) : String := Text.hex (Sha256.digest (Text.bytes q.text))

/-- The key of a query at this time. -/
def key (c : PageCache) (entity : String) (q : Descriptor) : String :=
  entity ++ ":" ++ decimal (c.epochs.current entity) ++ ":" ++ digest q

/-- What is known about a key. -/
def lookup (c : PageCache) (key : String) : CacheEntry :=
  match c.pages.get? key, c.flights.get? key with
  | some page, _ => .page page
  | none, some request => .flight request
  | none, none => .absent

/-- The page of a query, if it is kept. -/
def page? (c : PageCache) (entity : String) (q : Descriptor) : Option Page :=
  c.pages.get? (c.key entity q)

/-- A request sets out. -/
def depart (c : PageCache) (key : String) (request : Nat) : PageCache :=
  { c with flights := c.flights.put key request }

/-- A request is over, and its page, if there is one, is kept. -/
def land (c : PageCache) (key : String) (page : Option Page) : PageCache :=
  { c with
    flights := c.flights.erase key
    pages := match page with
      | some page => c.pages.put key page
      | none => c.pages }

/-- The key of a request that is on its way. -/
def keyOf? (c : PageCache) (request : Nat) : Option String :=
  (c.flights.find? (·.2 == request)).map (·.1)

/-- Gives an entity a new epoch and drops what is kept for it: the pages whose keys start with its
name. -/
def invalidate (c : PageCache) (entity : String) : PageCache :=
  { c with
    epochs := c.epochs.advance entity
    pages := c.pages.filter fun p => !((entity ++ ":").toList.isPrefixOf p.1.toList) }

/-- Gives all entities a new epoch and drops all pages. -/
def invalidateAll (c : PageCache) : PageCache :=
  { c with epochs := c.epochs.advanceAll, pages := [] }

end PageCache

end Roster
