import Roster.Predicate.Eval
import Roster.Store.Storage

/-!
# Storage in memory

Tables are lists of rows, and rows are JSON objects. A predicate that goes
through relations is evaluated on a copy of the row that carries the related
rows of every relation on its paths.

Rows are sorted by the keys of a query in their order, nulls last, and last of
all by `id`. The sort is an insertion sort: it is stable, and each row is
compared with the sorted rows before it from their end.
-/

namespace Roster

/-- The relations that paths go through, as a tree of names in increasing order. -/
inductive Hops where
  | node (children : List (String × Hops))
deriving Inhabited

namespace Hops

/-- No relation. -/
def none : Hops := .node []

/-- The relations at the first step. -/
def children : Hops → Keyed Hops
  | .node cs => cs

/-- The tree with one more way through it. -/
def insert : List String → Hops → Hops
  | [], h => h
  | name :: rest, h =>
    .node (Keyed.putSorted h.children name (insert rest ((Keyed.get? h.children name).getD none)))

/-- The relations that the paths of a predicate go through. -/
def ofPredicate (p : Predicate) : Hops :=
  p.paths.foldl (fun h path => h.insert path.relations) none

end Hops

/-- Rows by entity. -/
structure Tables where
  rows : Keyed (List Json) := []
deriving Inhabited

namespace Tables

/-- The rows of an entity. -/
def of (t : Tables) (entity : String) : List Json := (t.rows.get? entity).getD []

/-- The tables with more rows for an entity. -/
def extend (t : Tables) (entity : String) (rows : List Json) : Tables :=
  ⟨t.rows.put entity (t.of entity ++ rows)⟩

mutual

/-- A row together with the related rows of every relation in the tree. -/
def embed (t : Tables) (r : Registry) (e : Entity) (row : Json) : Hops → Json
  | .node children =>
    match row with
    | .obj fields => .obj (embedFields t r e row fields children)
    | other => other

/-- Adds the related rows of several relations to the fields of a row. -/
def embedFields (t : Tables) (r : Registry) (e : Entity) (row : Json) (fields : Keyed Json) :
    List (String × Hops) → Keyed Json
  | [] => fields
  | (name, hops) :: rest =>
    let fields :=
      match e.relation? name with
      | some l =>
        match r.entity? l.target with
        | some target =>
          let children := related (row.keyIn? l.localField) l.foreignField (t.of target.name)
          fields.put name (l.value (children.map fun child => embed t r target child hops))
        | Option.none => fields
      | Option.none => fields
    embedFields t r e row fields rest

end

/-- The row passes a predicate that may go through relations. -/
def passes (t : Tables) (r : Registry) (e : Entity) (p : Predicate) (row : Json) : Bool :=
  p.accepts (t.embed r e row (Hops.ofPredicate p))

/-- The rows of an entity that a filter accepts, in the order of the table. -/
def matching (t : Tables) (r : Registry) (e : Entity) : Option Predicate → List Json
  | none => t.of e.name
  | some p => if p.isEmpty then t.of e.name else (t.of e.name).filter (t.passes r e p)

end Tables

/-! ## Order -/

/-- How two values of a sort column compare: null after all others, values of different sorts
alike. -/
def compareColumn : Json → Json → Ordering
  | .null, .null => .eq
  | .null, _ => .gt
  | _, .null => .lt
  | .num a, .num b => a.toDouble.order b.toDouble
  | .str a, .str b => compare a b
  | .bool a, .bool b => compare a b
  | _, _ => .eq

/-- How two rows compare by a sort key. -/
def SortKey.compareRows (k : SortKey) (a b : Json) : Ordering :=
  let order := compareColumn (a.field k.path.leaf) (b.field k.path.leaf)
  match k.direction with
  | .asc => order
  | .desc => order.swap

/-- How two rows compare by sort keys, the first that tells them apart, or else by `id`. -/
def compareRows (keys : List SortKey) (a b : Json) : Ordering :=
  match keys with
  | [] => compareColumn (a.field "id") (b.field "id")
  | k :: rest => (k.compareRows a b).then (compareRows rest a b)

/-- Puts a row among rows that are sorted from the last to the first. -/
def insertRow (keys : List SortKey) (row : Json) : List Json → List Json
  | [] => [row]
  | last :: before =>
    if compareRows keys row last = .lt then last :: insertRow keys row before
    else row :: last :: before

/-- The rows in order. -/
def sortRows (keys : List SortKey) (rows : List Json) : List Json :=
  (rows.foldl (fun sorted row => insertRow keys row sorted) []).reverse

namespace Tables

/-- The window of a query on the rows of an entity. -/
def fetch (t : Tables) (r : Registry) (e : Entity) (q : Descriptor) : StoredRows :=
  let rows := t.matching r e q.filter
  let sorted := (sortRows (q.orderBy.getD []) rows).drop (q.skip.getD 0)
  ⟨match q.take with
    | some n => sorted.take n
    | none => sorted, rows.length⟩

/-- How many rows of an entity a filter accepts. -/
def count (t : Tables) (r : Registry) (e : Entity) (filter : Option Predicate) : Nat :=
  (t.matching r e filter).length

/-- Tables as a storage. -/
def storage {m : Type → Type} [Monad m] (t : Tables) (r : Registry) : Storage m where
  fetch e q := pure (t.fetch r e q)
  count e filter := pure (t.count r e filter)
  healthy := pure true

end Tables

end Roster
