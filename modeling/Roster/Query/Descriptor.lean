import Roster.Json.Parser
import Roster.Query.Include
import Roster.Query.Order

/-!
# Query descriptors

What a caller asks of a list: a filter, an order, related records, a selection
of fields and a window. Every part can be absent. `Descriptor.toJson` writes the
canonical form, in which present parts stand in one order, and
`Descriptor.ofJson` reads it and all other forms.
-/

namespace Roster

/-- A list query. -/
structure Descriptor where
  filter : Option Predicate := none
  orderBy : Option (List SortKey) := none
  include? : Option IncludeTree := none
  select : Option Select := none
  skip : Option Nat := none
  take : Option Nat := none
deriving Inhabited

namespace Descriptor

/-- The fields of a descriptor. -/
def fields : List String := ["where", "orderBy", "include", "select", "skip", "take"]

/-- Reads one field of a descriptor. -/
def setField (name : String) (v : Json) (q : Descriptor) : Except DescriptorFault Descriptor :=
  let query {α : Type} (r : Except QueryFault α) : Except DescriptorFault α := r.mapError .query
  let shape {α : Type} (r : Except ShapeError α) : Except DescriptorFault α := r.mapError .shape
  match name with
  | "where" => do return { q with filter := ← query (Json.optional Predicate.ofJson v.settle) }
  | "orderBy" => do
    return { q with orderBy := ← query (Json.optional SortKey.listOfJson v.settle) }
  | "include" => do
    return { q with include? := ← shape (Json.optional IncludeEntry.readTree v) }
  | "select" => do
    return { q with select := ← shape (Json.optional IncludeEntry.readSelect v) }
  | "skip" => do return { q with skip := ← shape (Json.optional Json.asWord v) }
  | "take" => do return { q with take := ← shape (Json.optional Json.asWord v) }
  | _ => .ok q

/-- How a descriptor is read. -/
def shape : Json.RecordShape DescriptorFault Descriptor :=
  ⟨"QueryDescriptor", fields, false, setField, .shape⟩

/-- Reads a descriptor. -/
def ofJson (v : Json) : Except DescriptorFault Descriptor := shape.read {} v

/-- Reads a descriptor from the document of a text. Items after the last field of an array are
not looked at there, only noticed. -/
def ofDocument (v : Json) : Except DescriptorFault Descriptor :=
  (ofJson v).mapError fun
    | .shape (.tooLong _) => .shape .trailingItems
    | fault => fault

/-- The canonical form. -/
def toJson (q : Descriptor) : Json :=
  .obj ((q.filter.map fun p => ("where", p.toJson)).toList ++
    (q.orderBy.map fun keys => ("orderBy", SortKey.listToJson keys)).toList ++
    (q.include?.map fun tree => ("include", IncludeEntry.treeToJson tree)).toList ++
    (q.select.map fun select => ("select", IncludeEntry.selectToJson select)).toList ++
    (q.skip.map fun n => ("skip", Json.ofNat n)).toList ++
    (q.take.map fun n => ("take", Json.ofNat n)).toList)

/-- The text of the canonical form. -/
def text (q : Descriptor) : String := q.toJson.text

/-- The same query: equal parts over agreeing operands. -/
def agrees (a b : Descriptor) : Bool :=
  IncludeEntry.filterAgrees a.filter b.filter && a.orderBy = b.orderBy &&
    IncludeEntry.includeAgrees a.include? b.include? && a.select = b.select &&
    a.skip = b.skip && a.take = b.take

/-- The descriptor with one more relation to include. -/
def withInclude (q : Descriptor) (relation : String) (entry : IncludeEntry) : Descriptor :=
  { q with include? := some ((q.include?.getD []).putSorted relation entry) }

/-- The descriptor with its window narrowed to at most `maxTake` rows; an absent `take` stays
absent. -/
def clamp (q : Descriptor) (maxTake : Nat) : Descriptor :=
  { q with take := q.take.map (min maxTake) }

/-- The descriptor with another window. -/
def window (q : Descriptor) (skip take : Nat) : Descriptor :=
  { q with skip := some skip, take := some take }

end Descriptor

/-- The answer to a list query: the rows of the window, how many rows the filter accepts, and the
query as it was run. -/
structure Page where
  data : List Json
  count : Nat
  query : Descriptor
deriving Inhabited

namespace Page

/-- A page while it is read. -/
structure Draft where
  data : Option (List Json) := none
  count : Option Nat := none
  query : Option Descriptor := none

/-- Reads one field of a page. -/
def setField (name : String) (v : Json) (d : Draft) : Except DescriptorFault Draft :=
  match name with
  | "data" => do return { d with data := some (← v.asItems.mapError .shape) }
  | "count" => do return { d with count := some (← v.asWord.mapError .shape) }
  | "query" => do return { d with query := some (← Descriptor.ofJson v) }
  | _ => .ok d

/-- How a page is read; fields it does not know are passed over. -/
def shape : Json.RecordShape DescriptorFault Draft :=
  ⟨"PaginatedResponse", ["data", "count", "query"], true, setField, .shape⟩

/-- The first field that a draft lacks. -/
def missing? (d : Draft) : Option String :=
  if d.data.isNone then some "data"
  else if d.count.isNone then some "count"
  else if d.query.isNone then some "query"
  else none

/-- Reads a page. -/
def ofJson (v : Json) : Except DescriptorFault Page := do
  let d ← shape.readWhole {} missing? v
  return ⟨d.data.getD [], d.count.getD 0, d.query.getD {}⟩

end Page

end Roster
