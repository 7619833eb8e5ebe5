import Roster.Query.Descriptor
import Roster.Schema.Basic

/-!
# Storage

What the service asks of a storage: the rows of an entity that a query selects,
with the number of rows its filter accepts, and how many rows a filter accepts.
A storage answers in a monad of its own, so that one can be a value, and another
one keep a record of what it is asked.

Keys of rows are compared as texts. `Json.keyText?` is the text of a key; what
is null or missing has none, and so equals no other key.
-/

namespace Roster

/-- Why a storage could not answer. -/
structure StorageFault where
  message : String
deriving DecidableEq, Repr

/-- A window of rows, and how many rows there are without the window. -/
structure StoredRows where
  rows : List Json
  total : Nat
deriving Inhabited

/-- Something that keeps rows. -/
structure Storage (m : Type → Type) where
  fetch : Entity → Descriptor → ExceptT StorageFault m StoredRows
  count : Entity → Option Predicate → ExceptT StorageFault m Nat
  healthy : m Bool

/-- The text of a value that is used as a key. -/
def Json.keyText? : Json → Option String
  | .null => none
  | .str s => some s
  | v => some v.text

/-- The key in a field of a row. -/
def Json.keyIn? (row : Json) (field : String) : Option String := (row.get? field).bind keyText?

/-- Sets a field of an object; any other value stays as it is. -/
def Json.withField (row : Json) (name : String) (v : Json) : Json :=
  match row with
  | .obj fields => .obj (Keyed.put fields name v)
  | other => other

/-- The rows whose field holds a key. -/
def related (key : Option String) (field : String) (rows : List Json) : List Json :=
  rows.filter fun row => key.isSome && row.keyIn? field == key

/-- Related rows as the value of a relation: the first of them or null, or all of them. -/
def Relation.value (l : Relation) (rows : List Json) : Json :=
  if l.singular then rows.headD .null else .arr rows

/-- A storage that never answers. -/
def Storage.failing {m : Type → Type} [Monad m] : Storage m where
  fetch _ _ := throw ⟨"fetch failed"⟩
  count _ _ := throw ⟨"count failed"⟩
  healthy := pure false

end Roster
