import Roster.Schema.Validate
import Roster.Scope.Narrow
import Roster.Scope.Redact
import Roster.Service.Metrics
import Roster.Store.Includes

/-!
# The list service

Every list runs the same steps in the same order: the query is checked against
the schema, its includes and its window are brought within the limits, it is
narrowed to what the caller may see, the storage fetches one page, related
records are loaded, fields are selected, and what the caller may not read is
removed. The answer carries the query as it was run.

A single record is looked up through the same narrowing, so a record that a
caller may not see is like one that does not exist.
-/

namespace Roster

/-- Bounds on every query. -/
structure Limits where
  maxTake : Nat := 100
  defaultTake : Nat := 20
  maxIncludeDepth : Nat := 1
deriving DecidableEq, Repr, Inhabited

/-- Why a list cannot be answered. -/
inductive ListFault where
  | unknownEntity (name : String)
  | invalid (problems : List Problem)
  | scope (fault : ScopeFault)
  | storage (message : String)
  | notFound
deriving DecidableEq, Repr

/-- The wording of a list fault. -/
def ListFault.message : ListFault → String
  | .unknownEntity name => unknownEntityMessage name
  | .invalid problems => "invalid query: " ++ "; ".intercalate (problems.map Problem.message)
  | .scope fault => fault.message
  | .storage message => "storage error: " ++ message
  | .notFound => "record not found"

/-- A registry, a storage of its rows, and limits. -/
structure Service (m : Type → Type) where
  registry : Registry
  storage : Storage m
  limits : Limits

/-- The query with its includes and its window within limits, and a window in any case. -/
def Limits.bound (l : Limits) (q : Descriptor) : Descriptor :=
  let q := { q with include? := q.include?.map (IncludeTree.sanitize · l.maxIncludeDepth) }
  let q := q.clamp l.maxTake
  q.window (q.skip.getD 0) (q.take.getD (min l.defaultTake l.maxTake))

namespace Service

variable {m : Type → Type}

/-- The entity of a list, and the query checked and within limits. -/
def screen (s : Service m) (entity : String) (q : Descriptor) :
    Except ListFault (Entity × Descriptor) :=
  match s.registry.listable? entity with
  | none => .error (.unknownEntity entity)
  | some e =>
    match s.registry.problems e q with
    | [] => .ok (e, s.limits.bound q)
    | problems => .error (.invalid problems)

variable [Monad m]

/-- The entity of a list, and the query that the storage will run. -/
def resolve (s : Service m) (entity : String) (c : Caller) (q : Descriptor) :
    ExceptT ListFault m (Entity × Descriptor) := do
  let (e, q) ← ExceptT.mk (pure (s.screen entity q))
  let q ← (c.narrow s.registry s.storage e q).adapt .scope
  return (e, q)

/-- The rows of a page with their related records. -/
def loadRows (s : Service m) (e : Entity) (inc : Option IncludeTree) (rows : List Json) :
    ExceptT ListFault m (List Json) :=
  match inc with
  | some tree =>
    if rows.isEmpty then pure rows
    else
      (Includes.load s.storage s.registry s.limits.maxIncludeDepth 0 e tree rows).adapt
        fun fault => .storage (fault.chain.headD "")
  | none => pure rows

/-- One page of an entity, as a caller sees it. -/
def list (s : Service m) (entity : String) (c : Caller) (q : Descriptor) :
    ExceptT ListFault m Page := do
  let (e, q) ← s.resolve entity c q
  let found ← (s.storage.fetch e q).adapt fun fault => .storage fault.message
  let rows ← s.loadRows e q.include? found.rows
  let data := rows.map fun row => c.redact s.registry e (project row q.select q.include?)
  return ⟨data, found.total, q⟩

/-- A single record, as a caller sees it. -/
def get (s : Service m) (entity : String) (c : Caller) (id : Uuid) : ExceptT ListFault m Json := do
  let (e, narrowed) ← s.resolve entity c {}
  let q : Descriptor :=
    { filter := Predicate.mergeAnd [some (.equals (Path.ofText "id") (.text id.text)), narrowed.filter]
      skip := some 0
      take := some 1 }
  let found ← (s.storage.fetch e q).adapt fun fault => .storage fault.message
  match found.rows with
  | row :: _ => return c.redact s.registry e row
  | [] => throw .notFound

/-- What there is to measure about resolving a query. -/
def resolveSamples (s : Service m) (entity : String) (c : Caller) (q : Descriptor) : List Sample :=
  match s.screen entity q with
  | .error _ => []
  | .ok (e, _) =>
    let nodes := (q.include?.map (IncludeTree.collapsedNodes · s.limits.maxIncludeDepth)).getD 0
    (if 0 < nodes then [.includeCollapsed entity nodes] else []) ++
      (if q.take.any (s.limits.maxTake < ·) then [.takeClamped entity] else []) ++
      (if (c.rule e.name).overlay.isDeny then [.scopeDenied entity c.role.word] else [])

/-- What there is to measure about a list that took some time, given how it was answered. -/
def listSamples {α : Type} (s : Service m) (entity : String) (c : Caller) (q : Descriptor)
    (seconds : Double) (answer : Except ListFault α) : List Sample :=
  s.resolveSamples entity c q ++ (if answer.isOk then [.listQuery seconds] else [])

end Service

end Roster
