import Roster.Store.Storage
import Roster.Predicate.Merge

/-!
# Related records

Puts the records of an include tree into rows. For each relation one query
fetches the records of all rows at once, by the keys of the rows; then every row
takes its own. The includes below a relation are loaded into its records before
they are handed out.
-/

namespace Roster

/-- How many records one relation brings at most. -/
def childLimit : Nat := 1000

/-- Why related records could not be loaded. -/
inductive LoadFault where
  | noRelation (entity relation : String)
  | unknownEntity (entity : String)
  | fetch (relation : String) (cause : StorageFault)
deriving DecidableEq, Repr

/-- The messages of a fault, from the outermost to the cause. -/
def LoadFault.chain : LoadFault → List String
  | .noRelation entity relation => [noRelationMessage entity relation]
  | .unknownEntity entity => [unknownEntityMessage entity]
  | .fetch relation cause => ["failed to load include '" ++ relation ++ "'", cause.message]

/-- The fields of a row that a selection keeps. Relations that are included stay. With a field that
is wanted, only such fields stay; else all but those that are not wanted. -/
def project (row : Json) (select : Option Select) (inc : Option IncludeTree) : Json :=
  match select, row with
  | some select, .obj fields =>
    let listed := select.any (·.2)
    let included (name : String) : Bool :=
      ((inc.bind fun tree => tree.get? name).map IncludeEntry.isRequested).getD false
    .obj (fields.filter fun field => included field.1 || (select.get? field.1).getD !listed)
  | _, row => row

namespace Includes

/-- The keys of rows, each once. -/
def keysOf (field : String) (rows : List Json) : List String :=
  (rows.filterMap fun row => row.keyIn? field).eraseDups

/-- The query for the records of several rows. -/
def childQuery (filter : Option Predicate) (foreignField : String) (keys : List String) :
    Descriptor :=
  { filter := Predicate.mergeAnd [filter,
      some (.operator (Path.ofText foreignField) { oneOf := some (keys.map .text) })]
    skip := some 0
    take := some childLimit }

/-- Hands records out to the rows that they are related to. -/
def distribute (l : Relation) (select : Option Select) (inc : Option IncludeTree)
    (children rows : List Json) : List Json :=
  rows.map fun row =>
    let own := related (row.keyIn? l.localField) l.foreignField children
    row.withField l.name (l.value (own.map fun child => project child select inc))

variable {m : Type → Type} [Monad m]

/-- The relation of a name and its target. -/
def linkOf (r : Registry) (e : Entity) (name : String) : ExceptT LoadFault m (Relation × Entity) :=
  match e.relation? name with
  | none => throw (.noRelation e.name name)
  | some l =>
    match r.entity? l.target with
    | some target => pure (l, target)
    | none => throw (.unknownEntity l.target)

/-- The records of all rows behind a relation. -/
def fetchChildren (s : Storage m) (l : Relation) (target : Entity) (filter : Option Predicate)
    (rows : List Json) : ExceptT LoadFault m (List Json) :=
  match keysOf l.localField rows with
  | [] => pure []
  | keys => do
    let found ← (s.fetch target (childQuery filter l.foreignField keys)).adapt (.fetch l.name)
    return found.rows

mutual

/-- Puts the records of one relation into rows. -/
def loadEntry (s : Storage m) (r : Registry) (maxDepth depth : Nat) (e : Entity) (name : String)
    (rows : List Json) : IncludeEntry → ExceptT LoadFault m (List Json)
  | .null => pure rows
  | .flag wanted =>
    if wanted then do
      let (l, target) ← linkOf r e name
      let children ← fetchChildren s l target none rows
      return distribute l none none children rows
    else pure rows
  | .nested inc select filter => do
    let (l, target) ← linkOf r e name
    let children ← fetchChildren s l target filter rows
    let children ← loadNested s r maxDepth (depth + 1) target children inc
    return distribute l select inc children rows

/-- Puts the includes of a node into its records. -/
def loadNested (s : Storage m) (r : Registry) (maxDepth depth : Nat) (e : Entity)
    (rows : List Json) : Option (List (String × IncludeEntry)) → ExceptT LoadFault m (List Json)
  | none => pure rows
  | some tree =>
    if rows.isEmpty || maxDepth < depth then pure rows
    else loadTree s r maxDepth depth e rows tree

/-- Puts the records of every relation of a tree into rows. -/
def loadTree (s : Storage m) (r : Registry) (maxDepth depth : Nat) (e : Entity)
    (rows : List Json) : List (String × IncludeEntry) → ExceptT LoadFault m (List Json)
  | [] => pure rows
  | (name, entry) :: rest => do
    let rows ← loadEntry s r maxDepth depth e name rows entry
    loadTree s r maxDepth depth e rows rest

end

/-- Puts the records of an include tree into rows. `depth` is the level of the tree; one deeper than
`maxDepth` is not loaded. -/
def load (s : Storage m) (r : Registry) (maxDepth depth : Nat) (e : Entity) (tree : IncludeTree)
    (rows : List Json) : ExceptT LoadFault m (List Json) :=
  if maxDepth < depth then pure rows else loadTree s r maxDepth depth e rows tree

end Includes

end Roster
