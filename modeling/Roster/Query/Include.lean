import Roster.Predicate.Clause

/-!
# Includes

An include tree says which related records come with a row. Under the name of a
relation stands `true`, something that says no, or a node with a filter, a
selection of fields and includes of its own. Names are kept in increasing order,
whatever order they were written in.
-/

namespace Roster

/-- Which fields of a row are wanted, by name. -/
abbrev Select := Keyed Bool

/-- What stands under the name of a relation. -/
inductive IncludeEntry where
  /-- `null`: the relation is not wanted. -/
  | null
  /-- `true` asks for the relation, `false` does not. -/
  | flag (wanted : Bool)
  /-- The relation with directives of its own. -/
  | nested (include? : Option (List (String × IncludeEntry))) (select : Option Select)
      (filter : Option Predicate)
deriving Repr, Inhabited

/-- Relations to come with a row. -/
abbrev IncludeTree := Keyed IncludeEntry

/-- The directives under the name of a relation. -/
structure IncludeNode where
  include? : Option IncludeTree := none
  select : Option Select := none
  filter : Option Predicate := none
deriving Inhabited

namespace IncludeEntry

/-- An entry with directives. -/
def ofNode (n : IncludeNode) : IncludeEntry := .nested n.include? n.select n.filter

/-- The directives of an entry. -/
def node? : IncludeEntry → Option IncludeNode
  | .nested inc select filter => some ⟨inc, select, filter⟩
  | _ => none

/-- The relation is fetched. -/
def isRequested : IncludeEntry → Bool
  | .null => false
  | .flag wanted => wanted
  | .nested _ _ _ => true

/-- The fields of an include node. -/
def nodeFields : List String := ["include", "select", "where"]

/-! ## Reading -/

/-- Reads a selection. -/
def readSelect (v : Json) : Except ShapeError Select := do
  let pairs ← (← v.asFields).mapM fun (name, wanted) => do return (name, ← wanted.asBool)
  return Keyed.sorted pairs

/-- Reads the selection of an include node. -/
def nodeSelect? (v : Json) : Option (Option Select) := (Json.optional readSelect v).toOption

/-- Reads the filter of an include node. -/
def nodeFilter? (v : Json) : Option (Option Predicate) :=
  (Json.optional Predicate.ofJson v.settle).toOption

mutual

/-- Reads an entry; one that is anything else than an entry is not said to be wrong in any
particular way. -/
def ofJson? : Json → Option IncludeEntry
  | .null => some .null
  | .bool wanted => some (.flag wanted)
  | .obj fields => (setFields [] fields {}).map ofNode
  | .arr items => (setItems nodeFields items {}).map ofNode
  | _ => none

/-- Reads the fields of a node, each at most once. -/
def setFields (seen : List String) : List (String × Json) → IncludeNode → Option IncludeNode
  | [], node => some node
  | (name, v) :: rest, node =>
    if seen.contains name then none
    else do
      let node ← setField name v node
      setFields (name :: seen) rest node

/-- Reads the items of an array as the fields of a node. -/
def setItems : List String → List Json → IncludeNode → Option IncludeNode
  | _, [], node => some node
  | [], _ :: _, _ => none
  | name :: names, v :: rest, node => do
    let node ← setField name v node
    setItems names rest node

/-- Reads one field of a node. -/
def setField (name : String) : Json → IncludeNode → Option IncludeNode
  | .null, node => if nodeFields.contains name then some node else none
  | .obj fields, node =>
    if name = "include" then do return { node with include? := some (← readEntries? fields) }
    else if name = "select" then do return { node with select := ← nodeSelect? (.obj fields) }
    else if name = "where" then do return { node with filter := ← nodeFilter? (.obj fields) }
    else none
  | _, _ => none

/-- Reads the entries of an include tree; of a name written twice the last entry counts. -/
def readEntries? : List (String × Json) → Option IncludeTree
  | [] => some []
  | (name, v) :: rest => do
    let entry ← ofJson? v
    let others ← readEntries? rest
    return if others.has name then others else others.putSorted name entry

end

/-- Reads an include tree. -/
def readTree (v : Json) : Except ShapeError IncludeTree := do
  match readEntries? (← v.asFields) with
  | some tree => .ok tree
  | none => .error (.noAlternative "IncludeEntry")

/-! ## Writing -/

/-- The written form of a selection. -/
def selectToJson (select : Select) : Json := .obj (select.map fun p => (p.1, .bool p.2))

mutual

/-- The written form of an entry. -/
def toJson : IncludeEntry → Json
  | .null => .null
  | .flag wanted => .bool wanted
  | .nested inc select filter =>
    .obj (nodeInclude inc ++ (select.map fun s => ("select", selectToJson s)).toList ++
      (filter.map fun p => ("where", p.toJson)).toList)

/-- The include field of a node. -/
def nodeInclude : Option (List (String × IncludeEntry)) → List (String × Json)
  | none => []
  | some tree => [("include", .obj (entriesToJson tree))]

/-- The entries of an include tree. -/
def entriesToJson : List (String × IncludeEntry) → List (String × Json)
  | [] => []
  | (name, entry) :: rest => (name, entry.toJson) :: entriesToJson rest

end

/-- The written form of an include tree. -/
def treeToJson (tree : IncludeTree) : Json := .obj (entriesToJson tree)

/-! ## Agreement -/

/-- Optional filters agree. -/
def filterAgrees : Option Predicate → Option Predicate → Bool
  | none, none => true
  | some p, some q => p.agrees q
  | _, _ => false

mutual

/-- The same directives over agreeing filters. -/
def agrees : IncludeEntry → IncludeEntry → Bool
  | .null, .null => true
  | .flag a, .flag b => a == b
  | .nested inc select filter, .nested inc' select' filter' =>
    includeAgrees inc inc' && select = select' && filterAgrees filter filter'
  | _, _ => false

/-- Optional trees agree. -/
def includeAgrees : Option (List (String × IncludeEntry)) → Option (List (String × IncludeEntry)) →
    Bool
  | none, none => true
  | some t, some u => treeAgrees t u
  | _, _ => false

/-- Trees agree, name by name. -/
def treeAgrees : List (String × IncludeEntry) → List (String × IncludeEntry) → Bool
  | [], [] => true
  | (name, e) :: rest, (name', e') :: rest' => name = name' && e.agrees e' && treeAgrees rest rest'
  | _, _ => false

end

/-! ## Depth -/

mutual

/-- The entry with nodes cut off from `limit` levels downwards: a node there becomes `true`. -/
def truncate (limit : Nat) : IncludeEntry → IncludeEntry
  | .nested inc select filter =>
    if limit = 0 then .flag true
    else .nested (truncateInclude (limit - 1) inc) select filter
  | e => e

/-- Cuts the includes of a node. -/
def truncateInclude (limit : Nat) : Option (List (String × IncludeEntry)) →
    Option (List (String × IncludeEntry))
  | none => none
  | some tree => some (truncateTree limit tree)

/-- Cuts every entry of a tree. -/
def truncateTree (limit : Nat) : List (String × IncludeEntry) → List (String × IncludeEntry)
  | [] => []
  | (name, e) :: rest => (name, e.truncate limit) :: truncateTree limit rest

end

mutual

/-- How many levels of includes an entry opens. -/
def depth : IncludeEntry → Nat
  | .nested inc _ _ => includeDepth inc
  | _ => 0

/-- One more than the depth of a tree; a node without includes opens none. -/
def includeDepth : Option (List (String × IncludeEntry)) → Nat
  | none => 0
  | some tree => 1 + treeDepth tree

/-- The depth of a tree: the most that an entry opens. -/
def treeDepth : List (String × IncludeEntry) → Nat
  | [] => 0
  | (_, e) :: rest => max e.depth (treeDepth rest)

end

mutual

/-- How many nodes `truncate` cuts off. -/
def collapsed (limit : Nat) : IncludeEntry → Nat
  | .nested inc _ _ => if limit = 0 then 1 else collapsedInclude (limit - 1) inc
  | _ => 0

/-- How many nodes are cut off below the includes of a node. -/
def collapsedInclude (limit : Nat) : Option (List (String × IncludeEntry)) → Nat
  | none => 0
  | some tree => collapsedTree limit tree

/-- How many nodes are cut off below a tree. -/
def collapsedTree (limit : Nat) : List (String × IncludeEntry) → Nat
  | [] => 0
  | (_, e) :: rest => e.collapsed limit + collapsedTree limit rest

end

end IncludeEntry

namespace IncludeTree

/-- The tree with every node at depth `limit` or deeper cut down to `true`. -/
def sanitize (tree : IncludeTree) (limit : Nat) : IncludeTree :=
  IncludeEntry.truncateTree limit tree

/-- How deep a tree is nested. -/
def depth (tree : IncludeTree) : Nat := IncludeEntry.treeDepth tree

/-- How many nodes `sanitize` cuts off. -/
def collapsedNodes (tree : IncludeTree) (limit : Nat) : Nat :=
  IncludeEntry.collapsedTree limit tree

/-- The names of the relations that are fetched. -/
def requested (tree : IncludeTree) : List String :=
  (tree.filter fun p => p.2.isRequested).map (·.1)

end IncludeTree

end Roster
