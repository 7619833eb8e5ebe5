import Roster.Scope.Rule
import Roster.Store.Storage

/-!
# Narrowing a query to what its caller may see

The last step before a query is run. Leaves that the caller may not filter on
are taken out of every filter, restricted sort keys are dropped, includes the
caller may not read disappear, and the overlay of the entity is put on top. A
parent record that the filter names has to be the caller's own.
-/

namespace Roster

/-- Why a query is refused to a caller. -/
inductive ScopeFault where
  /-- The role may not read the entity. -/
  | forbidden (role : Role) (entity : String)
  /-- A record that the filter names belongs to somebody else. -/
  | notOwned (entity id : String)
  /-- The owner of a record could not be looked up. -/
  | lookup (cause : String)
deriving DecidableEq, Repr

/-- The wording of a refusal. -/
def ScopeFault.message : ScopeFault → String
  | .forbidden role entity => "role `" ++ role.word ++ "` may not read `" ++ entity ++ "`"
  | .notOwned entity id => "`" ++ entity ++ "` record `" ++ id ++ "` is not owned by the caller"
  | .lookup _ => "ownership lookup failed"

namespace Caller

/-- The entity that relations lead to, if the caller sees all rows on the way. -/
def followOpen (c : Caller) (r : Registry) : Entity → List String → Option Entity
  | e, [] => some e
  | e, hop :: rest =>
    match r.target? e hop with
    | some target =>
      if (c.rule target.name).overlay.isPassThrough then c.followOpen r target rest else none
    | none => none

/-- The caller may not filter on a path: it goes through rows that are not all visible, or it leads
to a restricted field. -/
def blocks (c : Caller) (r : Registry) (e : Entity) (path : Path) : Bool :=
  match c.followOpen r e path.relations with
  | some owner => (c.rule owner.name).restricted.contains (Path.ofText path.leaf)
  | none => true

/-- The filter without the leaves that the caller may not filter on. -/
def strip (c : Caller) (r : Registry) (e : Entity) (filter : Option Predicate) :
    Option Predicate :=
  filter.bind fun p => Predicate.removeRestricted (some p) (p.paths.filter (c.blocks r e))

/-- An entry as short as its directives allow. -/
def entryOf (n : IncludeNode) : IncludeEntry :=
  if n.filter.isNone && n.include?.isNone && n.select.isNone then .flag true else .ofNode n

mutual

/-- An entry below a relation to `target`, narrowed; none where the caller may not read it. -/
def narrowEntry (c : Caller) (r : Registry) (target : Entity) : IncludeEntry → Option IncludeEntry
  | .null => some .null
  | .flag wanted =>
    if wanted then
      let rule := c.rule target.name
      if rule.overlay.isDeny then none
      else some (entryOf { filter := rule.overlay.apply none })
    else some (.flag false)
  | .nested inc select filter =>
    let rule := c.rule target.name
    if rule.overlay.isDeny then none
    else
      some (entryOf
        { filter := rule.overlay.apply (c.strip r target filter)
          include? := narrowInclude c r target inc
          select := select })

/-- The includes of a node, narrowed. -/
def narrowInclude (c : Caller) (r : Registry) (e : Entity) :
    Option (List (String × IncludeEntry)) → Option IncludeTree
  | none => none
  | some tree => some (narrowTree c r e tree)

/-- An include tree on rows of an entity, narrowed. What is no relation stays as it is. -/
def narrowTree (c : Caller) (r : Registry) (e : Entity) : List (String × IncludeEntry) → IncludeTree
  | [] => []
  | (name, entry) :: rest =>
    match r.target? e name with
    | some target =>
      match narrowEntry c r target entry with
      | some entry => (name, entry) :: narrowTree c r e rest
      | none => narrowTree c r e rest
    | none => (name, entry) :: narrowTree c r e rest

end

/-- The sort keys that are left; none at all rather than an empty list. -/
def narrowOrder (restricted : List Path) (keys : List SortKey) : Option (List SortKey) :=
  match keys.filter fun k => !restricted.contains k.path with
  | [] => none
  | kept => some kept

/-- The values that the top conditions of a filter hold a path to, as texts, each once. -/
def pinnedTexts (filter : Option Predicate) (path : Path) : List String :=
  let values := ((filter.map Predicate.conjuncts).getD []).flatMap fun
    | .equals p value => if p = path then [value] else []
    | .operator p f => if p = path then f.pinnedValues else []
    | _ => []
  (values.filterMap Scalar.spelled?).eraseDups

variable {m : Type → Type} [Monad m]

/-- Looks up the owner of each record; all have to be the caller's own. -/
def checkOwned (c : Caller) (s : Storage m) (parent : Entity) (ownerField : String) :
    List String → ExceptT ScopeFault m Unit
  | [] => pure ()
  | id :: rest => do
    let owned := Predicate.and [.equals (Path.ofText "id") (.text id),
      .equals (Path.ofText ownerField) c.asScalar]
    let count ← (s.count parent (some owned)).adapt fun fault => .lookup fault.message
    if count = 0 then throw (.notOwned parent.name id)
    c.checkOwned s parent ownerField rest

/-- The ownership check of an overlay on a filter. -/
def checkParents (c : Caller) (r : Registry) (s : Storage m) (overlay : Overlay)
    (filter : Option Predicate) : ExceptT ScopeFault m Unit :=
  match overlay with
  | .parentOwner foreignKey parent ownerField _ _ =>
    match pinnedTexts filter foreignKey with
    | [] => pure ()
    | ids =>
      match r.entity? parent with
      | some parentEntity => c.checkOwned s parentEntity ownerField ids
      | none => throw (.lookup (unknownEntityMessage parent))
  | _ => pure ()

/-- The query as the caller may ask it. -/
def narrow (c : Caller) (r : Registry) (s : Storage m) (e : Entity) (q : Descriptor) :
    ExceptT ScopeFault m Descriptor := do
  let rule := c.rule e.name
  if rule.overlay.isDeny then throw (.forbidden c.role e.name)
  let filter := c.strip r e q.filter
  c.checkParents r s rule.overlay filter
  return { q with
    filter := rule.overlay.apply filter
    orderBy := q.orderBy.bind (narrowOrder rule.restricted)
    include? := narrowInclude c r e q.include? }

end Caller

end Roster
