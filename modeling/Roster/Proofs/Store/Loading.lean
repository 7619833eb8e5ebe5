import Roster.Proofs.Query.IncludePath
import Roster.Proofs.Sql.Statement
import Roster.Store.Includes

/-!
# What loading related records does not run into

Loading can come upon a name that is no relation, upon a relation to an entity that is not registered,
and upon a tree that is too deep, and it can send a query that no statement can be written for. In a
tree without problems that is within the limit it does none of these.

To say so, `Includes.loadVia` loads along `Detours`: what is done in each of the three cases is left
open. Loading is this with the detours that it takes (`loadVia_standard`). For a tree without problems
the detours make no difference, and neither does what a storage would do with a query that has no
statement (`loadVia_eq`). So whatever rows there are, and whatever a storage answers, no detour is
taken and no such query is sent.
-/

namespace Roster

/-- The storage with another answer to fetches for which no statement can be written. -/
def Storage.answering {m : Type → Type} (s : Storage m) (r : Registry)
    (unstated : Entity → Descriptor → ExceptT StorageFault m StoredRows) : Storage m :=
  { s with fetch := fun e q => if Sql.states r e q then s.fetch e q else unstated e q }

namespace Includes

/-- What is done where an include tree cannot be followed. -/
structure Detours (m : Type → Type) where
  /-- An entry stands under a name that is no relation of the entity. -/
  noRelation (e : Entity) (name : String) : ExceptT LoadFault m (Relation × Entity)
  /-- A relation leads to no entity of the registry. -/
  unknownEntity (l : Relation) : ExceptT LoadFault m (Relation × Entity)
  /-- The includes of rows are deeper than the limit. -/
  tooDeep (rows : List Json) : ExceptT LoadFault m (List Json)

section Detours

variable {m : Type → Type} [Monad m]

/-- What `load` does: it fails, or it leaves the rows as they are. -/
def Detours.standard : Detours m where
  noRelation e name := throw (.noRelation e.name name)
  unknownEntity l := throw (.unknownEntity l.target)
  tooDeep rows := pure rows

/-- `linkOf` along detours. -/
def linkVia (d : Detours m) (r : Registry) (e : Entity) (name : String) :
    ExceptT LoadFault m (Relation × Entity) :=
  match e.relation? name with
  | none => d.noRelation e name
  | some l =>
    match r.entity? l.target with
    | some target => pure (l, target)
    | none => d.unknownEntity l

mutual

/-- `loadEntry` along detours. -/
def loadEntryVia (d : Detours m) (s : Storage m) (r : Registry) (maxDepth depth : Nat) (e : Entity)
    (name : String) (rows : List Json) : IncludeEntry → ExceptT LoadFault m (List Json)
  | .null => pure rows
  | .flag wanted =>
    if wanted then do
      let (l, target) ← linkVia d r e name
      let children ← fetchChildren s l target none rows
      return distribute l none none children rows
    else pure rows
  | .nested inc select filter => do
    let (l, target) ← linkVia d r e name
    let children ← fetchChildren s l target filter rows
    let children ← loadNestedVia d s r maxDepth (depth + 1) target children inc
    return distribute l select inc children rows

/-- `loadNested` along detours. -/
def loadNestedVia (d : Detours m) (s : Storage m) (r : Registry) (maxDepth depth : Nat) (e : Entity)
    (rows : List Json) : Option (List (String × IncludeEntry)) → ExceptT LoadFault m (List Json)
  | none => pure rows
  | some tree =>
    if rows.isEmpty then pure rows
    else if maxDepth < depth then d.tooDeep rows
    else loadTreeVia d s r maxDepth depth e rows tree

/-- `loadTree` along detours. -/
def loadTreeVia (d : Detours m) (s : Storage m) (r : Registry) (maxDepth depth : Nat) (e : Entity)
    (rows : List Json) : List (String × IncludeEntry) → ExceptT LoadFault m (List Json)
  | [] => pure rows
  | (name, entry) :: rest => do
    let rows ← loadEntryVia d s r maxDepth depth e name rows entry
    loadTreeVia d s r maxDepth depth e rows rest

end

/-- `load` along detours. -/
def loadVia (d : Detours m) (s : Storage m) (r : Registry) (maxDepth depth : Nat) (e : Entity)
    (tree : IncludeTree) (rows : List Json) : ExceptT LoadFault m (List Json) :=
  if maxDepth < depth then d.tooDeep rows else loadTreeVia d s r maxDepth depth e rows tree

/-! ## The detours that are taken -/

theorem linkVia_standard (r : Registry) (e : Entity) (name : String) :
    linkVia (m := m) .standard r e name = linkOf r e name := rfl

variable (s : Storage m) (r : Registry) (maxDepth : Nat)

mutual

theorem loadEntryVia_standard (depth : Nat) (e : Entity) (name : String) (rows : List Json) :
    (entry : IncludeEntry) → loadEntryVia .standard s r maxDepth depth e name rows entry =
      loadEntry s r maxDepth depth e name rows entry
  | .null => rfl
  | .flag _ => rfl
  | .nested inc select filter => by
    have inner := fun target children => loadNestedVia_standard (depth + 1) target children inc
    simp only [loadEntryVia, loadEntry, linkVia_standard, inner]

theorem loadNestedVia_standard (depth : Nat) (e : Entity) (rows : List Json) :
    (inc : Option (List (String × IncludeEntry))) →
      loadNestedVia .standard s r maxDepth depth e rows inc =
        loadNested s r maxDepth depth e rows inc
  | none => rfl
  | some tree => by
    rw [loadNestedVia, loadNested, loadTreeVia_standard depth e rows tree]
    cases rows with
    | nil => rfl
    | cons row rest =>
      show (if maxDepth < depth then pure _ else _) = _
      simp only [List.isEmpty_cons, Bool.false_or, decide_eq_true_eq]

theorem loadTreeVia_standard (depth : Nat) (e : Entity) (rows : List Json) :
    (tree : List (String × IncludeEntry)) →
      loadTreeVia .standard s r maxDepth depth e rows tree = loadTree s r maxDepth depth e rows tree
  | [] => rfl
  | (name, entry) :: rest => by
    have tail := fun rows => loadTreeVia_standard depth e rows rest
    simp only [loadTreeVia, loadTree, loadEntryVia_standard depth e name rows entry, tail]

end

/-- **Loading takes the standard detours.** -/
theorem loadVia_standard (depth : Nat) (e : Entity) (tree : IncludeTree) (rows : List Json) :
    loadVia .standard s r maxDepth depth e tree rows = load s r maxDepth depth e tree rows := by
  rw [loadVia, load, loadTreeVia_standard]
  rfl

end Detours

/-! ## Queries for related records -/

variable {r : Registry} {e target : Entity} {l : Relation}

/-- A query for related records has its statements if its filter resolves: the keys are looked up in
a column of the target, and there is no order. -/
theorem states_childQuery (spelled : r.Spelled) (registered : r.Registered e)
    (member : l ∈ e.relations) (ht : r.entity? l.target = some target) {filter : Option Predicate}
    (resolves : ∀ p ∈ filter, ∀ path ∈ p.paths,
      ∃ owner field, r.resolve target path = .ok (owner, field)) (keys : List String) :
    Sql.states r target (childQuery filter l.foreignField keys) = true := by
  obtain ⟨field, hfield⟩ := spelled.resolve_foreign registered member ht
  refine Sql.states_of_resolves spelled.toLinked ⟨_, ht⟩ (fun merged hmerged path hpath => ?_) nofun
  obtain ⟨clause, hclause, p, hp, hpath⟩ := Predicate.exists_clause_of_mem_paths hmerged hpath
  simp only [List.mem_cons, List.not_mem_nil, or_false] at hclause
  rcases hclause with rfl | rfl
  · exact resolves p hp path hpath
  · obtain rfl := Option.some.inj hp
    rw [List.mem_singleton.mp hpath]
    exact ⟨target, field, hfield⟩

section Load

variable {m : Type → Type} [Monad m]

theorem fetchChildren_answering (spelled : r.Spelled) (registered : r.Registered e)
    (member : l ∈ e.relations) (ht : r.entity? l.target = some target) (s : Storage m)
    (unstated : Entity → Descriptor → ExceptT StorageFault m StoredRows) (filter : Option Predicate)
    (resolves : ∀ p ∈ filter, ∀ path ∈ p.paths,
      ∃ owner field, r.resolve target path = .ok (owner, field)) (rows : List Json) :
    fetchChildren (s.answering r unstated) l target filter rows =
      fetchChildren s l target filter rows := by
  have stated := states_childQuery spelled registered member ht resolves
  have fetched (keys : List String) :
      (s.answering r unstated).fetch target (childQuery filter l.foreignField keys) =
        s.fetch target (childQuery filter l.foreignField keys) := if_pos (stated keys)
  unfold fetchChildren
  simp only [fetched]

/-! ## Trees without problems -/

/-- The relation of a name that leads somewhere is found, with its target. -/
theorem links_of_target? (d : Detours m) {name : String}
    (ht : r.target? e name = some target) :
    ∃ l ∈ e.relations, r.entity? l.target = some target ∧
      linkVia d r e name = pure (l, target) ∧ linkOf (m := m) r e name = pure (l, target) := by
  obtain ⟨l, hl, htarget⟩ := Option.bind_eq_some_iff.mp ht
  refine ⟨l, List.mem_of_find?_eq_some hl, htarget, ?_, ?_⟩
  · simp only [linkVia, hl, htarget]
  · simp only [linkOf, hl, htarget]

variable (d : Detours m) (s : Storage m)
  (unstated : Entity → Descriptor → ExceptT StorageFault m StoredRows) (maxDepth : Nat)

mutual

/-- One entry: its relation is found, its records are fetched by a query with statements, and the
level below is within the limit. -/
theorem loadEntryVia_eq [LawfulMonad m] (spelled : r.Spelled) {e target : Entity}
    {name place : String} (depth : Nat) (registered : r.Registered e)
    (ht : r.target? e name = some target) (rows : List Json) :
    (entry : IncludeEntry) → entry.problems r target place = [] → depth + entry.depth ≤ maxDepth →
      loadEntryVia d (s.answering r unstated) r maxDepth depth e name rows entry =
        loadEntry s r maxDepth depth e name rows entry
  | .null, _, _ => rfl
  | .flag wanted, _, _ => by
    obtain ⟨l, member, htarget, linkVia, linkOf⟩ := links_of_target? d ht
    have fetched := fetchChildren_answering spelled registered member htarget s unstated none nofun
      rows
    simp only [loadEntryVia, loadEntry, linkVia, linkOf, pure_bind, fetched]
  | .nested inc select filter, valid, within => by
    obtain ⟨l, member, htarget, linkVia, linkOf⟩ := links_of_target? d ht
    obtain ⟨validFilter, -, -⟩ := IncludeEntry.valid_parts valid
    rw [IncludeEntry.problems, List.append_eq_nil_iff] at valid
    have fetched := fetchChildren_answering spelled registered member htarget s unstated filter
      (fun p hp => Predicate.resolves_of_valid p (validFilter p hp)) rows
    have inner := fun children => loadNestedVia_eq spelled depth ⟨_, htarget⟩ children inc valid.2
      within
    simp only [loadEntryVia, loadEntry, linkVia, linkOf, pure_bind, fetched, inner]

theorem loadNestedVia_eq [LawfulMonad m] (spelled : r.Spelled) {e : Entity} {place : String}
    (depth : Nat) (registered : r.Registered e) (rows : List Json) :
    (inc : Option (List (String × IncludeEntry))) →
      IncludeEntry.includeProblems r e place inc = [] →
        depth + IncludeEntry.includeDepth inc ≤ maxDepth →
          loadNestedVia d (s.answering r unstated) r maxDepth (depth + 1) e rows inc =
            loadNested s r maxDepth (depth + 1) e rows inc
  | none, _, _ => rfl
  | some tree, valid, within => by
    -- includes are a level of their own, so the next level is counted and its guard cannot hold
    rw [IncludeEntry.includeDepth, ← Nat.add_assoc] at within
    have level : ¬ maxDepth < depth + 1 := by omega
    have inner := loadTreeVia_eq spelled (depth + 1) registered rows tree valid within
    simp only [loadNestedVia, loadNested, inner, level, if_false, decide_false, Bool.or_false]

theorem loadTreeVia_eq [LawfulMonad m] (spelled : r.Spelled) {e : Entity} {place : String}
    (depth : Nat) (registered : r.Registered e) (rows : List Json) :
    (tree : List (String × IncludeEntry)) →
      IncludeEntry.treeProblems r e place tree = [] →
        depth + IncludeEntry.treeDepth tree ≤ maxDepth →
          loadTreeVia d (s.answering r unstated) r maxDepth depth e rows tree =
            loadTree s r maxDepth depth e rows tree
  | [], _, _ => rfl
  | (name, entry) :: rest, valid, within => by
    obtain ⟨target, ht, validEntry⟩ := IncludeEntry.valid_of_mem valid List.mem_cons_self
    rw [IncludeEntry.treeProblems, List.append_eq_nil_iff] at valid
    rw [IncludeEntry.treeDepth] at within
    have head := loadEntryVia_eq spelled depth registered ht rows entry validEntry (by omega)
    -- an entry changes the rows, so what follows is needed for all rows
    have tail := fun rows => loadTreeVia_eq spelled depth registered rows rest valid.2 (by omega)
    simp only [loadTreeVia, loadTree, head, tail]

end

/-- **Loading a tree without problems within the limit takes no detour**, and the storage is sent no
query without a statement. -/
theorem loadVia_eq [LawfulMonad m] (spelled : r.Spelled) (registered : r.Registered e)
    {place : String} {tree : IncludeTree} {depth : Nat}
    (valid : IncludeEntry.treeProblems r e place tree = [])
    (within : depth + tree.depth ≤ maxDepth) (rows : List Json) :
    loadVia d (s.answering r unstated) r maxDepth depth e tree rows =
      load s r maxDepth depth e tree rows := by
  have level : ¬ maxDepth < depth := by omega
  rw [loadVia, load, if_neg level, if_neg level]
  exact loadTreeVia_eq d s unstated maxDepth spelled depth registered rows tree valid within

end Load

end Includes

end Roster
