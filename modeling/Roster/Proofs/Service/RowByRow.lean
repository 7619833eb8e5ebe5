import Mathlib.Data.List.Permutation
import Roster.Proofs.Service.Records

/-!
# Batches of related records

Loading an include asks once for the records of all rows together and then hands them out. Here is
what each row should get: under a relation that is asked for, the rows of the target that pass the
filter of the include and hold the row's own key, each with its own includes, projected
(`Tables.included`). They stand in the order in which the storage brings the records of the batch
(`Tables.candidates`). As long as no batch is larger than one fetch (`Tables.WithinFetchTree`), this is what
loading does (`Includes.load_batches`).

With identifiers that are texts the order of some records does not depend on what else is sorted with
them. Then the rows of a batch get what each of them would get if it were loaded alone.
-/

namespace Roster

open Includes

/-- The record holds the key of the row. -/
def Relation.ties (l : Relation) (row child : Json) : Bool :=
  (row.keyIn? l.localField).isSome && child.keyIn? l.foreignField == row.keyIn? l.localField

/-- Sets several fields of an object, one after the other. -/
def Json.withFields (row : Json) (values : List (String × Json)) : Json :=
  values.foldl (fun row p => row.withField p.1 p.2) row

/-- The relation of a name with its target. -/
def Registry.link? (r : Registry) (e : Entity) (name : String) : Option (Relation × Entity) :=
  e.relation? name >>= fun l => (r.entity? l.target).map (l, ·)

namespace Tables

/-! ## What rows should get -/

/-- The records of several rows: the rows of the target that pass a filter and hold the key of one of
the rows, in the order of a fetch. -/
def candidates (t : Tables) (r : Registry) (l : Relation) (target : Entity)
    (filter : Option Predicate) (rows : List Json) : List Json :=
  sortRows [] ((t.of target.name).filter fun child =>
    filter.all (t.passes r target · child) && rows.any (l.ties · child))

mutual

/-- What stands under a relation of one of several rows. -/
def included (t : Tables) (r : Registry) (l : Relation) (target : Entity) (rows : List Json)
    (row : Json) : IncludeEntry → Json
  | .nested inc select filter =>
    let records := t.candidates r l target filter rows
    let own := records.filter (l.ties row)
    l.value (own.map fun child =>
      project (t.withIncludes r target records child inc) select inc)
  | _ => l.value ((t.candidates r l target none rows).filter (l.ties row))

/-- One of several rows with its includes. -/
def withIncludes (t : Tables) (r : Registry) (e : Entity) (rows : List Json) (row : Json) :
    Option (List (String × IncludeEntry)) → Json
  | none => row
  | some tree => row.withFields (t.includes r e rows row tree)

/-- What stands under the relations that a tree asks for. -/
def includes (t : Tables) (r : Registry) (e : Entity) (rows : List Json) (row : Json) :
    List (String × IncludeEntry) → List (String × Json)
  | [] => []
  | (name, entry) :: rest =>
    let found :=
      match r.link? e name with
      | some (l, target) =>
        if entry.isRequested then [(name, t.included r l target rows row entry)] else []
      | none => []
    found ++ t.includes r e rows row rest

end

/-! ## Limits -/

mutual

/-- No more records than one fetch brings hold the keys of the rows, here and below. -/
def WithinFetch (t : Tables) (r : Registry) (l : Relation) (target : Entity) (rows : List Json) :
    IncludeEntry → Prop
  | .nested inc _ filter =>
    (t.candidates r l target filter rows).length ≤ childLimit ∧
      t.WithinFetchNode r target (t.candidates r l target filter rows) inc
  | .flag true => (t.candidates r l target none rows).length ≤ childLimit
  | _ => True

/-- The same of the includes of a node. -/
def WithinFetchNode (t : Tables) (r : Registry) (e : Entity) (rows : List Json) :
    Option (List (String × IncludeEntry)) → Prop
  | none => True
  | some tree => t.WithinFetchTree r e rows tree

/-- The same of every entry of a tree. -/
def WithinFetchTree (t : Tables) (r : Registry) (e : Entity) (rows : List Json) :
    List (String × IncludeEntry) → Prop
  | [] => True
  | (name, entry) :: rest =>
    (∀ l target, r.link? e name = some (l, target) → t.WithinFetch r l target rows entry) ∧
      t.WithinFetchTree r e rows rest

end

variable {t : Tables} {r : Registry} {e target : Entity} {l : Relation} {name : String}
  {filter : Option Predicate} {rows : List Json} {row : Json}

theorem link?_eq_some_iff :
    r.link? e name = some (l, target) ↔
      e.relation? name = some l ∧ r.entity? l.target = some target := by
  simp only [Registry.link?, Option.bind_eq_bind, Option.bind_eq_some_iff, Option.map_eq_some_iff,
    Prod.mk.injEq]
  constructor
  · rintro ⟨found, hl, linked, ht, rfl, rfl⟩
    exact ⟨hl, ht⟩
  · rintro ⟨hl, ht⟩
    exact ⟨l, hl, target, ht, rfl, rfl⟩

theorem relation?_name (h : e.relation? name = some l) : l.name = name := by
  simpa using List.find?_some h

theorem linkOf_of_link? {m : Type → Type} [Monad m] (h : r.link? e name = some (l, target)) :
    linkOf (m := m) r e name = pure (l, target) := by
  obtain ⟨hl, ht⟩ := link?_eq_some_iff.mp h
  simp only [linkOf, hl, ht]

/-! ## Fields -/

theorem get?_withFields_other {values : List (String × Json)} {other : String}
    (outside : ∀ p ∈ values, p.1 ≠ other) (row : Json) :
    (row.withFields values).get? other = row.get? other := by
  induction values generalizing row with
  | nil => rfl
  | cons p rest ih =>
    have step := ih (fun q hq => outside q (List.mem_cons_of_mem _ hq)) (row.withField p.1 p.2)
    rw [Json.withFields, List.foldl_cons]
    exact step.trans (Json.get?_withField (outside p List.mem_cons_self).symm)

theorem isObject_withField {v : Json} (object : row.isObject = true) :
    (row.withField name v).isObject = true := by
  obtain ⟨fields, rfl⟩ := Json.eq_obj object
  rfl

/-- A field that is set once has the value that it is set to. -/
theorem get?_withFields {values : List (String × Json)} {v : Json}
    (distinct : (values.map (·.1)).Nodup) (member : (name, v) ∈ values) :
    ∀ row : Json, row.isObject = true → (row.withFields values).get? name = some v := by
  induction values with
  | nil => cases member
  | cons p rest ih =>
    intro row object
    obtain ⟨fresh, distinct⟩ := List.nodup_cons.mp distinct
    rw [Json.withFields, List.foldl_cons]
    rcases List.mem_cons.mp member with rfl | member
    · have outside : ∀ p ∈ rest, p.1 ≠ name := by
        intro q hq same
        exact fresh (List.mem_map.mpr ⟨q, hq, same⟩)
      exact (get?_withFields_other outside _).trans (Json.get?_withField_self object _ _)
    · exact ih distinct member _ (isObject_withField object)

/-- Every requested relation of a tree has a value. -/
theorem mem_includes {tree : IncludeTree} {entry : IncludeEntry} (member : (name, entry) ∈ tree)
    (wanted : entry.isRequested = true) (hlink : r.link? e name = some (l, target)) :
    (name, t.included r l target rows row entry) ∈ t.includes r e rows row tree := by
  induction tree with
  | nil => cases member
  | cons first rest ih =>
    rw [includes]
    rcases List.mem_cons.mp member with rfl | member
    · refine List.mem_append_left _ ?_
      simp only [hlink, if_pos wanted]
      exact List.mem_cons_self
    · exact List.mem_append_right _ (ih member)

/-- Only requested relations have a value, each as often as it is named. -/
theorem names_includes (tree : IncludeTree) :
    ((t.includes r e rows row tree).map (·.1)).Sublist tree.requested := by
  induction tree with
  | nil => exact .slnil
  | cons first rest ih =>
    obtain ⟨name, entry⟩ := first
    rw [includes, IncludeTree.requested_cons, List.map_append]
    refine List.Sublist.append ?_ ih
    cases hlink : r.link? e name with
    | none => exact List.nil_sublist _
    | some found => cases entry.isRequested <;> exact .refl _

theorem relation?_of_mem_includes {tree : IncludeTree} {p : String × Json}
    (member : p ∈ t.includes r e rows row tree) : e.relation? p.1 ≠ none := by
  induction tree with
  | nil => cases member
  | cons first rest ih =>
    obtain ⟨name, entry⟩ := first
    rw [includes] at member
    rcases List.mem_append.mp member with member | member
    · cases hlink : r.link? e name with
      | none =>
        rw [hlink] at member
        cases member
      | some found =>
        obtain ⟨l, target⟩ := found
        rw [hlink] at member
        dsimp only at member
        split at member
        · rw [List.mem_singleton.mp member, (link?_eq_some_iff.mp hlink).1]
          exact nofun
        · cases member
    · exact ih member

/-- Columns stay as they are. -/
theorem keyIn?_withIncludes {column : String} (h : e.relation? column = none)
    (inc : Option IncludeTree) :
    (t.withIncludes r e rows row inc).keyIn? column = row.keyIn? column := by
  cases inc with
  | none => rfl
  | some tree =>
    refine Json.keyIn?_congr (get?_withFields_other (fun p member same => ?_) row)
    exact relation?_of_mem_includes member (same ▸ h)

/-! ## Batches -/

theorem related_eq_filter (l : Relation) (row : Json) (children : List Json) :
    related (row.keyIn? l.localField) l.foreignField children = children.filter (l.ties row) := rfl

theorem ties_iff {child : Json} :
    l.ties row child = true ↔
      ∃ key, row.keyIn? l.localField = some key ∧ child.keyIn? l.foreignField = some key := by
  rw [Relation.ties, Bool.and_eq_true, beq_iff_eq]
  constructor
  · rintro ⟨keyed, same⟩
    obtain ⟨key, hkey⟩ := Option.isSome_iff_exists.mp keyed
    exact ⟨key, hkey, same.trans hkey⟩
  · rintro ⟨key, hkey, same⟩
    exact ⟨by rw [hkey]; rfl, same.trans hkey.symm⟩

/-- A record holds one of the keys of some rows when it holds the key of one of them. -/
theorem any_keysOf (l : Relation) (rows : List Json) (child : Json) :
    (child.keyIn? l.foreignField).any (keysOf l.localField rows).contains =
      rows.any (l.ties · child) := by
  rw [Bool.eq_iff_iff, List.any_eq_true, Option.any_eq_true]
  simp only [ties_iff, List.contains_iff_mem, mem_keysOf]
  constructor
  · rintro ⟨key, held, row, shown, hkey⟩
    exact ⟨row, shown, key, hkey, held⟩
  · rintro ⟨row, shown, key, hkey, held⟩
    exact ⟨key, held, row, shown, hkey⟩

/-- A fetch for the keys of some rows brings their candidates. -/
theorem recordsOf_keysOf (found : t.FoundByText r) (spelled : r.Spelled)
    (registered : r.Registered e) (member : l ∈ e.relations)
    (ht : r.entity? l.target = some target) (rows : List Json) :
    t.recordsOf r l target filter (keysOf l.localField rows) =
      t.candidates r l target filter rows := by
  rw [recordsOf_eq found spelled registered member ht, candidates]
  congr 1
  refine List.filter_congr fun child _ => ?_
  rw [any_keysOf]

/-- What holds the key of one of the rows is held by some row of the batch. -/
theorem ties_and_any (shown : row ∈ rows) (passes : Bool) (child : Json) :
    (l.ties row child && (passes && rows.any (l.ties · child))) =
      (passes && l.ties row child) := by
  cases tied : l.ties row child with
  | false => simp
  | true =>
    have some_ : rows.any (l.ties · child) = true := List.any_eq_true.mpr ⟨row, shown, tied⟩
    rw [some_, Bool.true_and]

/-- Among the candidates of a batch a row has the records that pass and hold its key. -/
theorem perm_filter_candidates (filter : Option Predicate) (shown : row ∈ rows) :
    ((t.candidates r l target filter rows).filter (l.ties row)).Perm
      ((t.of target.name).filter fun child =>
        filter.all (t.passes r target · child) && l.ties row child) := by
  refine ((sortRows_perm [] _).filter _).trans (.of_eq ?_)
  rw [List.filter_filter]
  exact List.filter_congr fun child _ => ties_and_any shown _ child

/-! ## Rows on their own -/

/-- With texts as identifiers a row finds the same records in a batch as on its own. -/
theorem filter_candidates (identified : ∀ child ∈ t.of target.name, child.Identified)
    (filter : Option Predicate) (shown : row ∈ rows) :
    (t.candidates r l target filter rows).filter (l.ties row) =
      t.candidates r l target filter [row] := by
  have alone : ∀ child, (filter.all (t.passes r target · child) && [row].any (l.ties · child)) =
      (filter.all (t.passes r target · child) && l.ties row child) := fun child => by simp
  rw [candidates, filter_sortRows, List.filter_filter, candidates]
  · congr 1
    refine List.filter_congr fun child _ => ?_
    rw [ties_and_any shown, alone]
  · exact fun child member => identified child (List.mem_filter.mp member).1

mutual

/-- With texts as identifiers, what stands under a relation of a row of a batch is what the row has
there alone. -/
theorem included_alone (identified : ∀ entity, ∀ row ∈ t.of entity, row.Identified) (l : Relation)
    (target : Entity) : (entry : IncludeEntry) →
    ∀ {rows : List Json} {row : Json}, row ∈ rows →
      t.included r l target rows row entry = t.included r l target [row] row entry
  | .null, rows, row, shown => by
    rw [included, included, filter_candidates (identified target.name) none shown,
      filter_candidates (identified target.name) none (List.mem_singleton_self row)]
    all_goals exact nofun
  | .flag wanted, rows, row, shown => by
    rw [included, included, filter_candidates (identified target.name) none shown,
      filter_candidates (identified target.name) none (List.mem_singleton_self row)]
    all_goals exact nofun
  | .nested inc select filter, rows, row, shown => by
    have own := filter_candidates (r := r) (l := l) (identified target.name) filter shown
    have alone := filter_candidates (r := r) (l := l) (identified target.name) filter
      (List.mem_singleton_self row)
    rw [included, included, own, alone]
    congr 1
    refine List.map_congr_left fun child member => ?_
    -- below, either batch has the record, so both give it what it has alone
    have inBatch : child ∈ t.candidates r l target filter rows :=
      List.mem_of_mem_filter (own ▸ member)
    rw [withIncludes_alone identified target inc inBatch,
      withIncludes_alone identified target inc member]

theorem withIncludes_alone (identified : ∀ entity, ∀ row ∈ t.of entity, row.Identified)
    (e : Entity) : (inc : Option (List (String × IncludeEntry))) →
    ∀ {rows : List Json} {row : Json}, row ∈ rows →
      t.withIncludes r e rows row inc = t.withIncludes r e [row] row inc
  | none, _, _, _ => rfl
  | some tree, rows, row, shown => by
    rw [withIncludes, withIncludes, includes_alone identified e tree shown]

theorem includes_alone (identified : ∀ entity, ∀ row ∈ t.of entity, row.Identified) (e : Entity) :
    (tree : List (String × IncludeEntry)) →
    ∀ {rows : List Json} {row : Json}, row ∈ rows →
      t.includes r e rows row tree = t.includes r e [row] row tree
  | [], _, _, _ => rfl
  | (name, entry) :: rest, rows, row, shown => by
    have head := fun l target => included_alone identified l target entry shown
    rw [includes, includes, includes_alone identified e rest shown]
    simp only [head]

end

/-! ## Smaller batches -/

section Fewer

variable {others : List Json}

/-- Fewer rows have fewer candidates. -/
theorem sublist_candidates (fewer : ∀ row ∈ others, row ∈ rows) :
    ((t.of target.name).filter fun child =>
        filter.all (t.passes r target · child) && others.any (l.ties · child)).Sublist
      ((t.of target.name).filter fun child =>
        filter.all (t.passes r target · child) && rows.any (l.ties · child)) := by
  refine List.monotone_filter_right _ fun child passes => ?_
  obtain ⟨passes, tied⟩ := Bool.and_eq_true_iff.mp passes
  obtain ⟨row, shown, tied⟩ := List.any_eq_true.mp tied
  exact Bool.and_eq_true_iff.mpr ⟨passes, List.any_eq_true.mpr ⟨row, fewer row shown, tied⟩⟩

theorem length_candidates_le (fewer : ∀ row ∈ others, row ∈ rows) :
    (t.candidates r l target filter others).length ≤
      (t.candidates r l target filter rows).length := by
  rw [candidates, candidates, length_sortRows, length_sortRows]
  exact (sublist_candidates fewer).length_le

theorem mem_candidates_of_fewer (fewer : ∀ row ∈ others, row ∈ rows) :
    ∀ child ∈ t.candidates r l target filter others, child ∈ t.candidates r l target filter rows := by
  intro child member
  exact (sortRows_perm [] _).mem_iff.mpr
    ((sublist_candidates fewer).mem ((sortRows_perm [] _).mem_iff.mp member))

end Fewer

mutual

/-- Some rows of a batch that is within one fetch are within one fetch. -/
theorem WithinFetch.fewer (l : Relation) (target : Entity) : (entry : IncludeEntry) →
    ∀ {rows others : List Json}, (∀ row ∈ others, row ∈ rows) →
      t.WithinFetch r l target rows entry → t.WithinFetch r l target others entry
  | .null, _, _, _, _ => trivial
  | .flag false, _, _, _, _ => trivial
  | .flag true, _, _, fewer, within => (length_candidates_le fewer).trans within
  | .nested inc _ _, _, _, fewer, within =>
    ⟨(length_candidates_le fewer).trans within.1,
      WithinFetchNode.fewer target inc (mem_candidates_of_fewer fewer) within.2⟩

theorem WithinFetchNode.fewer (e : Entity) : (inc : Option (List (String × IncludeEntry))) →
    ∀ {rows others : List Json}, (∀ row ∈ others, row ∈ rows) →
      t.WithinFetchNode r e rows inc → t.WithinFetchNode r e others inc
  | none, _, _, _, _ => trivial
  | some tree, _, _, fewer, within => WithinFetchTree.fewer e tree fewer within

theorem WithinFetchTree.fewer (e : Entity) : (tree : List (String × IncludeEntry)) →
    ∀ {rows others : List Json}, (∀ row ∈ others, row ∈ rows) →
      t.WithinFetchTree r e rows tree → t.WithinFetchTree r e others tree
  | [], _, _, _, _ => trivial
  | (_, entry) :: rest, _, _, fewer, within =>
    ⟨fun l target hlink => WithinFetch.fewer l target entry fewer (within.1 l target hlink),
      WithinFetchTree.fewer e rest fewer within.2⟩

end

end Tables

namespace Includes

open Tables

variable {t : Tables} {r : Registry} {e target : Entity} {l : Relation} {name : String}
  {filter : Option Predicate} {rows : List Json}

/-! ## Loading a batch -/

/-- A change of rows that leaves their keys alone. -/
def KeepsKeys (e : Entity) (done : Json → Json) : Prop :=
  ∀ l ∈ e.relations, ∀ row : Json, (done row).keyIn? l.localField = row.keyIn? l.localField

/-- Fields of relations can be set besides. -/
theorem KeepsKeys.withFields {done : Json → Json} (kept : KeepsKeys e done) (spelled : r.Spelled)
    (registered : r.Registered e) {values : Json → List (String × Json)}
    (relations : ∀ row, ∀ p ∈ values row, e.relation? p.1 ≠ none) :
    KeepsKeys e fun row => (done row).withFields (values row) := by
  intro l member row
  obtain ⟨target, ht, -⟩ := spelled.links registered member
  have column := (spelled.columns registered member ht).1
  rw [← kept l member row]
  refine Json.keyIn?_congr (get?_withFields_other (fun p listed same => ?_) _)
  exact relations row p listed (same ▸ column)

theorem fetchChildren_candidates (found : t.FoundByText r) (spelled : r.Spelled)
    (registered : r.Registered e) (member : l ∈ e.relations)
    (ht : r.entity? l.target = some target) {done : Json → Json} (kept : KeepsKeys e done)
    (within : (t.candidates r l target filter rows).length ≤ childLimit) :
    fetchChildren (m := Id) (t.storage r) l target filter (rows.map done) =
      pure (t.candidates r l target filter rows) := by
  have batch : t.recordsOf r l target filter (keysOf l.localField rows) =
      t.candidates r l target filter rows :=
    recordsOf_keysOf found spelled registered member ht rows
  have same : keysOf l.localField (rows.map done) = keysOf l.localField rows :=
    keysOf_map (kept l member) rows
  rw [← batch] at within
  rw [fetchChildren_recordsOf (by rwa [same]), same, batch]

/-- Records are handed out by the keys that they have before their own includes are loaded. -/
theorem distribute_candidates (member : l ∈ e.relations) {done : Json → Json}
    (kept : KeepsKeys e done) (deep : Json → Json)
    (keptBelow : ∀ child, (deep child).keyIn? l.foreignField = child.keyIn? l.foreignField)
    (select : Option Select) (inc : Option IncludeTree) (records rows : List Json) :
    distribute l select inc (records.map deep) (rows.map done) =
      rows.map fun row => (done row).withField l.name
        (l.value ((records.filter (l.ties row)).map fun child => project (deep child) select inc)) := by
  rw [distribute, List.map_map]
  refine List.map_congr_left fun row _ => ?_
  rw [Function.comp_apply, kept l member, related_map keptBelow, related_eq_filter]
  dsimp only
  rw [List.map_map]
  rfl

section Load

variable (maxDepth : Nat)

mutual

/-- One entry: every row gets what the batch has for it. -/
theorem loadEntry_batch (found : t.FoundByText r) (spelled : r.Spelled) {e target : Entity}
    {l : Relation} {name : String} (depth : Nat) (registered : r.Registered e)
    (hlink : r.link? e name = some (l, target))
    {done : Json → Json} (kept : KeepsKeys e done) (rows : List Json) :
    (entry : IncludeEntry) → (∀ inner, entry.include? = some inner → inner.Known r target) →
      t.WithinFetch r l target rows entry → depth + entry.depth ≤ maxDepth →
        loadEntry (m := Id) (t.storage r) r maxDepth depth e name (rows.map done) entry =
          pure (rows.map fun row => (done row).withFields
            (if entry.isRequested then [(name, t.included r l target rows row entry)] else []))
  | .null, _, _, _ => rfl
  | .flag false, _, _, _ => rfl
  | .flag true, _, within, _ => by
    obtain ⟨hl, ht⟩ := link?_eq_some_iff.mp hlink
    have member : l ∈ e.relations := List.mem_of_find?_eq_some hl
    have handed := distribute_candidates member kept id (fun _ => rfl) none none
      (t.candidates r l target none rows) rows
    have unprojected : (fun child : Json => project (id child) none none) = id := rfl
    rw [List.map_id, unprojected] at handed
    simp only [List.map_id] at handed
    rw [loadEntry, if_pos rfl, linkOf_of_link? hlink, pure_bind]
    dsimp only
    rw [fetchChildren_candidates found spelled registered member ht kept within, pure_bind, handed,
      relation?_name hl]
    rfl
  | .nested inc select filter, known, within, shallow => by
    obtain ⟨hl, ht⟩ := link?_eq_some_iff.mp hlink
    have member : l ∈ e.relations := List.mem_of_find?_eq_some hl
    have column := (spelled.columns registered member ht).2
    have loaded := loadNode_batch found spelled depth ⟨_, ht⟩ (t.candidates r l target filter rows)
      inc known within.2 shallow
    have handed := distribute_candidates member kept
      (fun child => t.withIncludes r target (t.candidates r l target filter rows) child inc)
      (fun child => keyIn?_withIncludes column inc) select inc (t.candidates r l target filter rows)
      rows
    rw [loadEntry, linkOf_of_link? hlink, pure_bind]
    dsimp only
    rw [fetchChildren_candidates found spelled registered member ht kept within.1, pure_bind, loaded,
      pure_bind, handed, relation?_name hl]
    rfl

theorem loadNode_batch (found : t.FoundByText r) (spelled : r.Spelled) {e : Entity} (depth : Nat)
    (registered : r.Registered e) (rows : List Json) :
    (inc : Option (List (String × IncludeEntry))) →
      (∀ inner, inc = some inner → IncludeTree.Known r e inner) →
        t.WithinFetchNode r e rows inc → depth + IncludeEntry.includeDepth inc ≤ maxDepth →
          loadNested (m := Id) (t.storage r) r maxDepth (depth + 1) e rows inc =
            pure (rows.map fun row => t.withIncludes r e rows row inc)
  | none, _, _, _ => by
    rw [loadNested]
    exact congrArg pure (List.map_id' rows).symm
  | some tree, known, within, shallow => by
    rw [IncludeEntry.includeDepth, ← Nat.add_assoc] at shallow
    have level : ¬ maxDepth < depth + 1 := by omega
    have loaded := loadTree_batch found spelled (depth + 1) registered id (fun _ _ _ => rfl) rows
      tree (known tree rfl) within shallow
    rw [List.map_id] at loaded
    cases rows with
    | nil => rfl
    | cons row rest =>
      rw [loadNested, if_neg (by simp [level])]
      exact loaded

theorem loadTree_batch (found : t.FoundByText r) (spelled : r.Spelled) {e : Entity} (depth : Nat)
    (registered : r.Registered e) (done : Json → Json) (kept : KeepsKeys e done) (rows : List Json) :
    (tree : List (String × IncludeEntry)) → IncludeTree.Known r e tree →
      t.WithinFetchTree r e rows tree → depth + IncludeEntry.treeDepth tree ≤ maxDepth →
        loadTree (m := Id) (t.storage r) r maxDepth depth e (rows.map done) tree =
          pure (rows.map fun row => (done row).withFields (t.includes r e rows row tree))
  | [], _, _, _ => rfl
  | (name, entry) :: rest, known, within, shallow => by
    obtain ⟨target, htarget⟩ := known.target? List.mem_cons_self
    obtain ⟨l, hl, ht⟩ := Option.bind_eq_some_iff.mp htarget
    have hlink : r.link? e name = some (l, target) := link?_eq_some_iff.mpr ⟨hl, ht⟩
    rw [IncludeEntry.treeDepth] at shallow
    have first := loadEntry_batch found spelled depth registered hlink kept rows entry
      (fun inner hinner => known.includes List.mem_cons_self htarget hinner) (within.1 l target hlink)
      (by omega)
    -- what is done to the rows so far leaves their keys alone, so the next entry finds the same batch
    have keptNext : KeepsKeys e fun row => (done row).withFields
        (if entry.isRequested then [(name, t.included r l target rows row entry)] else []) := by
      refine kept.withFields spelled registered fun row p member => ?_
      split at member
      · rw [List.mem_singleton.mp member, hl]
        exact nofun
      · cases member
    rw [loadTree, first, pure_bind, loadTree_batch found spelled depth registered _ keptNext rows rest
      known.tail within.2 (by omega)]
    refine congrArg pure (List.map_congr_left fun row _ => ?_)
    rw [includes, hlink, Json.withFields, Json.withFields, Json.withFields, List.foldl_append]

end

end Load

/-! ## Loading row by row -/

variable {tree : IncludeTree} {row : Json}

/-- A batch is loaded as its rows should be, each with the records that are its own. -/
theorem load_batch (found : t.FoundByText r) (spelled : r.Spelled) (registered : r.Registered e)
    (known : tree.Known r e) {maxDepth depth : Nat} (shallow : depth + tree.depth ≤ maxDepth)
    (within : t.WithinFetchTree r e rows tree) :
    load (m := Id) (t.storage r) r maxDepth depth e tree rows =
      pure (rows.map fun row => t.withIncludes r e rows row (some tree)) := by
  have level : ¬ maxDepth < depth := by omega
  have loaded := loadTree_batch maxDepth found spelled depth registered id
    (fun _ _ _ => rfl) rows tree known within shallow
  rw [List.map_id] at loaded
  rw [load, if_neg level]
  exact loaded

/-- Without a key there is nothing under a relation. -/
theorem included_of_null (entry : IncludeEntry) (missing : row.field l.localField = .null) :
    t.included r l target rows row entry = if l.singular then .null else .arr [] := by
  have untied : ∀ records : List Json, records.filter (l.ties row) = [] := by
    intro records
    refine List.filter_eq_nil_iff.mpr fun child _ => ?_
    rw [ties_iff, Json.keyIn?_eq_keyText?, missing]
    rintro ⟨key, hkey, -⟩
    cases hkey
  have nothing : l.value [] = if l.singular then .null else .arr [] := rfl
  cases entry with
  | nested inc select filter =>
    rw [included, untied]
    exact nothing
  | _ =>
    rw [included, untied, nothing]
    all_goals exact nofun

/-- **Batched loading goes row by row.** Where no batch is larger than one fetch, loading a tree leaves
each row with all its fields, and under each relation that is asked for with the records that pass the
filter of the include and hold its own key, each loaded in the same way and projected; without a key,
with none. The records stand in the order of the fetch, for the batches of every level. And if
identifiers are texts, it is what the row gets when it is loaded alone. -/
theorem load_row_by_row {maxDepth depth : Nat}
    (registered : Registry.recruiting.Registered e) (known : tree.Known .recruiting e)
    (distinct : (tree.map (·.1)).Nodup) (shallow : depth + tree.depth ≤ maxDepth)
    (objects : ∀ row ∈ rows, row.isObject = true) (found : t.FoundByText .recruiting)
    (within : t.WithinFetchTree .recruiting e rows tree) :
    let loaded := fun row => t.withIncludes .recruiting e rows row (some tree)
    load (m := Id) (t.storage .recruiting) .recruiting maxDepth depth e tree rows =
        pure (rows.map loaded) ∧
      (∀ row ∈ rows,
        (∀ name entry l target, (name, entry) ∈ tree → entry.isRequested = true →
          Registry.recruiting.link? e name = some (l, target) →
            (loaded row).get? name = some (t.included .recruiting l target rows row entry) ∧
            (row.field l.localField = .null →
              (loaded row).get? name = some (if l.singular then .null else .arr []))) ∧
        ∀ other ∉ tree.requested, (loaded row).get? other = row.get? other) ∧
      (∀ parent, Registry.recruiting.Registered parent → ∀ l ∈ parent.relations, ∀ target,
        Registry.recruiting.entity? l.target = some target → ∀ filter batch,
          (t.fetch .recruiting target
            (childQuery filter l.foreignField (keysOf l.localField batch))).rows =
              (t.candidates .recruiting l target filter batch).take childLimit ∧
          ∀ row ∈ batch, ((t.candidates .recruiting l target filter batch).filter (l.ties row)).Perm
            ((t.of target.name).filter fun child =>
              filter.all (t.passes .recruiting target · child) && l.ties row child)) ∧
      ((∀ entity, ∀ row ∈ t.of entity, row.Identified) → ∀ row ∈ rows,
        load (m := Id) (t.storage .recruiting) .recruiting maxDepth depth e tree [row] =
          pure [loaded row]) := by
  have spelled := Registry.spelled_recruiting
  intro loaded
  refine ⟨load_batch found spelled registered known shallow within, fun row shown => ⟨?_, ?_⟩,
    ?_, ?_⟩
  · intro name entry l target member wanted hlink
    have names : ((t.includes .recruiting e rows row tree).map (·.1)).Nodup :=
      (names_includes tree).nodup (distinct.sublist (List.filter_sublist.map _))
    have value : (loaded row).get? name = some (t.included .recruiting l target rows row entry) :=
      get?_withFields names (mem_includes member wanted hlink) row (objects row shown)
    refine ⟨value, fun missing => ?_⟩
    rw [value, included_of_null entry missing]
  · intro other outside
    refine get?_withFields_other (fun p member same => ?_) row
    exact outside (same ▸ (names_includes tree).mem (List.mem_map_of_mem member))
  · intro parent registered l member target ht filter batch
    refine ⟨?_, fun row shown => perm_filter_candidates filter shown⟩
    exact congrArg (List.take childLimit) (recordsOf_keysOf found spelled registered member ht batch)
  · intro identified row shown
    have fewer : ∀ other ∈ [row], other ∈ rows :=
      fun other member => List.mem_singleton.mp member ▸ shown
    rw [load_batch found spelled registered known shallow (within.fewer e tree fewer),
      List.map_singleton, ← withIncludes_alone identified e (some tree) shown]

/-- New applications with their candidates for two jobs and for one without an `id`: the candidate is
the same, the applications are told apart by their jobs. -/
theorem load_row_by_row_jobs :
    let job (id : Json) : Json := .obj [("id", id)]
    let application (id job status : String) : Json := .obj [("id", .str id), ("jobId", .str job),
      ("candidateId", .str "c"), ("status", .str status)]
    let candidate : Json := .obj [("id", .str "c"), ("firstName", .str "Ann")]
    let t : Tables := ⟨[("candidates", [candidate]),
      ("applications", [application "3" "x" "NEW", application "2" "y" "NEW",
        application "1" "x" "NEW", application "0" "x" "HIRED"])]⟩
    let tree : IncludeTree := [("applications", .nested (some [("candidate", .flag true)])
      (some [("id", true)]) (some (.equals ⟨["status"]⟩ (.text "NEW"))))]
    let rows := [job (.str "x"), job (.str "y"), job .null]
    let own (id : String) : Json := .obj [("id", .str id), ("candidate", candidate)]
    let loaded (id : Json) (applications : List Json) : Json :=
      .obj [("id", id), ("applications", .arr applications)]
    t.FoundByText .recruiting ∧ t.WithinFetchTree .recruiting Registry.jobs rows tree ∧
      load (m := Id) (t.storage .recruiting) .recruiting 1 0 Registry.jobs tree rows =
        pure [loaded (.str "x") [own "1", own "3"], loaded (.str "y") [own "2"], loaded .null []] := by
  intro job application candidate t tree rows own loaded
  have objects : t.Objects := by decide +kernel
  have keys : ∀ p ∈ Registry.recruiting, ∀ l ∈ p.2.relations,
      ∀ target ∈ Registry.recruiting.entity? l.target, ∀ row ∈ t.of target.name,
        (row.field l.foreignField).isKey = true := by decide +kernel
  have found : t.FoundByText .recruiting :=
    { objects := fun _ _ stored => objects.of stored
      foreignKeys := fun ⟨_, h⟩ l member target ht row stored =>
        keys _ (Keyed.mem_of_get? h) l member target ht row stored }
  have valid : IncludeEntry.treeProblems .recruiting Registry.jobs "" tree = [] := by decide +kernel
  have within : t.WithinFetchTree .recruiting Registry.jobs rows tree := by
    refine ⟨fun l target hlink => ?_, trivial⟩
    obtain ⟨rfl, rfl⟩ := Prod.mk.inj (Option.some.inj (hlink.symm.trans rfl))
    refine ⟨by decide +kernel, fun l target hlink => ?_, trivial⟩
    obtain ⟨rfl, rfl⟩ := Prod.mk.inj (Option.some.inj (hlink.symm.trans rfl))
    show (t.candidates _ _ _ none _).length ≤ childLimit
    decide +kernel
  obtain ⟨whole, -⟩ := load_row_by_row ⟨"jobs", rfl⟩
    (IncludeEntry.known_of_valid valid) (by decide) (show 0 + tree.depth ≤ 1 by decide) (by decide)
    found within
  have expected : (rows.map fun row => t.withIncludes .recruiting Registry.jobs rows row (some tree)) =
      [loaded (.str "x") [own "1", own "3"], loaded (.str "y") [own "2"], loaded .null []] := by
    cbv
  exact ⟨found, within, whole.trans (congrArg pure expected)⟩

end Includes

end Roster
