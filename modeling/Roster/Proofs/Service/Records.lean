import Roster.Proofs.Service.Visibility
import Roster.Proofs.Store.Columns
import Roster.Proofs.Store.Order

/-!
# The records of each row

The records of an include are fetched for all rows of a page at once, up to a limit, and then handed
out. `Tables.completeTree` says what a row should have in the end: under each relation the records that
hold its own key, each complete in turn. As long as no fetch reaches the limit (`Tables.fitsTree`) this
is what the rows of a page get, whatever other rows the page has (`loadTree_complete`). If a fetch does
reach the limit, the page is still made of the same rows, and they differ from complete ones by nothing
but what stands under the relations that were asked for (`loadTree_map`).

A record is found by its key, so keys have to be texts, and it does not matter in which company it was
sorted, since rows are sorted by their identifiers.
-/

namespace Roster

open Includes

/-! ## Fields -/

theorem Json.get?_withField {row v : Json} {name other : String} (h : other ≠ name) :
    (row.withField name v).get? other = row.get? other := by
  cases row with
  | obj fields =>
    rw [Json.withField, Json.get?, Json.fields, Keyed.get?_put, if_neg (Ne.symm h)]
    rfl
  | _ => rfl

theorem Json.get?_withField_self {row : Json} (object : row.isObject = true) (name : String)
    (v : Json) : (row.withField name v).get? name = some v := by
  obtain ⟨fields, rfl⟩ := Json.eq_obj object
  rw [withField, get?, Json.fields, Keyed.get?_put, if_pos rfl]

theorem Json.keyIn?_congr {a b : Json} {field : String} (h : a.get? field = b.get? field) :
    a.keyIn? field = b.keyIn? field := by
  rw [Json.keyIn?, h, Json.keyIn?]

/-- Rows whose keys stay as they are stay related. -/
theorem related_map {f : Json → Json} {field : String}
    (h : ∀ row, (f row).keyIn? field = row.keyIn? field) (key : Option String) (rows : List Json) :
    related key field (rows.map f) = (related key field rows).map f := by
  rw [related, related, List.filter_map]
  congr 2
  funext row
  simp only [Function.comp_apply, h]

theorem mem_keysOf {field key : String} {rows : List Json} :
    key ∈ keysOf field rows ↔ ∃ row ∈ rows, row.keyIn? field = some key := by
  rw [keysOf, List.mem_eraseDups, List.mem_filterMap]

theorem keysOf_map {f : Json → Json} {field : String}
    (h : ∀ row, (f row).keyIn? field = row.keyIn? field) (rows : List Json) :
    keysOf field (rows.map f) = keysOf field rows := by
  rw [keysOf, keysOf, List.filterMap_map]
  congr 2
  funext row
  exact h row

namespace IncludeTree

variable {r : Registry} {e : Entity} {name : String} {entry : IncludeEntry} {rest : IncludeTree}

theorem requested_cons :
    requested ((name, entry) :: rest) = (if entry.isRequested then [name] else []) ++
      rest.requested := by
  cases h : entry.isRequested <;> simp [requested, h]

theorem Known.tail (known : Known r e ((name, entry) :: rest)) : Known r e rest := by
  intro names other at_
  cases at_ with
  | here member => exact known _ _ (.here (List.mem_cons_of_mem _ member))
  | deeper member hinner lower =>
    exact known _ _ (.deeper (List.mem_cons_of_mem _ member) hinner lower)

end IncludeTree

namespace Predicate

/-! ## Two clauses -/

variable {p q : Predicate}

theorem mergeAnd_none (hq : q.isEmpty = false) : mergeAnd [none, some q] = some q := by
  simp [mergeAnd, present, compose, hq]

theorem mergeAnd_of_isEmpty (hp : p.isEmpty = true) (hq : q.isEmpty = false) :
    mergeAnd [some p, some q] = some q := by
  simp [mergeAnd, present, compose, hp, hq]

theorem mergeAnd_pair (hp : p.isEmpty = false) (hq : q.isEmpty = false) :
    mergeAnd [some p, some q] = some (.and [p, q]) := by
  simp [mergeAnd, present, compose, hp, hq]

end Predicate

theorem Json.Identified.isObject {row : Json} (h : row.Identified) : row.isObject = true := by
  obtain ⟨id, h⟩ := h
  cases row with
  | obj fields => rfl
  | _ => cases h

namespace Tables

/-! ## Complete rows -/

/-- The records that hold one of some keys. -/
def recordsOf (t : Tables) (r : Registry) (l : Relation) (target : Entity)
    (filter : Option Predicate) (keys : List String) : List Json :=
  sortRows [] (t.matching r target (childQuery filter l.foreignField keys).filter)

/-- A row with all records that it is related to, `deep` being what becomes of each of them. -/
def withRecords (t : Tables) (r : Registry) (e : Entity) (name : String) (select : Option Select)
    (inc : Option IncludeTree) (filter : Option Predicate) (deep : Entity → Json → Json)
    (row : Json) : Json :=
  match e.relation? name with
  | none => row
  | some l =>
    match r.entity? l.target with
    | none => row
    | some target =>
      let own := t.recordsOf r l target filter (row.keyIn? l.localField).toList
      row.withField l.name (l.value (own.map fun child => project (deep target child) select inc))

mutual

/-- The row with all records of one relation. -/
def completeEntry (t : Tables) (r : Registry) (maxDepth depth : Nat) (e : Entity) (name : String)
    (row : Json) : IncludeEntry → Json
  | .null => row
  | .flag wanted =>
    if wanted then t.withRecords r e name none none none (fun _ child => child) row else row
  | .nested inc select filter =>
    t.withRecords r e name select inc filter
      (fun target child => completeNested t r maxDepth (depth + 1) target child inc) row

/-- The record with all records of its own includes. -/
def completeNested (t : Tables) (r : Registry) (maxDepth depth : Nat) (e : Entity) (row : Json) :
    Option (List (String × IncludeEntry)) → Json
  | none => row
  | some tree => if maxDepth < depth then row else completeTree t r maxDepth depth e row tree

/-- The row with all records of every relation of a tree. -/
def completeTree (t : Tables) (r : Registry) (maxDepth depth : Nat) (e : Entity) (row : Json) :
    List (String × IncludeEntry) → Json
  | [] => row
  | (name, entry) :: rest =>
    completeTree t r maxDepth depth e (completeEntry t r maxDepth depth e name row entry) rest

end

/-! ## Limits -/

/-- No more records hold the keys of the rows than one fetch brings, and `below` is true of them. -/
def fitsRecords (t : Tables) (r : Registry) (e : Entity) (name : String)
    (filter : Option Predicate) (below : Entity → List Json → Prop) (rows : List Json) : Prop :=
  ∀ l target, e.relation? name = some l → r.entity? l.target = some target →
    (t.recordsOf r l target filter (keysOf l.localField rows)).length ≤ childLimit ∧
      below target (t.recordsOf r l target filter (keysOf l.localField rows))

mutual

/-- One fetch brings all records of a relation. -/
def fitsEntry (t : Tables) (r : Registry) (maxDepth depth : Nat) (e : Entity) (name : String)
    (rows : List Json) : IncludeEntry → Prop
  | .null => True
  | .flag wanted => wanted = true → t.fitsRecords r e name none (fun _ _ => True) rows
  | .nested inc _ filter =>
    t.fitsRecords r e name filter
      (fun target children => fitsNested t r maxDepth (depth + 1) target children inc) rows

/-- One fetch for each relation brings all records of the includes of a node. -/
def fitsNested (t : Tables) (r : Registry) (maxDepth depth : Nat) (e : Entity) (rows : List Json) :
    Option (List (String × IncludeEntry)) → Prop
  | none => True
  | some tree => depth ≤ maxDepth → fitsTree t r maxDepth depth e rows tree

/-- One fetch for each relation brings all records of a tree. -/
def fitsTree (t : Tables) (r : Registry) (maxDepth depth : Nat) (e : Entity) (rows : List Json) :
    List (String × IncludeEntry) → Prop
  | [] => True
  | (name, entry) :: rest =>
    fitsEntry t r maxDepth depth e name rows entry ∧ fitsTree t r maxDepth depth e rows rest

end

variable {t : Tables} {r : Registry} {e : Entity} {name : String}

/-! ## What completion leaves alone -/

theorem get?_withRecords {other : String} {select : Option Select} {inc : Option IncludeTree}
    {filter : Option Predicate} {deep : Entity → Json → Json} (h : other ≠ name) (row : Json) :
    (t.withRecords r e name select inc filter deep row).get? other = row.get? other := by
  unfold withRecords
  split
  · rfl
  · next l hl =>
    have same : l.name = name := by simpa using List.find?_some hl
    split
    · rfl
    · exact Json.get?_withField (same ▸ h)

theorem withRecords_of_none {select : Option Select} {inc : Option IncludeTree}
    {filter : Option Predicate} {deep : Entity → Json → Json} (h : e.relation? name = none)
    (row : Json) : t.withRecords r e name select inc filter deep row = row := by
  rw [withRecords, h]

theorem get?_completeEntry {maxDepth depth : Nat} {other : String} {entry : IncludeEntry}
    (h : entry.isRequested = true → other ≠ name) (row : Json) :
    (t.completeEntry r maxDepth depth e name row entry).get? other = row.get? other := by
  cases entry with
  | null => rfl
  | flag wanted =>
    rw [completeEntry]
    split
    · next wanted => exact get?_withRecords (h wanted) row
    · rfl
  | nested inc select filter => exact get?_withRecords (h rfl) row

/-- Columns stay as they are. -/
theorem get?_completeEntry_column {maxDepth depth : Nat} {column : String}
    (h : e.relation? column = none) (entry : IncludeEntry) (row : Json) :
    (t.completeEntry r maxDepth depth e name row entry).get? column = row.get? column := by
  by_cases same : column = name
  · subst same
    cases entry with
    | null => rfl
    | flag wanted => cases wanted <;> simp [completeEntry, withRecords_of_none h]
    | nested inc select filter => simp [completeEntry, withRecords_of_none h]
  · exact get?_completeEntry (fun _ => same) row

theorem get?_completeTree {maxDepth depth : Nat} {other : String} {tree : IncludeTree}
    (h : other ∉ tree.requested) (row : Json) :
    (t.completeTree r maxDepth depth e row tree).get? other = row.get? other := by
  induction tree generalizing row with
  | nil => rfl
  | cons first rest ih =>
    obtain ⟨name, entry⟩ := first
    rw [IncludeTree.requested_cons, List.mem_append, not_or] at h
    have apart : entry.isRequested = true → other ≠ name := by
      rintro wanted rfl
      exact h.1 (by simp [wanted])
    rw [completeTree, ih h.2, get?_completeEntry apart]

theorem get?_completeTree_column {maxDepth depth : Nat} {column : String}
    (h : e.relation? column = none) (tree : IncludeTree) (row : Json) :
    (t.completeTree r maxDepth depth e row tree).get? column = row.get? column := by
  induction tree generalizing row with
  | nil => rfl
  | cons first rest ih => rw [completeTree, ih, get?_completeEntry_column h]

theorem get?_completeNested {maxDepth depth : Nat} {other : String} {inc : Option IncludeTree}
    (h : other ∉ (inc.map IncludeTree.requested).getD []) (row : Json) :
    (t.completeNested r maxDepth depth e row inc).get? other = row.get? other := by
  cases inc with
  | none => rfl
  | some tree =>
    rw [completeNested]
    split
    · rfl
    · exact get?_completeTree h row

theorem get?_completeNested_column {maxDepth depth : Nat} {column : String}
    (h : e.relation? column = none) (inc : Option IncludeTree) (row : Json) :
    (t.completeNested r maxDepth depth e row inc).get? column = row.get? column := by
  cases inc with
  | none => rfl
  | some tree =>
    rw [completeNested]
    split
    · rfl
    · exact get?_completeTree_column h tree row

end Tables

/-! ## Finding records by their keys -/

namespace Tables

variable {t : Tables} {r : Registry} {e target : Entity} {l : Relation} {name : String}
  {filter : Option Predicate}

/-- Rows can be told apart and found by texts: every `id` is one, and so are the keys that relations
lead to. -/
structure TextKeyed (t : Tables) (r : Registry) : Prop where
  ids : ∀ entity, ∀ row ∈ t.of entity, row.Identified
  foreignKeys {e : Entity} : r.Registered e → ∀ l ∈ e.relations, ∀ target ∈ r.entity? l.target,
    ∀ row ∈ t.of target.name, (row.field l.foreignField).isKey = true

/-- Records are found by texts: rows are objects, and the keys that relations lead to are texts or
missing. -/
structure FoundByText (t : Tables) (r : Registry) : Prop where
  objects : ∀ entity, ∀ row ∈ t.of entity, row.isObject = true
  foreignKeys {e : Entity} : r.Registered e → ∀ l ∈ e.relations, ∀ target ∈ r.entity? l.target,
    ∀ row ∈ t.of target.name, (row.field l.foreignField).isKey = true

theorem TextKeyed.found (keyed : t.TextKeyed r) : t.FoundByText r where
  objects entity row stored := (keyed.ids entity row stored).isObject
  foreignKeys := keyed.foreignKeys

/-- A column that holds a text is one of several texts when the text is. -/
theorem accepts_oneOf {row : Json} {column : String} (object : row.isObject = true)
    (holds : (row.field column).isKey = true) (keys : List String) :
    (Predicate.operator ⟨[column]⟩ { oneOf := some (keys.map .text) }).accepts row =
      (row.keyIn? column).any keys.contains := by
  rw [Bool.eq_iff_iff, Predicate.accepts_oneOf_texts, Path.valuesIn_column object,
    Json.keyIn?_eq_keyText?]
  cases hvalue : row.field column with
  | null => simp [Json.flatten, Json.keyText?]
  | str text => simp [Json.flatten, Json.keyText?]
  | _ =>
    rw [hvalue] at holds
    cases holds

/-- The copy that a filter is evaluated on is the same beside a condition on a column. -/
theorem ofPredicate_and_column (p : Predicate) (column : String) (filter : Filter) :
    Hops.ofPredicate (.and [p, .operator ⟨[column]⟩ filter]) = Hops.ofPredicate p := by
  rw [Hops.ofPredicate, Predicate.paths, Predicate.pathsOfAll, Predicate.pathsOfAll,
    Predicate.pathsOfAll, Predicate.paths, List.append_nil, List.foldl_append]
  rfl

/-- The query for records asks for the filter, and for one of the keys. -/
theorem passes_childQuery {column : String} (spelled : Path.ofText column = ⟨[column]⟩)
    (apart : target.relation? column = none) {row : Json} (object : row.isObject = true)
    (holds : (row.field column).isKey = true) (keys : List String) :
    (childQuery filter column keys).filter.all (t.passes r target · row) =
      (filter.all (t.passes r target · row) && (row.keyIn? column).any keys.contains) := by
  have keyed : ∀ hops, (Predicate.operator ⟨[column]⟩ { oneOf := some (keys.map .text) }).accepts
      (t.embed r target row hops) = (row.keyIn? column).any keys.contains := by
    intro hops
    have same : (t.embed r target row hops).field column = row.field column :=
      field_embed_other apart hops
    rw [accepts_oneOf (isObject_embed object hops) (by rwa [same]), Json.keyIn?_eq_keyText?, same,
      Json.keyIn?_eq_keyText?]
  have query : (childQuery filter column keys).filter = Predicate.mergeAnd
      [filter, some (.operator ⟨[column]⟩ { oneOf := some (keys.map .text) })] := by
    rw [childQuery, spelled]
  rw [query]
  cases filter with
  | none =>
    rw [Predicate.mergeAnd_none rfl, Option.all_some, Option.all_none, Bool.true_and]
    exact keyed _
  | some p =>
    cases hp : p.isEmpty with
    | true =>
      have all : t.passes r target p row = true := Predicate.accepts_of_isEmpty hp _
      rw [Predicate.mergeAnd_of_isEmpty hp rfl, Option.all_some, Option.all_some, all, Bool.true_and]
      exact keyed _
    | false =>
      rw [Predicate.mergeAnd_pair hp rfl, Option.all_some, Option.all_some, passes,
        ofPredicate_and_column, Predicate.accepts_and, List.all_cons, List.all_cons, List.all_nil,
        keyed, Bool.and_true]
      rfl

/-- No record has one of no keys. -/
theorem recordsOf_nil : t.recordsOf r l target filter [] = [] := by
  have refused : ∀ v, accepts? (childQuery filter l.foreignField []).filter v = false := by
    intro v
    have keyless : (Predicate.operator (Path.ofText l.foreignField)
        { oneOf := some (List.map .text []) }).accepts v = false := by
      rw [Bool.eq_false_iff, Ne, Predicate.accepts_oneOf_texts]
      rintro ⟨key, listed, -⟩
      cases listed
    rw [childQuery, Predicate.accepts?_mergeAnd, List.all_cons, List.all_cons, accepts?, accepts?,
      Option.all_some, keyless, Bool.false_and, Bool.and_false]
  have none_ : t.matching r target (childQuery filter l.foreignField []).filter = [] := by
    rw [matching_eq]
    refine List.filter_eq_nil_iff.mpr fun row _ => ?_
    cases h : (childQuery filter l.foreignField []).filter with
    | none =>
      have all := refused row
      rw [h] at all
      exact absurd all.symm Bool.false_ne_true
    | some merged =>
      have copy := refused (t.embed r target row (Hops.ofPredicate merged))
      rw [h] at copy
      exact Bool.eq_false_iff.mp copy
  rw [recordsOf, none_]
  rfl

section Found

variable (found : t.FoundByText r) (spelled : r.Spelled) (registered : r.Registered e)
  (member : l ∈ e.relations) (ht : r.entity? l.target = some target)

include found spelled registered member ht

theorem recordsOf_eq (keys : List String) :
    t.recordsOf r l target filter keys =
      sortRows [] ((t.of target.name).filter fun row =>
        filter.all (t.passes r target · row) && (row.keyIn? l.foreignField).any keys.contains) := by
  rw [recordsOf, matching_eq]
  congr 1
  refine List.filter_congr fun row stored => ?_
  exact passes_childQuery (spelled.spelled registered member)
    (spelled.columns registered member ht).2 (found.objects _ row stored)
    (found.foreignKeys registered l member target ht row stored) keys

end Found

/-- **A row finds its records among those of a whole page.** -/
theorem related_recordsOf (keyed : t.TextKeyed r) (spelled : r.Spelled)
    (registered : r.Registered e) (member : l ∈ e.relations)
    (ht : r.entity? l.target = some target) {rows : List Json} {row : Json} (shown : row ∈ rows) :
    related (row.keyIn? l.localField) l.foreignField
        (t.recordsOf r l target filter (keysOf l.localField rows)) =
      t.recordsOf r l target filter (row.keyIn? l.localField).toList := by
  have found := keyed.found
  cases hkey : row.keyIn? l.localField with
  | none =>
    rw [Option.toList_none, recordsOf_nil]
    exact List.filter_eq_nil_iff.mpr fun _ _ => by simp
  | some key =>
    have listed : key ∈ keysOf l.localField rows := mem_keysOf.mpr ⟨row, shown, hkey⟩
    rw [recordsOf_eq found spelled registered member ht, related, filter_sortRows,
      List.filter_filter, recordsOf_eq found spelled registered member ht]
    · congr 1
      refine List.filter_congr fun child _ => ?_
      cases child.keyIn? l.foreignField with
      | none => simp
      | some other =>
        by_cases same : other = key
        · subst same
          simp [listed]
        · simp [same]
    · intro child stored
      exact keyed.ids _ child (List.mem_filter.mp stored).1

end Tables

namespace Includes

variable {t : Tables} {r : Registry} {e target : Entity} {l : Relation} {name : String}
  {filter : Option Predicate}

/-! ## Loading goes row by row -/

theorem fetchChildren_pure (t : Tables) (r : Registry) (l : Relation) (target : Entity)
    (filter : Option Predicate) (rows : List Json) :
    ∃ children, fetchChildren (m := Id) (t.storage r) l target filter rows = pure children := by
  unfold fetchChildren
  split
  · exact ⟨_, rfl⟩
  · exact ⟨_, rfl⟩

/-- Handing records out changes one field of a row. -/
theorem get?_distributed {other : String} (hname : l.name = name) (h : other ≠ name)
    (select : Option Select) (inc : Option IncludeTree) (children : List Json) (row : Json) :
    (row.withField l.name (l.value ((related (row.keyIn? l.localField) l.foreignField children).map
      fun child => project child select inc))).get? other = row.get? other :=
  Json.get?_withField (hname ▸ h)

section Load

variable (maxDepth depth : Nat)

mutual

/-- Loading one relation changes each row on its own, and nothing but what stands under it. -/
theorem loadEntry_map (t : Tables) {e target : Entity} (depth : Nat) {name : String}
    (ht : r.target? e name = some target) :
    (entry : IncludeEntry) → (∀ inner, entry.include? = some inner → inner.Known r target) →
      ∀ rows, ∃ f : Json → Json,
        loadEntry (m := Id) (t.storage r) r maxDepth depth e name rows entry = pure (rows.map f) ∧
          ∀ row other, (entry.isRequested = true → other ≠ name) →
            (f row).get? other = row.get? other
  | .null, _, rows => by
    refine ⟨id, ?_, fun _ _ _ => rfl⟩
    rw [loadEntry, List.map_id]
  | .flag false, _, rows => by
    refine ⟨id, ?_, fun _ _ _ => rfl⟩
    rw [loadEntry, List.map_id]
    rfl
  | .flag true, _, rows => by
    obtain ⟨l, -, hname, -, hlink⟩ := linkOf_eq ht
    obtain ⟨children, hchildren⟩ := fetchChildren_pure t r l target none rows
    refine ⟨_, ?_, fun row other h => get?_distributed hname (h rfl) none none children row⟩
    rw [loadEntry, if_pos rfl, hlink, pure_bind]
    dsimp only
    rw [hchildren, pure_bind]
    rfl
  | .nested inc select filter, known, rows => by
    obtain ⟨l, -, hname, -, hlink⟩ := linkOf_eq ht
    obtain ⟨children, hchildren⟩ := fetchChildren_pure t r l target filter rows
    obtain ⟨g, hg, -⟩ := loadNested_map t (depth + 1) inc known children
    refine ⟨_, ?_, fun row other h =>
      get?_distributed hname (h rfl) select inc (children.map g) row⟩
    rw [loadEntry, hlink, pure_bind]
    dsimp only
    rw [hchildren, pure_bind, hg, pure_bind]
    rfl

theorem loadNested_map (t : Tables) {e : Entity} (depth : Nat) :
    (inc : Option (List (String × IncludeEntry))) →
      (∀ inner, inc = some inner → IncludeTree.Known r e inner) →
        ∀ rows, ∃ f : Json → Json,
          loadNested (m := Id) (t.storage r) r maxDepth depth e rows inc = pure (rows.map f) ∧
            ∀ row other, other ∉ (inc.map IncludeTree.requested).getD [] →
              (f row).get? other = row.get? other
  | none, _, rows => by
    refine ⟨id, ?_, fun _ _ _ => rfl⟩
    rw [loadNested, List.map_id]
  | some tree, known, rows => by
    rw [loadNested]
    split
    · refine ⟨id, ?_, fun _ _ _ => rfl⟩
      rw [List.map_id]
    · exact loadTree_map t depth tree (known tree rfl) rows

/-- **Loading a tree changes each row on its own**, and nothing but what stands under the relations
that are asked for. -/
theorem loadTree_map (t : Tables) {e : Entity} (depth : Nat) :
    (tree : List (String × IncludeEntry)) → IncludeTree.Known r e tree →
      ∀ rows, ∃ f : Json → Json,
        loadTree (m := Id) (t.storage r) r maxDepth depth e rows tree = pure (rows.map f) ∧
          ∀ row other, other ∉ IncludeTree.requested tree → (f row).get? other = row.get? other
  | [], _, rows => by
    refine ⟨id, ?_, fun _ _ _ => rfl⟩
    rw [loadTree, List.map_id]
  | (name, entry) :: rest, known, rows => by
    obtain ⟨target, ht⟩ := known.target? List.mem_cons_self
    obtain ⟨f, hf, keptF⟩ := loadEntry_map t depth ht entry
      (fun inner hinner => known.includes List.mem_cons_self ht hinner) rows
    obtain ⟨g, hg, keptG⟩ := loadTree_map t depth rest known.tail (rows.map f)
    refine ⟨fun row => g (f row), ?_, fun row other outside => ?_⟩
    · rw [loadTree, hf, pure_bind, hg, List.map_map]
      rfl
    · rw [IncludeTree.requested_cons, List.mem_append, not_or] at outside
      rw [keptG _ _ outside.2, keptF]
      rintro wanted rfl
      exact outside.1 (by simp [wanted])

end

end Load

/-! ## Loading completes rows -/

/-- The rows have the keys of other rows. -/
def SameKeys (e : Entity) (rows others : List Json) : Prop :=
  ∀ l ∈ e.relations, keysOf l.localField rows = keysOf l.localField others

/-- A fetch that no limit cuts off brings the records of all keys. -/
theorem fetchChildren_recordsOf {rows : List Json}
    (fits : (t.recordsOf r l target filter (keysOf l.localField rows)).length ≤ childLimit) :
    fetchChildren (m := Id) (t.storage r) l target filter rows =
      pure (t.recordsOf r l target filter (keysOf l.localField rows)) := by
  unfold fetchChildren
  split
  · next none_ => rw [none_, Tables.recordsOf_nil]
  · show (pure ((t.recordsOf r l target filter (keysOf l.localField rows)).take childLimit) :
      ExceptT LoadFault Id (List Json)) = _
    rw [List.take_of_length_le fits]

/-- The records that a page hands out are those of the rows. -/
theorem distribute_recordsOf (keyed : t.TextKeyed r) (spelled : r.Spelled)
    (registered : r.Registered e) (hl : e.relation? name = some l)
    (ht : r.entity? l.target = some target) (select : Option Select) (inc : Option IncludeTree)
    (filter : Option Predicate) (deep : Entity → Json → Json)
    (kept : ∀ row, (deep target row).keyIn? l.foreignField = row.keyIn? l.foreignField)
    (rows : List Json) :
    distribute l select inc
        ((t.recordsOf r l target filter (keysOf l.localField rows)).map (deep target)) rows =
      rows.map (t.withRecords r e name select inc filter deep) := by
  have member : l ∈ e.relations := List.mem_of_find?_eq_some hl
  refine List.map_congr_left fun row shown => ?_
  rw [related_map kept, Tables.related_recordsOf keyed spelled registered member ht shown]
  simp only [Tables.withRecords, hl, ht, List.map_map]
  rfl

section Complete

variable (maxDepth : Nat)

mutual

theorem loadEntry_complete (keyed : t.TextKeyed r) (spelled : r.Spelled) {e target : Entity}
    (depth : Nat) {name : String} (registered : r.Registered e) (ht : r.target? e name = some target) :
    (entry : IncludeEntry) → (∀ inner, entry.include? = some inner → inner.Known r target) →
      ∀ {rows others}, SameKeys e rows others →
        t.fitsEntry r maxDepth depth e name others entry →
          loadEntry (m := Id) (t.storage r) r maxDepth depth e name rows entry =
            pure (rows.map fun row => t.completeEntry r maxDepth depth e name row entry)
  | .null, _, rows, _, _, _ => by
    rw [loadEntry]
    exact congrArg pure (List.map_id' rows).symm
  | .flag false, _, rows, _, _, _ => by
    rw [loadEntry]
    exact congrArg pure (List.map_id' rows).symm
  | .flag true, _, rows, others, same, fits => by
    obtain ⟨l, hl, -, ht, hlink⟩ := linkOf_eq ht
    have member : l ∈ e.relations := List.mem_of_find?_eq_some hl
    have bound := (fits rfl l target hl ht).1
    rw [← same l member] at bound
    have handed := distribute_recordsOf keyed spelled registered hl ht none none none
      (fun _ child => child) (fun _ => rfl) rows
    rw [loadEntry, if_pos rfl, hlink, pure_bind]
    dsimp only
    rw [fetchChildren_recordsOf bound, pure_bind]
    rw [List.map_id'] at handed
    exact congrArg pure handed
  | .nested inc select filter, known, rows, others, same, fits => by
    obtain ⟨l, hl, -, ht, hlink⟩ := linkOf_eq ht
    have member : l ∈ e.relations := List.mem_of_find?_eq_some hl
    obtain ⟨bound, below⟩ := fits l target hl ht
    rw [← same l member] at bound below
    have column := (spelled.columns registered member ht).2
    have handed := distribute_recordsOf keyed spelled registered hl ht select inc filter
      (fun target child => t.completeNested r maxDepth (depth + 1) target child inc)
      (fun row => Json.keyIn?_congr (Tables.get?_completeNested_column column inc row)) rows
    rw [loadEntry, hlink, pure_bind]
    dsimp only
    rw [fetchChildren_recordsOf bound, pure_bind,
      loadNested_complete keyed spelled (depth + 1) ⟨_, ht⟩ inc known (fun _ _ => rfl) below,
      pure_bind]
    exact congrArg pure handed

theorem loadNested_complete (keyed : t.TextKeyed r) (spelled : r.Spelled) {e : Entity}
    (depth : Nat) (registered : r.Registered e) :
    (inc : Option (List (String × IncludeEntry))) →
      (∀ inner, inc = some inner → IncludeTree.Known r e inner) →
        ∀ {rows others}, SameKeys e rows others →
          t.fitsNested r maxDepth depth e others inc →
            loadNested (m := Id) (t.storage r) r maxDepth depth e rows inc =
              pure (rows.map fun row => t.completeNested r maxDepth depth e row inc)
  | none, _, rows, _, _, _ => by
    rw [loadNested]
    exact congrArg pure (List.map_id' rows).symm
  | some tree, known, rows, others, same, fits => by
    rw [loadNested]
    by_cases deeper : maxDepth < depth
    · have kept : (rows.map fun row => t.completeNested r maxDepth depth e row (some tree)) =
          rows := by
        simp [Tables.completeNested, deeper]
      rw [kept]
      simp [deeper]
    · have complete := loadTree_complete keyed spelled depth registered tree (known tree rfl) same
        (fits (Nat.le_of_not_lt deeper))
      cases rows with
      | nil => rfl
      | cons row rest => simpa [Tables.completeNested, deeper] using complete

/-- **As long as no fetch reaches its limit, every row gets all its records.** -/
theorem loadTree_complete (keyed : t.TextKeyed r) (spelled : r.Spelled) {e : Entity}
    (depth : Nat) (registered : r.Registered e) :
    (tree : List (String × IncludeEntry)) → IncludeTree.Known r e tree →
      ∀ {rows others}, SameKeys e rows others →
        t.fitsTree r maxDepth depth e others tree →
          loadTree (m := Id) (t.storage r) r maxDepth depth e rows tree =
            pure (rows.map fun row => t.completeTree r maxDepth depth e row tree)
  | [], _, rows, _, _, _ => by
    rw [loadTree]
    exact congrArg pure (List.map_id' rows).symm
  | (name, entry) :: rest, known, rows, others, same, fits => by
    obtain ⟨target, ht⟩ := known.target? List.mem_cons_self
    obtain ⟨first, further⟩ := fits
    have sameKeys : SameKeys e
        (rows.map fun row => t.completeEntry r maxDepth depth e name row entry) others := by
      intro l member
      obtain ⟨found, htarget, -⟩ := spelled.links registered member
      have column := (spelled.columns registered member htarget).1
      rw [keysOf_map (fun row =>
        Json.keyIn?_congr (Tables.get?_completeEntry_column column entry row)), same l member]
    rw [loadTree, loadEntry_complete keyed spelled depth registered ht entry
      (fun inner hinner => known.includes List.mem_cons_self ht hinner) same first, pure_bind,
      loadTree_complete keyed spelled depth registered rest known.tail sameKeys further, List.map_map]
    rfl

end

end Complete

end Includes

end Roster
