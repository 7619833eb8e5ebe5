import Roster.Proofs.Service.RowByRow

/-!
# Filters and includes

A row is related to other rows in two places: the copy that a filter is evaluated on carries them
(`Tables.embed`), and an include puts them into the answer (`Includes.load`). Either compares keys by
their texts, so a number is a key as good as any. But an include asks the storage for its records
first, by a query for the texts of the keys, and there a text equals nothing but a text
(`Tables.finds_iff_text`). So the two agree on the records whose own key is a text, and a record with
a number or a boolean as its key is seen by filters alone (`Includes.embeds_iff_loads`).
-/

namespace Roster

open Includes

/-- The value is neither an array nor an object. -/
def Json.isScalar : Json → Bool
  | .arr _ => false
  | .obj _ => false
  | _ => true

/-- The value of the field is a text. -/
def Json.HoldsText (row : Json) (field : String) : Prop := ∃ text, row.field field = .str text

theorem Json.flatten_of_isScalar {v : Json} (h : v.isScalar = true) : v.flatten = [v] := by
  cases v with
  | arr items => cases h
  | _ => rfl

theorem Json.field_withField {row : Json} (object : row.isObject = true) (name : String)
    (v : Json) : (row.withField name v).field name = v := by
  rw [field, get?_withField_self object, Option.getD_some]

namespace Tables

/-- The record passes the query for the records of some keys. -/
def finds (t : Tables) (r : Registry) (l : Relation) (target : Entity) (keys : List String)
    (child : Json) : Bool :=
  (childQuery none l.foreignField keys).filter.all (t.passes r target · child)

/-- No two rows have one value, other than null, in the field. -/
def Unique (t : Tables) (entity field : String) : Prop :=
  ∀ a ∈ t.of entity, ∀ b ∈ t.of entity,
    a.field field = b.field field → a.field field ≠ .null → a = b

variable {t : Tables} {r : Registry} {e target : Entity} {l : Relation} {rows : List Json}
  {row child : Json}

/-! ## What a filter sees -/

theorem linked_eq_filter : t.linked l target row = (t.of target.name).filter (l.ties row) := rfl

/-- A copy for one hop has the related rows as they are. -/
theorem field_embed_hop (object : row.isObject = true) (hl : e.relation? l.name = some l)
    (ht : r.entity? l.target = some target) :
    (t.embed r e row (.node [(l.name, .none)])).field l.name = l.value (t.linked l target row) := by
  have ordered : Keyed.Ordered [(l.name, Hops.none)] := List.pairwise_singleton _ _
  rw [field_embed object hl ht ordered (if_pos rfl)]
  simp only [embed_none, List.map_id']

/-! ## What an include finds -/

/-- The records that an include hands to a row are the related rows that its query finds. -/
theorem perm_own (target : Entity) (keys : List String) (row : Json) :
    ((t.recordsOf r l target none keys).filter (l.ties row)).Perm
      ((t.linked l target row).filter (t.finds r l target keys)) := by
  refine ((sortRows_perm [] _).filter _).trans (.of_eq ?_)
  rw [matching_eq, linked_eq_filter, List.filter_filter, List.filter_filter]
  exact List.filter_congr fun child _ => Bool.and_comm _ _

/-- On a column the query for some keys finds the records whose value is the text of one of them. -/
theorem finds_iff {keys : List String} (plain : Path.ofText l.foreignField = ⟨[l.foreignField]⟩)
    (object : child.isObject = true) (scalar : (child.field l.foreignField).isScalar = true) :
    t.finds r l target keys child = true ↔
      ∃ key ∈ keys, child.field l.foreignField = .str key := by
  have column : ∀ path ∈ (Predicate.operator ⟨[l.foreignField]⟩
      { oneOf := some (keys.map .text) }).paths, path.relations = [] := by
    intro path listed
    rw [List.mem_singleton.mp listed]
    rfl
  rw [finds, childQuery, plain, Predicate.mergeAnd_none rfl, Option.all_some,
    passes_of_columns column, Predicate.accepts_oneOf_texts, Path.valuesIn_column object,
    Json.flatten_of_isScalar scalar]
  simp only [List.mem_singleton, eq_comm]

theorem mem_linked_iff :
    child ∈ t.linked l target row ↔ child ∈ t.of target.name ∧
      ∃ key, row.keyIn? l.localField = some key ∧ child.keyIn? l.foreignField = some key := by
  rw [linked_eq_filter, List.mem_filter, ties_iff]

/-- A record that holds a text as its key holds the text of the key. -/
theorem key_of_text {key text : String} (held : child.keyIn? l.foreignField = some key)
    (written : child.field l.foreignField = .str text) : text = key := by
  rw [Json.keyIn?_eq_keyText?, written] at held
  exact Option.some.inj held

/-- **Among the rows that a row is related to, the query of a batch finds those whose key is a text.** -/
theorem finds_iff_text (plain : Path.ofText l.foreignField = ⟨[l.foreignField]⟩)
    (shown : row ∈ rows) (related : child ∈ t.linked l target row)
    (scalar : (child.field l.foreignField).isScalar = true) :
    t.finds r l target (keysOf l.localField rows) child = true ↔
      child.HoldsText l.foreignField := by
  rw [finds_iff plain (isObject_of_linked related) scalar]
  constructor
  · rintro ⟨key, -, written⟩
    exact ⟨key, written⟩
  · rintro ⟨text, written⟩
    obtain ⟨-, key, hkey, held⟩ := mem_linked_iff.mp related
    obtain rfl := key_of_text held written
    exact ⟨text, mem_keysOf.mpr ⟨row, shown, hkey⟩, written⟩

/-- Where keys are unique, a row is related to at most one row whose key is a text. -/
theorem eq_of_linked {a b : Json} (unique : t.Unique target.name l.foreignField)
    (ha : a ∈ t.linked l target row) (hb : b ∈ t.linked l target row)
    (textA : a.HoldsText l.foreignField) (textB : b.HoldsText l.foreignField) : a = b := by
  obtain ⟨s, writtenA⟩ := textA
  obtain ⟨u, writtenB⟩ := textB
  obtain ⟨storedA, key, hkey, heldA⟩ := mem_linked_iff.mp ha
  obtain ⟨storedB, other, hother, heldB⟩ := mem_linked_iff.mp hb
  obtain rfl := Option.some.inj (hkey.symm.trans hother)
  obtain rfl := key_of_text heldA writtenA
  obtain rfl := key_of_text heldB writtenB
  refine unique a storedA b storedB (writtenA.trans writtenB.symm) ?_
  rw [writtenA]
  exact nofun

end Tables

namespace Includes

variable {t : Tables} {r : Registry} {e target : Entity} {l : Relation} {rows : List Json}
  {row : Json} {maxDepth depth : Nat}

/-- A plain entry that one fetch answers hands to each row the records that hold its key. -/
theorem load_flag (hl : e.relation? l.name = some l) (ht : r.entity? l.target = some target)
    (within : (t.recordsOf r l target none (keysOf l.localField rows)).length ≤ childLimit)
    (shallow : depth ≤ maxDepth) :
    load (m := Id) (t.storage r) r maxDepth depth e [(l.name, .flag true)] rows =
      pure (rows.map fun row => row.withField l.name
        (l.value ((t.recordsOf r l target none (keysOf l.localField rows)).filter (l.ties row)))) := by
  have linked : linkOf (m := Id) r e l.name = pure (l, target) :=
    Tables.linkOf_of_link? (Tables.link?_eq_some_iff.mpr ⟨hl, ht⟩)
  have unprojected : (fun child : Json => project child none none) = id := rfl
  rw [load, if_neg (Nat.not_lt.mpr shallow), loadTree, loadEntry, if_pos rfl, linked, pure_bind]
  dsimp only
  rw [fetchChildren_recordsOf within, pure_bind, pure_bind, loadTree, distribute, unprojected]
  simp only [Tables.related_eq_filter, List.map_id]

section Agree

variable {linked own : List Json} {found : Json → Bool} {text : Json → Prop}

/-- To many records: what a filter sees is given if all of it is found. -/
theorem agree_many (many : l.singular = false) (perm : own.Perm (linked.filter found))
    (found_iff : ∀ child ∈ linked, found child = true ↔ text child) :
    (∀ child, child ∈ (l.value linked).flatten ↔ child ∈ (l.value own).flatten) ↔
      ∀ child ∈ (l.value linked).flatten, text child := by
  have all : ∀ rows : List Json, (l.value rows).flatten = rows := by
    intro rows
    rw [Relation.value, many]
    rfl
  simp only [all, perm.mem_iff, List.mem_filter, iff_self_and]
  exact forall₂_congr found_iff

/-- To one record: what a filter sees is given if it is found, and nothing else is. -/
theorem agree_one (one : l.singular = true) (perm : own.Perm (linked.filter found))
    (found_iff : ∀ child ∈ linked, found child = true ↔ text child)
    (objects : ∀ child ∈ linked, child.isObject = true)
    (alike : ∀ a ∈ linked, ∀ b ∈ linked, text a → text b → a = b) :
    l.value linked = l.value own ↔ l.value linked = .null ∨ text (l.value linked) := by
  have first : ∀ rows : List Json, l.value rows = rows.headD .null := by
    intro rows
    rw [Relation.value, if_pos one]
  simp only [first]
  cases linked with
  | nil =>
    rw [List.filter_nil, List.perm_nil] at perm
    rw [perm]
    exact iff_of_true rfl (.inl rfl)
  | cons child rest =>
    have listed : child ∈ child :: rest := List.mem_cons_self
    have present : child ≠ .null := by
      rintro rfl
      cases objects .null listed
    rw [List.headD_cons, or_iff_right present, ← found_iff child listed]
    constructor
    · intro same
      cases own with
      | nil => exact absurd same present
      | cons head others =>
        obtain rfl : child = head := same
        exact (List.mem_filter.mp (perm.mem_iff.mp List.mem_cons_self)).2
    · intro hchild
      have mine : child ∈ own := perm.mem_iff.mpr (List.mem_filter.mpr ⟨listed, hchild⟩)
      cases own with
      | nil => cases mine
      | cons head others =>
        obtain ⟨known, hhead⟩ := List.mem_filter.mp (perm.mem_iff.mp List.mem_cons_self)
        exact alike child listed head known ((found_iff child listed).mp hchild)
          ((found_iff head known).mp hhead)

end Agree

/-- **An include and a filter agree on the records whose keys are texts.** For every registry, a plain
entry that one fetch answers gives each row those related rows that its query finds, while the copy for
a filter has all of them. Where the foreign field is one name and holds scalars, the two have the same
records to many exactly if the keys of all that the filter sees are texts; to one, with unique keys,
exactly if the filter sees none or one whose key is a text. -/
theorem embeds_iff_loads (hl : e.relation? l.name = some l) (ht : r.entity? l.target = some target)
    (objects : ∀ row ∈ rows, row.isObject = true)
    (within : (t.recordsOf r l target none (keysOf l.localField rows)).length ≤ childLimit)
    (shallow : depth ≤ maxDepth) :
    ∃ loaded : Json → Json,
      load (m := Id) (t.storage r) r maxDepth depth e [(l.name, .flag true)] rows =
          pure (rows.map loaded) ∧
        ∀ row ∈ rows,
          let seen := (t.embed r e row (.node [(l.name, .none)])).field l.name
          let given := (loaded row).field l.name
          seen = l.value (t.linked l target row) ∧
          (∃ own, given = l.value own ∧ own.Perm ((t.linked l target row).filter
            (t.finds r l target (keysOf l.localField rows)))) ∧
          (Path.ofText l.foreignField = ⟨[l.foreignField]⟩ →
            (∀ child ∈ t.of target.name, (child.field l.foreignField).isScalar = true) →
              (l.singular = false →
                ((∀ child, child ∈ seen.flatten ↔ child ∈ given.flatten) ↔
                  ∀ child ∈ seen.flatten, child.HoldsText l.foreignField)) ∧
              (l.singular = true → t.Unique target.name l.foreignField →
                (seen = given ↔ seen = .null ∨ seen.HoldsText l.foreignField))) := by
  refine ⟨_, load_flag hl ht within shallow, fun row shown => ?_⟩
  have sees := Tables.field_embed_hop (t := t) (objects row shown) hl ht
  have gives := Json.field_withField (objects row shown) l.name
    (l.value ((t.recordsOf r l target none (keysOf l.localField rows)).filter (l.ties row)))
  have perm := Tables.perm_own (t := t) (r := r) (l := l) target (keysOf l.localField rows) row
  intro seen given
  refine ⟨sees, ⟨_, gives, perm⟩, fun plain scalars => ?_⟩
  have found : ∀ child ∈ t.linked l target row,
      (t.finds r l target (keysOf l.localField rows) child = true ↔
        child.HoldsText l.foreignField) := fun child related =>
    Tables.finds_iff_text plain shown related (scalars child (Tables.mem_linked_iff.mp related).1)
  rw [show seen = _ from sees, show given = _ from gives]
  refine ⟨fun many => agree_many many perm found, fun one unique => ?_⟩
  exact agree_one one perm found (fun _ => Tables.isObject_of_linked)
    fun a ha b hb => Tables.eq_of_linked unique ha hb

/-- Applications for two jobs, one job with a text as its `id` and one with a number: the include agrees
with a filter on the first job and misses the application for the second. -/
theorem embeds_iff_loads_jobs :
    let job (id : Json) : Json := .obj [("id", id)]
    let application (id : String) (job : Json) : Json := .obj [("id", .str id), ("jobId", job)]
    let t : Tables :=
      ⟨[("applications", [application "1" (.str "x"), application "2" (.ofInt 5)])]⟩
    let seen (row : Json) : List Json := ((t.embed .recruiting Registry.jobs row
      (.node [("applications", .none)])).field "applications").flatten
    ∃ loaded : Json → Json,
      load (m := Id) (t.storage .recruiting) .recruiting 1 0 Registry.jobs
          [("applications", .flag true)] [job (.str "x"), job (.ofInt 5)] =
        pure [loaded (job (.str "x")), loaded (job (.ofInt 5))] ∧
      (∀ child, child ∈ seen (job (.str "x")) ↔
        child ∈ ((loaded (job (.str "x"))).field "applications").flatten) ∧
      ¬ ∀ child, child ∈ seen (job (.ofInt 5)) ↔
        child ∈ ((loaded (job (.ofInt 5))).field "applications").flatten := by
  intro job application t seen
  obtain ⟨loaded, whole, each⟩ := embeds_iff_loads (t := t) (r := .recruiting) (e := Registry.jobs)
    (l := ⟨"applications", "applications", "id", "jobId", false⟩)
    rfl rfl (show ∀ row ∈ [job (.str "x"), job (.ofInt 5)], row.isObject = true by decide)
    (by decide +kernel) (show 0 ≤ 1 by decide)
  have scalars : ∀ child ∈ t.of "applications", (child.field "jobId").isScalar = true := by decide
  obtain ⟨-, -, first⟩ := each (job (.str "x")) (by simp)
  obtain ⟨-, -, second⟩ := each (job (.ofInt 5)) (by simp)
  refine ⟨loaded, whole, ((first (by decide) scalars).1 rfl).mpr fun child shown => ?_,
    fun same => ?_⟩
  · obtain rfl : child = application "1" (.str "x") := List.mem_singleton.mp shown
    exact ⟨"x", rfl⟩
  · obtain ⟨text, written⟩ := ((second (by decide) scalars).1 rfl).mp same
      (application "2" (.ofInt 5)) (List.mem_singleton_self _)
    cases written

/-- A filter sees the application for a job whose `id` is a number; its include has none. -/
theorem loads_none_of_number :
    let job : Json := .obj [("id", .ofInt 5)]
    let application : Json := .obj [("id", .str "2"), ("jobId", .ofInt 5)]
    let t : Tables := ⟨[("applications", [application])]⟩
    t.embed .recruiting Registry.jobs job (.node [("applications", .none)]) =
        .obj [("id", .ofInt 5), ("applications", .arr [application])] ∧
      load (m := Id) (t.storage .recruiting) .recruiting 1 0 Registry.jobs
          [("applications", .flag true)] [job] =
        pure [.obj [("id", .ofInt 5), ("applications", .arr [])]] := by
  intro job application t
  have none_ : t.recordsOf .recruiting ⟨"applications", "applications", "id", "jobId", false⟩
      Registry.applications none (keysOf "id" [job]) = [] :=
    List.isEmpty_iff.mp (by decide +kernel)
  have within := Nat.zero_le childLimit
  rw [← List.length_nil, ← none_] at within
  have loaded := load_flag (e := Registry.jobs) rfl rfl within (show 0 ≤ 1 by decide)
  rw [none_] at loaded
  exact ⟨rfl, loaded⟩

end Includes

end Roster
