import Mathlib.Data.List.Basic
import Mathlib.Data.List.Nodup
import Roster.Proofs.Keyed
import Roster.Proofs.Predicate.Leaves
import Roster.Proofs.Schema.Resolve
import Roster.Store.Memory

/-!
# What a path reaches in tables

Tables evaluate a predicate on a copy of the row that carries related rows. Here is the same without
the copy: `Tables.reach` follows a path from row to row, along the keys that relate them. What a
path finds on the copy is what it reaches in the tables, for every copy that carries the relations
of the path (`Tables.valuesIn_embed`), so the tree of relations that a copy was made for can be
forgotten.
-/

namespace Roster

/-! ## Trees of relations -/

namespace Hops

/-- The names at each step of the tree are in increasing order. -/
inductive Tidy : Hops → Prop
  | node {children : Keyed Hops} :
      children.Ordered → (∀ p ∈ children, Tidy p.2) → Tidy (.node children)

/-- There is a way through the tree along the names. -/
def Covers : Hops → List String → Prop
  | _, [] => True
  | h, name :: rest => ∃ below, h.children.get? name = some below ∧ below.Covers rest

theorem tidy_none : none.Tidy := .node .nil nofun

theorem Tidy.insert {names : List String} : ∀ {h : Hops}, h.Tidy → (h.insert names).Tidy := by
  induction names with
  | nil => exact fun tidy => tidy
  | cons name rest ih =>
    rintro _ ⟨ordered, below⟩
    rename_i children
    refine .node (ordered.putSorted _ _) fun p hp => ?_
    rcases Keyed.mem_putSorted hp with rfl | hp
    · refine ih ?_
      cases hget : Keyed.get? children name with
      | none => rw [Hops.children, hget]; exact tidy_none
      | some h => rw [Hops.children, hget]; exact below _ (Keyed.mem_of_get? hget)
    · exact below p hp

/-- The way that is inserted is there. -/
theorem covers_insert (names : List String) : ∀ h : Hops, (h.insert names).Covers names := by
  induction names with
  | nil => exact fun _ => trivial
  | cons name rest ih =>
    intro h
    let below := (Keyed.get? h.children name).getD none
    refine ⟨below.insert rest, ?_, ih below⟩
    rw [Hops.insert, Hops.children, Keyed.get?_putSorted, if_pos rfl]

/-- A way that was there stays. -/
theorem Covers.insert {names : List String} : ∀ {h : Hops} {other : List String},
    h.Covers other → (h.insert names).Covers other := by
  induction names with
  | nil => exact fun covers => covers
  | cons name rest ih =>
    intro h other covers
    cases other with
    | nil => trivial
    | cons first others =>
      obtain ⟨below, hbelow, hothers⟩ := covers
      by_cases same : name = first
      · subst same
        refine ⟨below.insert rest, ?_, ih hothers⟩
        rw [Hops.insert, Hops.children, Keyed.get?_putSorted, if_pos rfl, hbelow, Option.getD_some]
      · refine ⟨below, ?_, hothers⟩
        rwa [Hops.insert, Hops.children, Keyed.get?_putSorted, if_neg same]

theorem tidy_ofPredicate (p : Predicate) : (ofPredicate p).Tidy := by
  have fold : ∀ (paths : List Path) (h : Hops), h.Tidy →
      (paths.foldl (fun h path => h.insert path.relations) h).Tidy := by
    intro paths
    induction paths with
    | nil => exact fun _ tidy => tidy
    | cons path rest ih => exact fun h tidy => ih _ tidy.insert
  exact fold p.paths none tidy_none

/-- The tree of a predicate has a way along each of its paths. -/
theorem covers_ofPredicate {p : Predicate} {path : Path} (mem : path ∈ p.paths) :
    (ofPredicate p).Covers path.relations := by
  have fold : ∀ (paths : List Path) (h : Hops),
      h.Covers path.relations ∨ path ∈ paths →
        (paths.foldl (fun h path => h.insert path.relations) h).Covers path.relations := by
    intro paths
    induction paths with
    | nil => exact fun h covers => covers.resolve_right (by simp)
    | cons first rest ih =>
      rintro h (covers | member)
      · exact ih _ (.inl covers.insert)
      · rcases List.mem_cons.mp member with rfl | member
        · exact ih _ (.inl (covers_insert _ _))
        · exact ih _ (.inr member)
  exact fold p.paths none (.inr mem)

end Hops

/-! ## Objects -/

/-- The value is an object. -/
def Json.isObject : Json → Bool
  | .obj _ => true
  | _ => false

theorem Json.eq_obj {v : Json} (h : v.isObject = true) : ∃ fields, v = .obj fields := by
  cases v with
  | obj fields => exact ⟨fields, rfl⟩
  | _ => cases h

theorem Json.flatten_of_isObject {v : Json} (h : v.isObject = true) : v.flatten = [v] := by
  obtain ⟨fields, rfl⟩ := Json.eq_obj h
  rfl

theorem Json.isNull_of_isObject {v : Json} (h : v.isObject = true) : v.isNull = false := by
  obtain ⟨fields, rfl⟩ := Json.eq_obj h
  rfl

/-- The value is one that relations go along: a text, or null. -/
def Json.isKey : Json → Bool
  | .null => true
  | .str _ => true
  | _ => false

theorem Json.keyIn?_eq_keyText? (row : Json) (field : String) :
    row.keyIn? field = keyText? (row.field field) := by
  rw [keyIn?, Json.field]
  cases row.get? field <;> rfl

/-! ## Steps -/

theorem stepInto_eq_flatMap (name : String) (values : List Json) :
    stepInto name values = values.flatMap fun v => stepInto name [v] := by
  simp [stepInto]

theorem stepInto_of_isObject {v : Json} (h : v.isObject = true) (name : String) :
    stepInto name [v] = [v.field name] := by
  rw [stepInto, List.flatMap_singleton, Json.flatten_of_isObject h, List.map_singleton]

/-- A missing record on the way contributes nothing. -/
theorem walk_step (name next : String) (others : List String) (values : List Json) :
    walk (name :: next :: others) values =
      walk (next :: others) ((stepInto name values).filter fun v => !v.isNull) := rfl

/-- A walk goes from each value on its own. -/
theorem walk_eq_flatMap (segments : List String) :
    ∀ values : List Json, walk segments values = values.flatMap fun v => walk segments [v] := by
  induction segments with
  | nil => intro values; simp [walk]
  | cons name rest ih =>
    intro values
    cases rest with
    | nil => rw [walk, stepInto_eq_flatMap]; rfl
    | cons next others =>
      rw [walk_step, ih, stepInto_eq_flatMap, List.filter_flatMap, List.flatMap_assoc]
      refine List.flatMap_congr fun v _ => ?_
      rw [walk_step, ih]

/-- The first step of a walk takes an array apart. -/
theorem walk_singleton_of_isObject {segments : List String} (h : segments ≠ []) {v : Json}
    (items : ∀ w ∈ v.flatten, w.isObject = true) :
    walk segments [v] = walk segments v.flatten := by
  have first : ∀ name, stepInto name [v] = stepInto name v.flatten := by
    intro name
    have apart : v.flatten.flatMap Json.flatten = v.flatten := by
      rw [List.flatMap_congr fun w hw => Json.flatten_of_isObject (items w hw),
        List.flatMap_singleton']
    calc
      stepInto name [v] = v.flatten.map (·.field name) := List.flatMap_singleton _ v
      _ = (v.flatten.flatMap Json.flatten).map (·.field name) := by rw [apart]
      _ = stepInto name v.flatten := List.map_flatMap
  cases segments with
  | nil => exact absurd rfl h
  | cons name rest =>
    cases rest with
    | nil => rw [walk, walk, first]
    | cons next others => rw [walk_step, walk_step, first]

/-! ## Related rows -/

/-- The related rows that a relation stands for: the first one or all. -/
def Relation.picked (l : Relation) (rows : List Json) : List Json :=
  if l.singular then rows.take 1 else rows

theorem Relation.mem_of_mem_picked {l : Relation} {rows : List Json} {row : Json}
    (h : row ∈ l.picked rows) : row ∈ rows := by
  unfold picked at h
  split at h
  · exact List.mem_of_mem_take h
  · exact h

/-- Rows with distinct keys have at most one among them that is related to a row. -/
theorem length_related_le_one {rows : List Json} {field : String}
    (unique : (rows.filterMap (·.keyIn? field)).Nodup) (key : Option String) :
    (related key field rows).length ≤ 1 := by
  cases key with
  | none => simp [related]
  | some key =>
    have count : (related (some key) field rows).length =
        (rows.filterMap (·.keyIn? field)).count key := by
      rw [related, ← List.countP_eq_length_filter, List.count_filterMap]
      rfl
    rw [count]
    exact List.nodup_iff_count_le_one.mp unique key

/-- A walk through the value of a relation goes on from the rows that it stands for. -/
theorem walk_value {segments : List String} (h : segments ≠ []) (l : Relation) {rows : List Json}
    (objects : ∀ row ∈ rows, row.isObject = true) :
    walk segments ([l.value rows].filter fun v => !v.isNull) =
      (l.picked rows).flatMap fun row => walk segments [row] := by
  cases hl : l.singular with
  | true =>
    cases rows with
    | nil => simp [Relation.value, Relation.picked, hl, Json.isNull, walk_eq_flatMap segments []]
    | cons row rest =>
      simp [Relation.value, Relation.picked, hl, Json.isNull_of_isObject (objects row (by simp))]
  | false =>
    have apart := walk_singleton_of_isObject h (v := .arr rows) objects
    simpa [Relation.value, Relation.picked, hl, Json.isNull, Json.flatten] using
      apart.trans (walk_eq_flatMap segments rows)

namespace Tables

variable {t : Tables} {r : Registry} {e : Entity}

/-- All rows are objects. -/
def Objects (t : Tables) : Prop := ∀ p ∈ t.rows, ∀ row ∈ p.2, row.isObject = true

instance (t : Tables) : Decidable t.Objects :=
  inferInstanceAs (Decidable (∀ p ∈ t.rows, ∀ row ∈ p.2, row.isObject = true))

theorem Objects.of (objects : t.Objects) {entity : String} {row : Json} (h : row ∈ t.of entity) :
    row.isObject = true := by
  rw [Tables.of] at h
  cases hrows : t.rows.get? entity with
  | none => rw [hrows] at h; cases h
  | some rows => rw [hrows] at h; exact objects _ (Keyed.mem_of_get? hrows) row h

/-- The rows of the target that a row is related to. -/
def linked (t : Tables) (l : Relation) (target : Entity) (row : Json) : List Json :=
  related (row.keyIn? l.localField) l.foreignField (t.of target.name)

/-- A row is related by a key in a field, so it has fields. -/
theorem isObject_of_linked {l : Relation} {target : Entity} {row child : Json}
    (h : child ∈ t.linked l target row) : child.isObject = true := by
  obtain ⟨keyed, same⟩ := Bool.and_eq_true_iff.mp (List.mem_filter.mp h).2
  rw [← beq_iff_eq.mp same] at keyed
  cases child with
  | obj fields => rfl
  | _ => cases keyed

/-- The values that segments reach from a row, arrays taken apart. -/
def reach (t : Tables) (r : Registry) (e : Entity) : List String → Json → List Json
  | [], row => row.flatten
  | [leaf], row => (row.field leaf).flatten
  | hop :: next :: rest, row =>
    match e.relation? hop with
    | some l =>
      match r.entity? l.target with
      | some target => (l.picked (t.linked l target row)).flatMap (t.reach r target (next :: rest))
      | none => []
    | none => []

/-! ## Copies that carry related rows -/

theorem isObject_embed {row : Json} (h : row.isObject = true) (hops : Hops) :
    (t.embed r e row hops).isObject = true := by
  obtain ⟨fields, rfl⟩ := Json.eq_obj h
  cases hops
  rfl

/-- The rows that a copy carries are objects. -/
theorem isObject_of_copied {l : Relation} {target : Entity} {row : Json} (hops : Hops) :
    ∀ child ∈ (t.linked l target row).map fun child => t.embed r target child hops,
      child.isObject = true :=
  List.forall_mem_map.mpr fun _ member => isObject_embed (isObject_of_linked member) hops

/-- Other names than those of the carried relations are left alone. -/
theorem get?_embedFields_other {row : Json} {name : String} (children : List (String × Hops))
    (other : r.target? e name = none ∨ Keyed.get? children name = none) :
    ∀ fields : Keyed Json,
      (t.embedFields r e row fields children).get? name = fields.get? name := by
  induction children with
  | nil => exact fun _ => rfl
  | cons first rest ih =>
    obtain ⟨first, hops⟩ := first
    intro fields
    have apart : r.target? e first = none ∨ first ≠ name := by
      rcases other with none | absent
      · by_cases same : first = name
        · exact .inl (same ▸ none)
        · exact .inr same
      · refine .inr fun same => ?_
        simp [Keyed.get?, same] at absent
    have tail : r.target? e name = none ∨ Keyed.get? rest name = none := by
      refine other.imp_right fun absent => ?_
      rw [Keyed.get?] at absent
      split at absent
      · cases absent
      · exact absent
    rw [embedFields, ih tail]
    cases hl : e.relation? first with
    | none => rfl
    | some l =>
      cases ht : r.entity? l.target with
      | none => simp [ht]
      | some target =>
        have distinct : first ≠ name := apart.resolve_left (by simp [Registry.target?, hl, ht])
        simp [ht, Keyed.get?_put, distinct]

/-- A relation that is carried has its related rows as its value. -/
theorem get?_embedFields {row : Json} {name : String} {below : Hops} {l : Relation}
    {target : Entity} (hl : e.relation? name = some l) (ht : r.entity? l.target = some target) :
    ∀ (children : Keyed Hops) (fields : Keyed Json), children.Ordered →
      children.get? name = some below →
        (t.embedFields r e row fields children).get? name =
          some (l.value
            ((t.linked l target row).map fun child => t.embed r target child below)) := by
  intro children
  induction children with
  | nil => exact fun _ _ h => nomatch h
  | cons first rest ih =>
    obtain ⟨first, hops⟩ := first
    intro fields ordered h
    rw [embedFields]
    rw [Keyed.get?] at h
    split at h
    · next same =>
      subst same
      obtain rfl := Option.some.inj h
      rw [get?_embedFields_other rest (.inr ordered.get?_tail)]
      simp [hl, ht, Keyed.get?_put, linked]
    · exact ih _ ordered.tail h

theorem field_embed_absent {row : Json} {name : String} {children : Keyed Hops}
    (other : r.target? e name = none ∨ children.get? name = none) :
    (t.embed r e row (.node children)).field name = row.field name := by
  cases row with
  | obj fields =>
    rw [Json.field, Json.get?, Json.field, Json.get?, embed]
    exact congrArg (·.getD .null) (get?_embedFields_other children other fields)
  | _ => rfl

theorem field_embed_other {row : Json} {name : String} (h : e.relation? name = none)
    (hops : Hops) : (t.embed r e row hops).field name = row.field name := by
  cases hops with
  | node children => exact field_embed_absent (.inl (by simp [Registry.target?, h]))

theorem field_embed {row : Json} {name : String} {children : Keyed Hops} {below : Hops}
    {l : Relation} {target : Entity} (object : row.isObject = true)
    (hl : e.relation? name = some l) (ht : r.entity? l.target = some target)
    (ordered : children.Ordered) (h : children.get? name = some below) :
    (t.embed r e row (.node children)).field name =
      l.value ((t.linked l target row).map fun child => t.embed r target child below) := by
  obtain ⟨fields, rfl⟩ := Json.eq_obj object
  rw [embed, Json.field, Json.get?, Json.fields, get?_embedFields hl ht children fields ordered h,
    Option.getD_some]

/-! ## Reaching on a copy and in the tables -/

theorem picked_map (l : Relation) (f : Json → Json) (rows : List Json) :
    l.picked (rows.map f) = (l.picked rows).map f := by
  unfold Relation.picked
  split
  · rw [List.map_take]
  · rfl

/-- **What a walk finds on a copy is what it reaches in the tables**, if the copy carries the
relations on the way and the last name is no relation where the way ends. -/
theorem walk_embed (segments : List String) :
    ∀ {e owner : Entity} {row : Json} {hops : Hops}, row.isObject = true → hops.Tidy →
      hops.Covers segments.dropLast → segments ≠ [] →
        r.follow e segments.dropLast = .ok owner → owner.relation? (segments.getLastD "") = none →
          (walk segments [t.embed r e row hops]).flatMap Json.flatten =
            t.reach r e segments row := by
  induction segments with
  | nil => exact fun _ _ _ h => absurd rfl h
  | cons name rest ih =>
    intro e owner row hops object tidy covers _ hfollow column
    cases rest with
    | nil =>
      obtain rfl : e = owner := Except.ok.inj hfollow
      have step : stepInto name [t.embed r e row hops] = [row.field name] := by
        rw [stepInto_of_isObject (isObject_embed object hops),
          field_embed_other (show e.relation? name = none from column)]
      rw [walk, step, reach, List.flatMap_singleton]
    | cons next others =>
      obtain ⟨below, hbelow, hcovers⟩ := covers
      cases tidy with | @node children ordered tidyBelow => ?_
      rw [List.dropLast_cons_of_ne_nil (List.cons_ne_nil _ _)] at hfollow
      obtain ⟨target, htarget, hfollow⟩ := Registry.follow_of_cons hfollow
      obtain ⟨l, hl, ht⟩ := Option.bind_eq_some_iff.mp htarget
      have value := field_embed (t := t) object hl ht ordered hbelow
      have step : stepInto name [t.embed r e row (.node children)] =
          [l.value ((t.linked l target row).map fun child => t.embed r target child below)] := by
        rw [stepInto_of_isObject (isObject_embed object _), value]
      rw [walk_step, step, walk_value (List.cons_ne_nil _ _) l, picked_map, List.flatMap_map,
        List.flatMap_assoc, reach, hl]
      · simp only [ht]
        refine List.flatMap_congr fun child h => ?_
        exact ih (isObject_of_linked (Relation.mem_of_mem_picked h))
          (tidyBelow _ (Keyed.mem_of_get? hbelow)) hcovers (List.cons_ne_nil _ _) hfollow column
      · exact isObject_of_copied below

variable {row : Json} {hops : Hops}

theorem valuesIn_embed {path : Path} {owner : Entity} {field : Field}
    (object : row.isObject = true) (tidy : hops.Tidy) (covers : hops.Covers path.relations)
    (h : r.resolve e path = .ok (owner, field)) (apart : owner.Apart) :
    path.valuesIn (t.embed r e row hops) = t.reach r e path.segments row := by
  obtain ⟨nonempty, hfollow, hfield⟩ := Registry.follow_of_resolve h
  exact walk_embed path.segments object tidy covers nonempty hfollow (apart _ _ hfield)

/-- Every path of the predicate leads to a field that is not hidden by a relation. -/
def Resolves (r : Registry) (e : Entity) (p : Predicate) : Prop :=
  ∀ path ∈ p.paths, ∃ owner field, r.resolve e path = .ok (owner, field) ∧ owner.Apart

/-- A value without fields has nothing to carry relations with. -/
theorem embed_of_isObject_eq_false (h : row.isObject = false) (hops : Hops) :
    t.embed r e row hops = row := by
  cases hops with
  | node children =>
    cases row with
    | obj fields => cases h
    | _ => rfl

/-- **Any copy that carries the relations of a predicate will do to evaluate it.** -/
theorem accepts_embed {p : Predicate} (tidy : hops.Tidy)
    (covers : ∀ path ∈ p.paths, hops.Covers path.relations) (resolves : Resolves r e p) :
    p.accepts (t.embed r e row hops) = t.passes r e p row := by
  cases object : row.isObject with
  | false =>
    rw [passes, embed_of_isObject_eq_false object, embed_of_isObject_eq_false object]
  | true =>
    refine congrArg Truth.holds (Predicate.truth_congr p fun path hp => ?_)
    obtain ⟨owner, field, h, apart⟩ := resolves path hp
    rw [valuesIn_embed object tidy (covers path hp) h apart, valuesIn_embed object
      (Hops.tidy_ofPredicate p) (Hops.covers_ofPredicate hp) h apart]

/-! ## Filters that accept the same -/

theorem matching_eq (t : Tables) (r : Registry) (e : Entity) (filter : Option Predicate) :
    t.matching r e filter = (t.of e.name).filter fun row => filter.all (t.passes r e · row) := by
  cases filter with
  | none => simp [matching]
  | some p =>
    cases hp : p.isEmpty with
    | true => simp [matching, hp, passes, Predicate.accepts_of_isEmpty hp]
    | false => simp [matching, hp]

/-- The filter is evaluated on a copy that carries its relations, among others. -/
theorem accepts?_embed {filter : Option Predicate} (tidy : hops.Tidy)
    (covers : ∀ p ∈ filter, ∀ path ∈ p.paths, hops.Covers path.relations)
    (resolves : ∀ p ∈ filter, Resolves r e p) :
    accepts? filter (t.embed r e row hops) = filter.all (t.passes r e · row) := by
  cases filter with
  | none => rfl
  | some p => exact accepts_embed tidy (covers p rfl) (resolves p rfl)

/-- **Filters that accept the same rows match the same rows**, whatever relations they go
through. -/
theorem matching_congr {filter other : Option Predicate}
    (resolves : ∀ p ∈ filter, Resolves r e p) (resolves' : ∀ p ∈ other, Resolves r e p)
    (same : ∀ row, accepts? filter row = accepts? other row) :
    t.matching r e filter = t.matching r e other := by
  -- one copy that carries the relations of both
  let both := Predicate.and (filter.toList ++ other.toList)
  have covers : ∀ p ∈ filter.toList ++ other.toList, ∀ path ∈ p.paths,
      (Hops.ofPredicate both).Covers path.relations := by
    intro p hp path hpath
    refine Hops.covers_ofPredicate ?_
    obtain ⟨leaf, hleaf, hpath⟩ := (Predicate.mem_paths_iff p).mp hpath
    exact (Predicate.mem_paths_iff both).mpr
      ⟨leaf, Predicate.mem_leavesOfAll.mpr ⟨p, hp, hleaf⟩, hpath⟩
  have tidy := Hops.tidy_ofPredicate both
  rw [matching_eq, matching_eq]
  refine List.filter_congr fun row _ => ?_
  have first := fun p hp => covers p (List.mem_append_left _ (Option.mem_toList.mpr hp))
  have second := fun p hp => covers p (List.mem_append_right _ (Option.mem_toList.mpr hp))
  rw [← accepts?_embed tidy first resolves, same, accepts?_embed tidy second resolves']

end Tables

end Roster
