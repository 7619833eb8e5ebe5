import Mathlib.Data.List.Perm.Basic
import Roster.Proofs.Store.Reach

/-!
# Tables in another order

A filter sees rows of the tables that its paths go through. It does not see their order, with one
exception: a relation to one row stands for the first of the rows that have the key. So a filter
matches the same rows when tables are put in another order, if each such relation on its paths leads
to distinct keys, or to a table that is left as it was (`Tables.matching_reordered`).
-/

namespace Roster.Tables

variable {t t' : Tables} {r : Registry} {e : Entity}

/-- The tables have the same rows, in another order. -/
def Reorders (t' t : Tables) : Prop := ∀ entity, (t'.of entity).Perm (t.of entity)

/-- Along relations, one that stands for a single row leads to rows with distinct keys, or to a table
that has not been reordered. -/
def Steady (t' t : Tables) (r : Registry) : Entity → List String → Prop
  | _, [] => True
  | e, name :: rest => ∀ l target, e.relation? name = some l → r.entity? l.target = some target →
      (l.singular = true → t'.of target.name = t.of target.name ∨
        ((t.of target.name).filterMap (·.keyIn? l.foreignField)).Nodup) ∧
      t'.Steady t r target rest

/-- Every path of the filter goes along such relations. -/
def SteadyFor (t' t : Tables) (r : Registry) (e : Entity) (filter : Option Predicate) : Prop :=
  ∀ p ∈ filter, ∀ path ∈ p.paths, t'.Steady t r e path.relations

namespace Reorders

theorem nil : Reorders ⟨[]⟩ ⟨[]⟩ := fun _ => .refl _

/-- Tables are put in another order one by one. -/
theorem cons (name : String) {rows rows' : List Json} (perm : rows'.Perm rows)
    {rest rest' : Keyed (List Json)} (others : Reorders ⟨rest'⟩ ⟨rest⟩) :
    Reorders ⟨(name, rows') :: rest'⟩ ⟨(name, rows) :: rest⟩ := by
  intro entity
  unfold of Keyed.get?
  split
  · exact perm
  · exact others entity

end Reorders

theorem linked_reordered (reorders : t'.Reorders t) (l : Relation) (target : Entity) (row : Json) :
    (t'.linked l target row).Perm (t.linked l target row) :=
  (reorders target.name).filter _

/-- A relation stands for the same rows. -/
theorem picked_reordered (reorders : t'.Reorders t) {l : Relation} {target : Entity}
    (steady : l.singular = true → t'.of target.name = t.of target.name ∨
      ((t.of target.name).filterMap (·.keyIn? l.foreignField)).Nodup) (row : Json) :
    (l.picked (t'.linked l target row)).Perm (l.picked (t.linked l target row)) := by
  have perm := linked_reordered reorders l target row
  unfold Relation.picked
  split
  · next singular =>
    rcases steady singular with kept | distinct
    · rw [linked, kept, linked]
    · have few : (t.linked l target row).length ≤ 1 := length_related_le_one distinct _
      rw [List.take_of_length_le few, List.take_of_length_le (perm.length_eq ▸ few)]
      exact perm
  · exact perm

/-! ## Values behind a path -/

/-- The values that segments reach, objects without their fields. -/
def seen (segments : List String) (v : Json) : List Json :=
  ((walk segments [v]).flatMap Json.flatten).map Json.closed

theorem seen_single {v : Json} (object : v.isObject = true) (name : String) :
    seen [name] v = (v.field name).flatten.map Json.closed := by
  rw [seen, walk, stepInto_of_isObject object, List.flatMap_singleton]

/-- The values behind a name are read from the field alone. -/
theorem seen_congr {v w : Json} (hv : v.isObject = true) (hw : w.isObject = true) {name : String}
    (same : v.field name = w.field name) (rest : List String) :
    seen (name :: rest) v = seen (name :: rest) w := by
  cases rest with
  | nil => rw [seen_single hv, seen_single hw, same]
  | cons next others =>
    rw [seen, seen, walk_step, walk_step, stepInto_of_isObject hv, stepInto_of_isObject hw, same]

/-- Behind a relation they are read from the rows that it stands for. -/
theorem seen_relation {v : Json} (object : v.isObject = true) {name : String} {l : Relation}
    {rows : List Json} (objects : ∀ row ∈ rows, row.isObject = true)
    (value : v.field name = l.value rows) (next : String) (others : List String) :
    seen (name :: next :: others) v = (l.picked rows).flatMap (seen (next :: others)) := by
  rw [seen, walk_step, stepInto_of_isObject object, value,
    walk_value (List.cons_ne_nil _ _) l objects, List.flatMap_assoc, List.map_flatMap]
  rfl

/-- A relation itself is seen as no more than a number of objects. -/
theorem closed_value (l : Relation) {rows rows' : List Json} (count : rows.length = rows'.length)
    (objects : ∀ row ∈ rows, row.isObject = true) (objects' : ∀ row ∈ rows', row.isObject = true) :
    (l.value rows).flatten.map Json.closed = (l.value rows').flatten.map Json.closed := by
  have closed : ∀ {v : Json}, v.isObject = true → v.closed = .obj [] := by
    intro v object
    obtain ⟨fields, rfl⟩ := Json.eq_obj object
    rfl
  unfold Relation.value
  split
  · match rows, rows', count with
    | [], [], _ => rfl
    | row :: _, row' :: _, _ =>
      have first := objects row List.mem_cons_self
      have first' := objects' row' List.mem_cons_self
      rw [List.headD_cons, List.headD_cons, Json.flatten_of_isObject first,
        Json.flatten_of_isObject first', List.map_singleton, List.map_singleton, closed first,
        closed first']
  · have all {rows : List Json} (objects : ∀ row ∈ rows, row.isObject = true) :
        rows.map Json.closed = List.replicate rows.length (.obj []) := by
      rw [← List.map_const']
      exact List.map_congr_left fun row member => closed (objects row member)
    rw [Json.flatten, Json.flatten, all objects, all objects', count]

/-- **Copies of a row that carry rows of the one and of the other tables look the same**, but for the
order of what is behind relations. -/
theorem seen_reordered (reorders : t'.Reorders t) (segments : List String) :
    ∀ {e : Entity} {row : Json} {hops : Hops}, hops.Tidy → hops.Covers segments.dropLast →
      t'.Steady t r e segments.dropLast →
        (seen segments (t'.embed r e row hops)).Perm (seen segments (t.embed r e row hops)) := by
  induction segments with
  | nil =>
    intro e row hops _ _ _
    cases object : row.isObject with
    | false => rw [embed_of_isObject_eq_false object, embed_of_isObject_eq_false object]
    | true =>
      obtain ⟨fields, rfl⟩ := Json.eq_obj object
      cases hops
      exact .refl _
  | cons name rest ih =>
    intro e row hops tidy covers steady
    cases object : row.isObject with
    | false => rw [embed_of_isObject_eq_false object, embed_of_isObject_eq_false object]
    | true =>
      cases tidy with | @node children ordered tidyBelow => ?_
      have carrier := isObject_embed (t := t) (r := r) (e := e) object (.node children)
      have carrier' := isObject_embed (t := t') (r := r) (e := e) object (.node children)
      have absent (other : r.target? e name = none ∨ children.get? name = none) :
          (seen (name :: rest) (t'.embed r e row (.node children))).Perm
            (seen (name :: rest) (t.embed r e row (.node children))) := by
        rw [seen_congr carrier' carrier
          ((field_embed_absent other).trans (field_embed_absent other).symm)]
      cases htarget : r.target? e name with
      | none => exact absent (.inl htarget)
      | some target => ?_
      cases hbelow : children.get? name with
      | none => exact absent (.inr hbelow)
      | some below => ?_
      obtain ⟨l, hl, ht⟩ := Option.bind_eq_some_iff.mp htarget
      have value := field_embed (t := t) object hl ht ordered hbelow
      have value' := field_embed (t := t') object hl ht ordered hbelow
      cases rest with
      | nil =>
        have count : ((t'.linked l target row).map fun child => t'.embed r target child below).length =
            ((t.linked l target row).map fun child => t.embed r target child below).length := by
          rw [List.length_map, List.length_map,
            (linked_reordered reorders l target row).length_eq]
        rw [seen_single carrier', seen_single carrier, value', value,
          closed_value l count (isObject_of_copied below) (isObject_of_copied below)]
      | cons next others =>
        obtain ⟨_, same, hcovers⟩ := covers
        rw [Option.some.inj (same.symm.trans hbelow)] at hcovers
        obtain ⟨few, further⟩ := steady l target hl ht
        rw [seen_relation carrier' (isObject_of_copied below) value',
          seen_relation carrier (isObject_of_copied below) value, picked_map, picked_map,
          List.flatMap_map, List.flatMap_map]
        exact (picked_reordered reorders few row).flatMap fun child _ =>
          ih (tidyBelow _ (Keyed.mem_of_get? hbelow)) hcovers further

/-! ## Filters -/

theorem passes_reordered (reorders : t'.Reorders t) {p : Predicate}
    (steady : ∀ path ∈ p.paths, t'.Steady t r e path.relations) (row : Json) :
    t'.passes r e p row = t.passes r e p row :=
  congrArg Truth.holds (Predicate.truth_of_perm p fun path member =>
    seen_reordered reorders path.segments (Hops.tidy_ofPredicate p) (Hops.covers_ofPredicate member)
      (steady path member))

/-- **A filter matches the same rows, in whatever order the tables are.** -/
theorem matching_reordered (reorders : t'.Reorders t) {filter : Option Predicate}
    (steady : t'.SteadyFor t r e filter) :
    (t'.matching r e filter).Perm (t.matching r e filter) := by
  rw [matching_eq, matching_eq]
  have same : ∀ row, (filter.all (t'.passes r e · row)) = filter.all (t.passes r e · row) := by
    intro row
    cases filter with
    | none => rfl
    | some p => exact passes_reordered reorders (steady p rfl) row
  rw [funext same]
  exact (reorders e.name).filter _

end Roster.Tables
