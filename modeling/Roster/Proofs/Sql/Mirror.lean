import Mathlib.Data.List.Forall2
import Roster.Proofs.Schema.Resolve
import Roster.Proofs.Sql.Comparison
import Roster.Proofs.Store.Reach

/-!
# Databases that hold what tables hold

A record mirrors a row when every column holds the value of its field, and a database mirrors tables
when the records of every table mirror the rows of its entity, one by one. `Tables.database` is such
a database for all tables, if no two entities share a table and no two fields share a column.

Rows are related through keys. Evaluation compares keys as texts and SQL compares the cells, and
the two agree where keys are texts or null (`Cell.holds_equals_ofJson`).
-/

namespace Roster

/-! ## Typed tables -/

/-- The rows of tables are of their entities: a field holds values of its kind, a relation goes
along keys, and a singular one leads to at most one row. -/
structure Tables.Typed (t : Tables) (r : Registry) : Prop where
  objects : t.Objects
  stores {e : Entity} : r.Registered e → ∀ row ∈ t.of e.name, ∀ f ∈ e.fields,
    f.kind.stores (row.field f.name) = true
  localKeys {e : Entity} : r.Registered e → ∀ l ∈ e.relations, ∀ row ∈ t.of e.name,
    (row.field l.localField).isKey = true
  foreignKeys {e : Entity} : r.Registered e → ∀ l ∈ e.relations, ∀ target ∈ r.entity? l.target,
    ∀ row ∈ t.of target.name, (row.field l.foreignField).isKey = true
  unique {e : Entity} : r.Registered e → ∀ l ∈ e.relations, l.singular = true →
    ∀ target ∈ r.entity? l.target,
      ((t.of target.name).filterMap (·.keyIn? l.foreignField)).Nodup

/-! ## Keys -/

/-- A singular relation leads to one row at most, so the first one is all of them. -/
theorem Tables.Typed.picked_linked {r : Registry} {t : Tables} {e target : Entity} {l : Relation}
    (typed : t.Typed r) (registered : r.Registered e) (member : l ∈ e.relations)
    (ht : r.entity? l.target = some target) (row : Json) :
    l.picked (t.linked l target row) = t.linked l target row := by
  rw [Relation.picked]
  split
  · next singular =>
    refine List.take_of_length_le (length_related_le_one ?_ _)
    exact typed.unique registered l member singular target ht
  · rfl

/-- Cells with keys are equal where one row is related to the other. -/
theorem Sql.Cell.holds_equals_ofJson {a b : Json} {f g : String} (ha : (a.field f).isKey = true)
    (hb : (b.field g).isKey = true) :
    ((ofJson (b.field g)).equals (ofJson (a.field f))).holds =
      ((a.keyIn? f).isSome && b.keyIn? g == a.keyIn? f) := by
  rw [Json.keyIn?_eq_keyText?, Json.keyIn?_eq_keyText?]
  generalize a.field f = x at ha
  generalize b.field g = y at hb
  cases x with
  | null => simp [ofJson, equals, test, isNull, Json.keyText?, Truth.holds]
  | str s =>
    cases y with
    | null => rfl
    | str u =>
      have same : (compare u s == .eq) = (some u == some s) := by
        rw [Bool.eq_iff_iff, beq_iff_eq, beq_iff_eq, Option.some.injEq]
        exact Std.LawfulEqOrd.compare_eq_iff_eq
      simp [ofJson, equals, test, isNull, order?, Text.compare_bytes, Json.keyText?, ← same]
    | _ => cases hb
  | _ => cases ha

/-! ## Mirrors -/

/-- Every column of the record holds the value of its field. -/
def Entity.Mirrors (e : Entity) (row : Json) (record : Sql.Record) : Prop :=
  ∀ f ∈ e.fields, record f.column = .ofJson (row.field f.name)

theorem Entity.mirrors_field {e : Entity} {row : Json} {record : Sql.Record} {name : String}
    {f : Field} (mirrors : e.Mirrors row record) (h : e.field? name = some f) :
    record f.column = .ofJson (row.field name) := by
  obtain ⟨member, rfl⟩ := Entity.field?_eq_some h
  exact mirrors f member

/-- The records of every table mirror the rows of its entity. -/
def Sql.Database.Mirrors (db : Sql.Database) (r : Registry) (t : Tables) : Prop :=
  ∀ ⦃e : Entity⦄, r.Registered e → List.Forall₂ e.Mirrors (t.of e.name) (db e.table)

/-- The record of a row. -/
def Entity.record (e : Entity) (row : Json) : Sql.Record := fun column =>
  match e.fields.find? (·.column == column) with
  | some f => .ofJson (row.field f.name)
  | none => .null

/-- The records of all rows. -/
def Tables.database (t : Tables) (r : Registry) : Sql.Database := fun table =>
  match r.find? (·.2.table == table) with
  | some (_, e) => (t.of e.name).map e.record
  | none => []

/-- No two entities share a table, and no two fields of an entity share a column. -/
structure Registry.Unshared (r : Registry) : Prop where
  tables : ∀ p ∈ r, ∀ q ∈ r, p.2.table = q.2.table → p.2 = q.2
  columns : ∀ p ∈ r, ∀ f ∈ p.2.fields, ∀ g ∈ p.2.fields, f.column = g.column → f = g

theorem Entity.mirrors_record {e : Entity}
    (columns : ∀ f ∈ e.fields, ∀ g ∈ e.fields, f.column = g.column → f = g) (row : Json) :
    e.Mirrors row (e.record row) := by
  intro f hf
  have found : e.fields.find? (·.column == f.column) = some f := by
    cases hg : e.fields.find? (·.column == f.column) with
    | none => exact absurd (List.find?_eq_none.mp hg f hf) (by simp)
    | some g =>
      have same := List.find?_some hg
      rw [columns g (List.mem_of_find?_eq_some hg) f hf (by simpa using same)]
  rw [record, found]

/-- **For all tables there is a database that mirrors them.** -/
theorem Tables.mirrors_database {r : Registry} (unshared : r.Unshared) (t : Tables) :
    (t.database r).Mirrors r t := by
  rintro e ⟨name, he⟩
  have member := Keyed.mem_of_get? he
  have found : (t.database r) e.table = (t.of e.name).map e.record := by
    rw [database]
    cases hq : r.find? (·.2.table == e.table) with
    | none => exact absurd (List.find?_eq_none.mp hq _ member) (by simp)
    | some q =>
      have same := List.find?_some hq
      obtain rfl : q.2 = e :=
        unshared.tables q (List.mem_of_find?_eq_some hq) _ member (by simpa using same)
      rfl
  rw [found, List.forall₂_map_right_iff, List.forall₂_same]
  exact fun row _ => Entity.mirrors_record (unshared.columns _ member) row

end Roster
