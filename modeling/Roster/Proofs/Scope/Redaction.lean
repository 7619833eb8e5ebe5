import Roster.Proofs.Keyed
import Roster.Scope.Redact
import Roster.Store.Includes

/-!
# Redaction and the steps of a list

Two rows that look alike to a caller have the same redaction. Each step that a list takes after rows
are fetched keeps rows alike: a related record is found by keys that the caller may see, a selection
drops fields by name, and a record goes under the name of its relation. So whatever the caller may
not read can be taken out of rows before these steps or after them.

`Caller.veil` takes the restricted fields out of a row and leaves related records alone. It is what
a store without the restricted fields would hold.
-/

namespace Roster

namespace Caller

variable {c : Caller} {r : Registry} {e target : Entity}

/-! ## Redaction of fields -/

/-- What is left of the value of a field: under a relation, the redaction of its records. -/
def redactField (c : Caller) (r : Registry) (e : Entity) (name : String) (v : Json) : Json :=
  match r.target? e name with
  | some target => c.redactRelated r target v
  | none => v

theorem redactFields_cons (name : String) (v : Json) (rest : List (String × Json)) :
    c.redactFields r e ((name, v) :: rest) =
      if c.hides e.name name then c.redactFields r e rest
      else (name, c.redactField r e name v) :: c.redactFields r e rest := by
  rw [redactFields]
  rfl

/-- Redaction drops the hidden names and redacts what stands under the others. -/
theorem redactFields_eq (fields : List (String × Json)) :
    c.redactFields r e fields =
      (fields.filter fun p => !c.hides e.name p.1).map
        fun p => (p.1, c.redactField r e p.1 p.2) := by
  induction fields with
  | nil => rfl
  | cons p rest ih =>
    obtain ⟨name, v⟩ := p
    rw [redactFields_cons]
    cases h : c.hides e.name name with
    | true => simpa [h] using ih
    | false => simp [h, ih]

theorem redactItems_eq (items : List Json) :
    c.redactItems r e items = items.map (c.redact r e) := by
  induction items with
  | nil => rfl
  | cons v rest ih => rw [redactItems, ih, List.map_cons]

theorem get?_redact (v : Json) (name : String) :
    (c.redact r e v).get? name =
      if c.hides e.name name then none else (v.get? name).map (c.redactField r e name) := by
  cases v with
  | obj fields =>
    rw [redact, Json.get?, Json.fields, redactFields_eq, Keyed.get?_map _ (c.redactField r e),
      Keyed.get?_filter fields (fun name => !c.hides e.name name), Json.get?, Json.fields]
    cases c.hides e.name name <;> rfl
  | _ => cases h : c.hides e.name name <;> simp [redact, Json.get?, Json.fields]

/-- A key that is no relation and not hidden is seen in the redaction. -/
theorem keyIn?_redact {field : String} (column : e.relation? field = none)
    (visible : c.hides e.name field = false) (row : Json) :
    (c.redact r e row).keyIn? field = row.keyIn? field := by
  have plain : c.redactField r e field = fun v => v := by
    funext v
    rw [redactField, Registry.target?, column]
    rfl
  rw [Json.keyIn?, get?_redact, visible, plain, Option.map_id', Json.keyIn?]
  rfl

/-- Redaction leaves the related rows related. -/
theorem related_redact {field : String} (column : e.relation? field = none)
    (visible : c.hides e.name field = false) (key : Option String) (rows : List Json) :
    related key field (rows.map (c.redact r e)) = (related key field rows).map (c.redact r e) := by
  rw [related, related, List.filter_map]
  congr 2
  funext row
  simp only [Function.comp_apply, keyIn?_redact column visible]

theorem keysOf_redact {field : String} (column : e.relation? field = none)
    (visible : c.hides e.name field = false) (rows : List Json) :
    Includes.keysOf field (rows.map (c.redact r e)) = Includes.keysOf field rows := by
  rw [Includes.keysOf, Includes.keysOf, List.filterMap_map]
  congr 2
  funext row
  exact keyIn?_redact column visible row

/-! ## Selections and related records -/

/-- A selection can be made before the redaction or after it. -/
theorem redact_project (row : Json) (select : Option Select) (inc : Option IncludeTree) :
    c.redact r e (project row select inc) = project (c.redact r e row) select inc := by
  cases select with
  | none => rfl
  | some select =>
    cases row with
    | obj fields =>
      simp only [project, redact, redactFields_eq, List.filter_map, List.filter_filter]
      congr 3
      funext p
      simp only [Function.comp_apply, Bool.and_comm]
    | _ => rfl

theorem redactFields_put (fields : Keyed Json) (name : String) (v : Json) :
    c.redactFields r e (fields.put name v) =
      if c.hides e.name name then c.redactFields r e fields
      else Keyed.put (c.redactFields r e fields) name (c.redactField r e name v) := by
  induction fields with
  | nil => cases h : c.hides e.name name <;> simp [Keyed.put, redactFields_cons, h, redactFields]
  | cons p rest ih =>
    obtain ⟨k, w⟩ := p
    by_cases hk : k = name
    · subst hk
      cases h : c.hides e.name k <;> simp [Keyed.put, redactFields_cons, h]
    · cases h : c.hides e.name name <;> cases hw : c.hides e.name k <;>
        simp [Keyed.put, redactFields_cons, hk, hw, ih, h]

/-- Rows that look alike still do when they get fields that look alike. -/
theorem redact_withField_congr {a b v w : Json} {name : String}
    (rows : c.redact r e a = c.redact r e b)
    (fields : c.redactField r e name v = c.redactField r e name w) :
    c.redact r e (a.withField name v) = c.redact r e (b.withField name w) := by
  have split : ∀ row u, c.redact r e (Json.withField row name u) =
      if c.hides e.name name then c.redact r e row
      else (c.redact r e row).withField name (c.redactField r e name u) := by
    intro row u
    cases row with
    | obj fs =>
      rw [Json.withField, redact, redactFields_put]
      split <;> rfl
    | _ => cases c.hides e.name name <;> rfl
  rw [split, split, rows, fields]

/-- Records that look alike do so under a relation. -/
theorem redactRelated_congr {a b : Json} (h : c.redact r e a = c.redact r e b) :
    c.redactRelated r e a = c.redactRelated r e b := by
  cases a <;> cases b <;> simp_all [redact, redactRelated]

theorem redactRelated_value_congr (l : Relation) {xs ys : List Json}
    (h : xs.map (c.redact r e) = ys.map (c.redact r e)) :
    c.redactRelated r e (l.value xs) = c.redactRelated r e (l.value ys) := by
  cases hl : l.singular with
  | true =>
    cases xs with
    | nil =>
      obtain rfl : ys = [] := by simpa using h.symm
      rfl
    | cons x xs =>
      cases ys with
      | nil => cases h
      | cons y ys =>
        simp only [Relation.value, hl]
        exact redactRelated_congr (List.cons.inj h).1
  | false => simp [Relation.value, hl, redactRelated, redactItems_eq, h]

/-- The names that a caller has to see to have records handed out to rows. -/
structure SeesLink (c : Caller) (e : Entity) (l : Relation) (target : Entity) : Prop where
  localColumn : e.relation? l.localField = none
  localVisible : c.hides e.name l.localField = false
  foreignColumn : target.relation? l.foreignField = none
  foreignVisible : c.hides target.name l.foreignField = false

/-- **Rows that look alike are handed records that look alike.** -/
theorem distribute_congr {l : Relation} (sees : SeesLink c e l target)
    (ht : r.target? e l.name = some target) {children children' rows rows' : List Json}
    (hchildren : children.map (c.redact r target) = children'.map (c.redact r target))
    (hrows : rows.map (c.redact r e) = rows'.map (c.redact r e)) (select : Option Select)
    (inc : Option IncludeTree) :
    (Includes.distribute l select inc children rows).map (c.redact r e) =
      (Includes.distribute l select inc children' rows').map (c.redact r e) := by
  have own : ∀ key,
      c.redactField r e l.name
          (l.value ((related key l.foreignField children).map (project · select inc))) =
        c.redactField r e l.name
          (l.value ((related key l.foreignField children').map (project · select inc))) := by
    intro key
    simp only [redactField, ht]
    apply redactRelated_value_congr
    have swap : ∀ xs : List Json, (xs.map (project · select inc)).map (c.redact r target) =
        (xs.map (c.redact r target)).map (project · select inc) := by
      intro xs
      simp only [List.map_map]
      exact List.map_congr_left fun row _ => redact_project row select inc
    rw [swap, swap, ← related_redact sees.foreignColumn sees.foreignVisible,
      ← related_redact sees.foreignColumn sees.foreignVisible, hchildren]
  induction rows generalizing rows' with
  | nil =>
    obtain rfl : rows' = [] := by simpa using hrows.symm
    rfl
  | cons row rest ih =>
    cases rows' with
    | nil => cases hrows
    | cons row' rest' =>
      obtain ⟨head, tail⟩ := List.cons.inj hrows
      have key : row.keyIn? l.localField = row'.keyIn? l.localField := by
        rw [← keyIn?_redact (r := r) sees.localColumn sees.localVisible row, head,
          keyIn?_redact sees.localColumn sees.localVisible row']
      simp only [Includes.distribute, List.map_cons]
      exact List.cons_eq_cons.mpr ⟨redact_withField_congr head (key ▸ own _), ih tail⟩

/-! ## Veiled rows -/

/-- A row without the fields that are restricted for its entity. -/
def veil (c : Caller) (e : Entity) : Json → Json
  | .obj fields => .obj (fields.filter fun p => !c.hides e.name p.1)
  | v => v

/-- A veiled row looks like the row. -/
theorem redact_veil (row : Json) : c.redact r e (c.veil e row) = c.redact r e row := by
  cases row with
  | obj fields => simp only [veil, redact, redactFields_eq, List.filter_filter, Bool.and_self]
  | _ => rfl

theorem get?_veil {name : String} (visible : c.hides e.name name = false) (row : Json) :
    (c.veil e row).get? name = row.get? name := by
  cases row with
  | obj fields =>
    rw [veil, Json.get?, Json.fields, Keyed.get?_filter fields (fun name => !c.hides e.name name),
      visible]
    rfl
  | _ => rfl

theorem field_veil {name : String} (visible : c.hides e.name name = false) (row : Json) :
    (c.veil e row).field name = row.field name := by
  rw [Json.field, get?_veil visible, Json.field]

theorem keyIn?_veil {name : String} (visible : c.hides e.name name = false) (row : Json) :
    (c.veil e row).keyIn? name = row.keyIn? name := by
  rw [Json.keyIn?, get?_veil visible, Json.keyIn?]

/-- Without restricted fields there is nothing to veil. -/
theorem veil_of_restricted_nil (h : (c.rule e.name).restricted = []) (row : Json) :
    c.veil e row = row := by
  cases row with
  | obj fields =>
    rw [veil, List.filter_eq_self.mpr fun p _ => by simp [hides, h]]
  | _ => rfl

end Caller

end Roster
