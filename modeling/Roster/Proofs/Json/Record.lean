import Roster.Json.Shape

/-!
# Reading back a record

A record is written as the fields that are present, each under its own name. Reading such an object
is setting the fields one after the other: no name is unknown and none stands twice. An optional
field is written as no pair or as one, and reading these puts the field back.
-/

namespace Roster

/-! ## Outcomes -/

section

variable {ε ε' α β : Type}

theorem bind_eq_ok {x : Except ε α} {f : α → Except ε β} {b : β} :
    x.bind f = .ok b ↔ ∃ a, x = .ok a ∧ f a = .ok b := by
  cases x <;> simp [Except.bind]

theorem map_eq_ok {x : Except ε α} {f : α → β} {b : β} :
    x.map f = .ok b ↔ ∃ a, x = .ok a ∧ f a = b := by
  cases x <;> simp [Except.map]

theorem mapError_eq_ok {x : Except ε α} {f : ε → ε'} {a : α} :
    x.mapError f = .ok a ↔ x = .ok a := by
  cases x with
  | error fault => exact ⟨nofun, nofun⟩
  | ok b => exact ⟨fun h => by cases h; rfl, fun h => by cases h; rfl⟩

theorem toOption_eq_some {x : Except ε α} {a : α} : x.toOption = some a ↔ x = .ok a := by
  cases x <;> simp [Except.toOption]

end

/-! ## Optional parts -/

theorem optional_of_ne_null {ε α : Type} (read : Json → Except ε α) {v : Json} (h : v ≠ .null) :
    Json.optional read v = (read v).map some := by
  cases v with
  | null => exact absurd rfl h
  | _ => rfl

theorem optional_eq_ok {ε α : Type} {read : Json → Except ε α} {v : Json} {r : Option α}
    (h : Json.optional read v = .ok r) : ∀ a ∈ r, read v = .ok a := by
  intro a ha
  cases v with
  | null => cases h; cases ha
  | _ =>
    obtain ⟨b, hb, rfl⟩ := map_eq_ok.mp h
    cases ha
    exact hb

/-! ## Records -/

namespace Json.RecordShape

variable {ε ρ : Type}

/-- The fields of an object, set in their order. -/
def setAll (shape : RecordShape ε ρ) (fields : List (String × Json)) (record : ρ) : Except ε ρ :=
  fields.foldlM (fun record field => shape.set field.1 field.2 record) record

section

variable {shape : RecordShape ε ρ} {P : ρ → Prop}
  (step : ∀ {name v record record'}, shape.set name v record = .ok record' → P record → P record')

include step

theorem preserved_readFields (fields : List (String × Json)) :
    ∀ (seen : List String) (record record' : ρ), P record →
      shape.readFields seen fields record = .ok record' → P record' := by
  induction fields with
  | nil =>
    intro seen record record' holds read
    cases read
    exact holds
  | cons field fields ih =>
    intro seen record record' holds read
    obtain ⟨name, v⟩ := field
    rw [readFields] at read
    by_cases known : shape.fields.contains name = true
    · rw [if_pos known] at read
      by_cases twice : seen.contains name = true
      · rw [if_pos twice] at read
        cases read
      · rw [if_neg twice] at read
        obtain ⟨next, set, read⟩ := bind_eq_ok.mp read
        exact ih (name :: seen) next record' (step set holds) read
    · rw [if_neg known] at read
      by_cases lenient : shape.lenient = true
      · rw [if_pos lenient] at read
        exact ih seen record record' holds read
      · rw [if_neg lenient] at read
        cases read

theorem preserved_readItems (items : List Json) :
    ∀ (names : List String) (record record' : ρ), P record →
      shape.readItems names items record = .ok record' → P record' := by
  induction items with
  | nil =>
    intro names record record' holds read
    cases names <;>
    · cases read
      exact holds
  | cons v items ih =>
    intro names record record' holds read
    cases names with
    | nil =>
      cases read
      exact holds
    | cons name names =>
      obtain ⟨next, set, read⟩ := bind_eq_ok.mp read
      exact ih names next record' (step set holds) read

/-- **What the setting of every field preserves holds of the record that is read.** -/
theorem preserved_read {blank record : ρ} {v : Json} (holds : P blank)
    (read : shape.read blank v = .ok record) : P record := by
  cases v with
  | obj fields => exact preserved_readFields step fields [] blank record holds read
  | arr items =>
    obtain ⟨last, set, read⟩ := bind_eq_ok.mp read
    by_cases long : shape.fields.length < items.length
    · rw [if_pos long] at read
      cases read
    · rw [if_neg long] at read
      cases read
      exact preserved_readItems step items shape.fields blank _ holds set
  | _ => cases read

end

/-- No field behind a name is called like it or like what was seen before. -/
theorem fresh_tail {name : String} {v : Json} {fields : List (String × Json)} {seen : List String}
    (fresh : ∀ field ∈ (name, v) :: fields, field.1 ∉ seen) (distinct : name ∉ fields.map (·.1)) :
    ∀ field ∈ fields, field.1 ∉ name :: seen := by
  intro field hf repeated
  rcases List.mem_cons.mp repeated with same | earlier
  · exact distinct (List.mem_map.mpr ⟨field, hf, same⟩)
  · exact fresh field (List.mem_cons_of_mem _ hf) earlier

/-- **When an object is read**: each name is one of the record and stands once, and the field under
it is read, whatever the record is by then. -/
theorem exists_readFields_iff {shape : RecordShape ε ρ} (strict : shape.lenient = false)
    {reads : String → Json → Prop}
    (sets : ∀ name ∈ shape.fields, ∀ v record,
      (∃ record', shape.set name v record = .ok record') ↔ reads name v)
    (fields : List (String × Json)) : ∀ (seen : List String) (record : ρ),
      (∃ record', shape.readFields seen fields record = .ok record') ↔
        (∀ field ∈ fields, field.1 ∈ shape.fields ∧ reads field.1 field.2) ∧
          (∀ field ∈ fields, field.1 ∉ seen) ∧ (fields.map (·.1)).Nodup := by
  induction fields with
  | nil =>
    intro seen record
    exact ⟨fun _ => ⟨nofun, nofun, List.nodup_nil⟩, fun _ => ⟨record, rfl⟩⟩
  | cons field fields ih =>
    intro seen record
    obtain ⟨name, v⟩ := field
    constructor
    · rintro ⟨record', read⟩
      rw [readFields] at read
      by_cases known : shape.fields.contains name = true
      · rw [if_pos known] at read
        by_cases twice : seen.contains name = true
        · rw [if_pos twice] at read
          cases read
        · rw [if_neg twice] at read
          obtain ⟨next, set, read⟩ := bind_eq_ok.mp read
          obtain ⟨each, unseen, distinct⟩ := (ih (name :: seen) next).mp ⟨record', read⟩
          have member := List.contains_iff_mem.mp known
          have new : name ∉ seen := fun old => twice (List.contains_iff_mem.mpr old)
          refine ⟨List.forall_mem_cons.mpr ⟨⟨member, (sets name member v record).mp ⟨next, set⟩⟩,
            each⟩, List.forall_mem_cons.mpr ⟨new, fun f hf old => ?_⟩, ?_⟩
          · exact unseen f hf (List.mem_cons_of_mem _ old)
          · rw [List.map_cons, List.nodup_cons]
            refine ⟨fun again => ?_, distinct⟩
            obtain ⟨f, hf, same⟩ := List.mem_map.mp again
            exact unseen f hf (same ▸ List.mem_cons_self)
      · rw [if_neg known, strict, if_neg Bool.false_ne_true] at read
        cases read
    · rintro ⟨each, unseen, distinct⟩
      obtain ⟨member, reads⟩ := each (name, v) List.mem_cons_self
      obtain ⟨next, set⟩ := (sets name member v record).mpr reads
      rw [List.map_cons, List.nodup_cons] at distinct
      obtain ⟨record', read⟩ := (ih (name :: seen) next).mpr
        ⟨fun f hf => each f (List.mem_cons_of_mem _ hf), fresh_tail unseen distinct.1, distinct.2⟩
      have known : shape.fields.contains name = true := List.contains_iff_mem.mpr member
      have new : ¬ seen.contains name = true := fun old =>
        unseen (name, v) List.mem_cons_self (List.contains_iff_mem.mp old)
      refine ⟨record', ?_⟩
      rw [readFields, if_pos known, if_neg new, set]
      exact read

theorem readFields_of_distinct (shape : RecordShape ε ρ) (fields : List (String × Json)) :
    ∀ (seen : List String) (record : ρ),
      (∀ field ∈ fields, shape.fields.contains field.1 = true) →
      (∀ field ∈ fields, field.1 ∉ seen) → (fields.map (·.1)).Nodup →
      shape.readFields seen fields record = shape.setAll fields record := by
  induction fields with
  | nil =>
    intro seen record _ _ _
    rfl
  | cons field fields ih =>
    intro seen record known fresh distinct
    obtain ⟨name, v⟩ := field
    rw [List.map_cons, List.nodup_cons] at distinct
    have unseen : seen.contains name = false := by
      simpa using fresh (name, v) List.mem_cons_self
    rw [readFields, if_pos (known (name, v) List.mem_cons_self), unseen, setAll, List.foldlM_cons]
    simp only [Bool.false_eq_true, if_false]
    refine bind_congr fun record => ?_
    exact ih (name :: seen) record (fun f hf => known f (List.mem_cons_of_mem _ hf))
      (fresh_tail fresh distinct.1) distinct.2

/-- **An object with names of the record, in their order, is read by setting its fields.** -/
theorem read_of_sublist (shape : RecordShape ε ρ) {fields : List (String × Json)} (blank : ρ)
    (distinct : shape.fields.Nodup) (names : (fields.map (·.1)).Sublist shape.fields) :
    shape.read blank (.obj fields) = shape.setAll fields blank := by
  refine readFields_of_distinct shape fields [] blank ?_ ?_ (distinct.sublist names)
  · intro field hf
    rw [List.contains_iff_mem]
    exact names.subset (List.mem_map_of_mem hf)
  · intro field _
    exact List.not_mem_nil

theorem setAll_append (shape : RecordShape ε ρ) (first rest : List (String × Json)) (record : ρ) :
    shape.setAll (first ++ rest) record =
      (shape.setAll first record).bind (shape.setAll rest) := by
  rw [setAll, List.foldlM_append]
  rfl

/-- An optional field as it is written. -/
def piece {α : Type} (name : String) (write : α → Json) (value : Option α) :
    List (String × Json) :=
  (value.map fun a => (name, write a)).toList

theorem names_piece {α : Type} (name : String) (write : α → Json) (value : Option α) :
    ((piece name write value).map (·.1)).Sublist [name] := by
  cases value with
  | none => exact List.nil_sublist _
  | some a => exact List.Sublist.refl _

/-- Reading the piece of an optional field is reading the value, where there is one. -/
theorem setAll_piece_with (shape : RecordShape ε ρ) {α β : Type} {name : String}
    {write : α → Json} (value : Option α) (put : Option β → ρ) {record : ρ}
    (back : α → Except ε β) (absent : put none = record)
    (reads : ∀ a, value = some a →
      shape.set name (write a) record = (back a).map fun b => put (some b)) :
    shape.setAll (piece name write value) record = (value.mapM back).map put := by
  cases value with
  | none => exact congrArg Except.ok absent.symm
  | some a =>
    rw [piece, setAll, Option.map_some, Option.toList_some, List.foldlM_cons, reads a rfl]
    rw [Option.mapM_some]
    cases back a <;> rfl

/-- An optional field that is read back as it was written is put into the record. -/
theorem setAll_piece (shape : RecordShape ε ρ) {α : Type} {name : String} {write : α → Json}
    (value : Option α) (put : Option α → ρ) {record : ρ} (absent : put none = record)
    (reads : ∀ a, value = some a →
      shape.set name (write a) record = .ok (put (some a))) :
    shape.setAll (piece name write value) record = .ok (put value) := by
  rw [setAll_piece_with shape value put .ok absent reads]
  cases value <;> rfl

end Json.RecordShape

end Roster
