import Roster.Proofs.Scope.Redaction

/-!
# Records inside a row

A row holds records at many places: itself, and below it whatever stands under a relation of a record,
an object or the objects of an array. Which entity such a record belongs to is found by following the
relations (`Registry.RecordAt`), and with it which of its keys are restricted for a caller.

Redaction cuts these keys off, with all that is below them, and nothing else: at every other place of
the row stands what stood there (`Caller.redact_trims`). The relations of a schema can lead in circles,
so the recursion is on the row, and the induction below is on the place.
-/

namespace Roster

namespace Json

/-! ## Places -/

/-- A step into a value: to what stands under a key, or to an item of an array. -/
inductive Step where
  | key (name : String)
  | item (index : Nat)
deriving DecidableEq, Repr

/-- What stands at a place. -/
def at? (v : Json) : List Step → Option Json
  | [] => some v
  | .key name :: rest => v.get? name >>= fun w => w.at? rest
  | .item index :: rest =>
    match v with
    | .arr items => items[index]? >>= fun w => w.at? rest
    | _ => none

/-- The value without what stands inside: a scalar is as it is, an array is a number of items. -/
def surface : Json → Json
  | .arr items => .arr (items.map fun _ => .null)
  | .obj _ => .obj []
  | v => v

theorem at?_append (before after : List Step) (v : Json) :
    v.at? (before ++ after) = v.at? before >>= fun w => w.at? after := by
  induction before generalizing v with
  | nil => rfl
  | cons step rest ih =>
    cases step with
    | key name => cases h : v.get? name <;> simp [at?, h, ih]
    | item index =>
      cases v with
      | arr items => cases h : items[index]? <;> simp [at?, h, ih]
      | _ => rfl

end Json

open Json (Step)

/-! ## Records -/

/-- A row of an entity has a record of `owner` at the place: the row itself, or a record that stands
under a relation of a record. -/
inductive Registry.RecordAt (r : Registry) : Entity → Json → List Step → Entity → Json → Prop
  | self {e : Entity} {row : Json} : RecordAt r e row [] e row
  | single {e target owner : Entity} {row record : Json} {name : String}
      {fields : List (String × Json)} {place : List Step} :
      row.get? name = some (.obj fields) → r.target? e name = some target →
        RecordAt r target (.obj fields) place owner record →
          RecordAt r e row (.key name :: place) owner record
  | item {e target owner : Entity} {row child record : Json} {name : String} {items : List Json}
      {index : Nat} {place : List Step} :
      row.get? name = some (.arr items) → r.target? e name = some target →
        items[index]? = some child → RecordAt r target child place owner record →
          RecordAt r e row (.key name :: .item index :: place) owner record

variable {r : Registry} {e owner target : Entity} {row record : Json} {place : List Step}
  {name : String}

/-- The record is what stands at its place. -/
theorem Registry.RecordAt.at? (found : r.RecordAt e row place owner record) :
    row.at? place = some record := by
  induction found with
  | self => rfl
  | single held _ _ ih => simp [Json.at?, held, ih]
  | item held _ listed _ ih => simp [Json.at?, held, listed, ih]

namespace Caller

variable {c : Caller}

/-- The place is at or below a key that is restricted for the record that has it. -/
def Cuts (c : Caller) (r : Registry) (e : Entity) (row : Json) (place : List Step) : Prop :=
  ∃ before name after owner record, place = before ++ .key name :: after ∧
    r.RecordAt e row before owner record ∧ (record.get? name).isSome = true ∧
      c.hides owner.name name = true

/-- What is left of a row when the restricted keys of its records are removed and nothing else. -/
structure Trims (c : Caller) (r : Registry) (e : Entity) (row kept : Json) : Prop where
  /-- No record has a restricted key. -/
  clean {place : List Step} {owner : Entity} {record : Json} {name : String} :
    r.RecordAt e kept place owner record → c.hides owner.name name = true →
      record.get? name = none
  /-- Nothing is left at a restricted key and below it. -/
  gone {place : List Step} : c.Cuts r e row place → kept.at? place = none
  /-- At every other place stands what stood there, as far as nothing inside of it is gone. -/
  left {place : List Step} : ¬c.Cuts r e row place →
    (kept.at? place).map Json.surface = (row.at? place).map Json.surface
  /-- The value of a key that is no relation is the same all through. -/
  plain {place : List Step} {owner : Entity} {record : Json} {name : String} :
    r.RecordAt e row place owner record → ¬c.Cuts r e row place →
      c.hides owner.name name = false → r.target? owner name = none →
        kept.at? (place ++ [.key name]) = row.at? (place ++ [.key name])

namespace Cuts

theorem here {v : Json} (held : row.get? name = some v) (hidden : c.hides e.name name = true)
    (rest : List Step) : c.Cuts r e row (.key name :: rest) :=
  ⟨[], name, rest, e, row, rfl, .self, by rw [held]; rfl, hidden⟩

theorem single {fields : List (String × Json)} (held : row.get? name = some (.obj fields))
    (ht : r.target? e name = some target) (cuts : c.Cuts r target (.obj fields) place) :
    c.Cuts r e row (.key name :: place) := by
  obtain ⟨before, key, after, owner, record, rfl, found, rest⟩ := cuts
  exact ⟨.key name :: before, key, after, owner, record, rfl, .single held ht found, rest⟩

theorem item {items : List Json} {index : Nat} {child : Json}
    (held : row.get? name = some (.arr items)) (ht : r.target? e name = some target)
    (listed : items[index]? = some child) (cuts : c.Cuts r target child place) :
    c.Cuts r e row (.key name :: .item index :: place) := by
  obtain ⟨before, key, after, owner, record, rfl, found, rest⟩ := cuts
  exact ⟨.key name :: .item index :: before, key, after, owner, record, rfl,
    .item held ht listed found, rest⟩

end Cuts

/-! ## One step into a redacted row -/

theorem redactRelated_obj (fields : List (String × Json)) :
    c.redactRelated r target (.obj fields) = c.redact r target (.obj fields) := rfl

theorem redactRelated_arr (items : List Json) :
    c.redactRelated r target (.arr items) = .arr (items.map (c.redact r target)) := by
  rw [redactRelated, redactItems_eq]

theorem surface_redact (v : Json) : (c.redact r e v).surface = v.surface := by
  cases v <;> rfl

theorem get?_redact_hidden (hidden : c.hides e.name name = true) (v : Json) :
    (c.redact r e v).get? name = none := by
  rw [get?_redact, if_pos hidden]

theorem get?_redact_visible {v : Json} (visible : c.hides e.name name = false)
    (held : row.get? name = some v) :
    (c.redact r e row).get? name = some (c.redactField r e name v) := by
  rw [get?_redact, visible, held]
  rfl

theorem redactField_target {v : Json} (ht : r.target? e name = some target) :
    c.redactField r e name v = c.redactRelated r target v := by
  rw [redactField, ht]

theorem redactField_plain {v : Json} (ht : r.target? e name = none) :
    c.redactField r e name v = v := by
  rw [redactField, ht]

/-! ## What is gone and what is left -/

/-- A restricted key of a record is not found after the redaction, nor is anything below it. -/
theorem at?_redact_of_hidden (found : r.RecordAt e row place owner record)
    (hidden : c.hides owner.name name = true) (rest : List Step) :
    (c.redact r e row).at? (place ++ .key name :: rest) = none := by
  induction found with
  | self =>
    rw [List.nil_append, Json.at?, get?_redact_hidden hidden]
    rfl
  | @single e target _ row _ via _ place held ht _ ih =>
    rw [List.cons_append, Json.at?]
    cases visible : c.hides e.name via with
    | true =>
      rw [get?_redact_hidden visible]
      rfl
    | false =>
      rw [get?_redact_visible visible held, redactField_target ht, redactRelated_obj]
      exact ih hidden
  | @item e target _ row _ _ via items index place held ht listed _ ih =>
    rw [List.cons_append, List.cons_append, Json.at?]
    cases visible : c.hides e.name via with
    | true =>
      rw [get?_redact_hidden visible]
      rfl
    | false =>
      rw [get?_redact_visible visible held, redactField_target ht, redactRelated_arr]
      simp only [Option.bind_eq_bind, Option.bind_some, Json.at?, List.getElem?_map, listed,
        Option.map_some]
      exact ih hidden

/-- A record of a redacted row is the redaction of the record that stood there. -/
theorem exists_record_of_redact (found : r.RecordAt e (c.redact r e row) place owner record) :
    ∃ v, record = c.redact r owner v := by
  generalize hkept : c.redact r e row = kept at found
  induction found generalizing row with
  | self => exact ⟨row, hkept.symm⟩
  | @single e target _ kept _ via fields _ held ht _ ih =>
    subst hkept
    rw [get?_redact] at held
    split at held
    · cases held
    · obtain ⟨v, -, same⟩ := Option.map_eq_some_iff.mp held
      rw [redactField_target ht] at same
      cases v with
      | obj inner => exact ih (redactRelated_obj inner ▸ same)
      | arr items => rw [redactRelated_arr] at same; cases same
      | _ => cases same
  | @item e target _ kept child _ via items index _ held ht listed _ ih =>
    subst hkept
    rw [get?_redact] at held
    split at held
    · cases held
    · obtain ⟨v, -, same⟩ := Option.map_eq_some_iff.mp held
      rw [redactField_target ht] at same
      cases v with
      | arr inner =>
        rw [redactRelated_arr] at same
        obtain rfl := Json.arr.inj same
        rw [List.getElem?_map] at listed
        obtain ⟨w, -, same⟩ := Option.map_eq_some_iff.mp listed
        exact ih same
      | obj fields => rw [redactRelated_obj] at same; cases same
      | _ => cases same

/-- A record that is not cut off is still there, redacted. -/
theorem recordAt_redact (found : r.RecordAt e row place owner record)
    (uncut : ¬c.Cuts r e row place) :
    r.RecordAt e (c.redact r e row) place owner (c.redact r owner record) := by
  induction found with
  | self => exact .self
  | @single e target _ row _ via fields place held ht _ ih =>
    have visible : c.hides e.name via = false := by
      rw [← Bool.not_eq_true]
      exact fun hidden => uncut (.here held hidden place)
    have kept := get?_redact_visible (r := r) visible held
    rw [redactField_target ht] at kept
    exact .single kept ht (ih fun cuts => uncut (.single held ht cuts))
  | @item e target _ row _ _ via items index place held ht listed _ ih =>
    have visible : c.hides e.name via = false := by
      rw [← Bool.not_eq_true]
      exact fun hidden => uncut (.here held hidden _)
    have kept := get?_redact_visible (r := r) visible held
    rw [redactField_target ht, redactRelated_arr] at kept
    refine .item kept ht ?_ (ih fun cuts => uncut (.item held ht listed cuts))
    rw [List.getElem?_map, listed, Option.map_some]

/-- Redaction leaves what stands at a place, of any row in which the place is not cut off. -/
def LeavesAt (c : Caller) (r : Registry) (place : List Step) : Prop :=
  ∀ {e : Entity} {row : Json}, ¬c.Cuts r e row place →
    ((c.redact r e row).at? place).map Json.surface = (row.at? place).map Json.surface

/-- Under a relation, what stands at a place is left if it is left at all shorter ones. -/
theorem surface_at?_redactRelated {v : Json} {rest : List Step} (held : row.get? name = some v)
    (ht : r.target? e name = some target) (uncut : ¬c.Cuts r e row (.key name :: rest))
    (shorter : ∀ place, place.length ≤ rest.length → c.LeavesAt r place) :
    ((c.redactRelated r target v).at? rest).map Json.surface = (v.at? rest).map Json.surface := by
  cases v with
  | obj fields => exact shorter rest (Nat.le_refl _) fun cuts => uncut (.single held ht cuts)
  | arr items =>
    rw [redactRelated_arr]
    match rest, uncut, shorter with
    | [], _, _ => exact congrArg (fun shown => some (Json.arr shown)) List.map_map
    | .key _ :: _, _, _ => rfl
    | .item index :: rest, uncut, shorter =>
      simp only [Json.at?, List.getElem?_map]
      cases listed : items[index]? with
      | none => rfl
      | some child =>
        exact shorter rest (Nat.le_succ _) fun cuts => uncut (.item held ht listed cuts)
  | _ => rfl

/-- **At a place that is not cut off stands what stood there.** -/
theorem leavesAt (place : List Step) : c.LeavesAt r place := by
  -- a record of an array is two steps further, so the induction is on the length
  induction h : place.length using Nat.strongRecOn generalizing place with
  | ind length ih =>
    subst h
    intro e row uncut
    match place, ih, uncut with
    | [], _, _ => exact congrArg some (surface_redact row)
    | .item index :: rest, _, _ => cases row <;> rfl
    | .key name :: rest, ih, uncut =>
      rw [Json.at?, Json.at?]
      cases held : row.get? name with
      | none =>
        rw [get?_redact, held]
        split <;> rfl
      | some v =>
        have visible : c.hides e.name name = false := by
          rw [← Bool.not_eq_true]
          exact fun hidden => uncut (.here held hidden rest)
        rw [get?_redact_visible visible held]
        cases ht : r.target? e name with
        | none => rw [redactField_plain ht]
        | some target =>
          rw [redactField_target ht]
          exact surface_at?_redactRelated held ht uncut fun place shorter =>
            ih place.length (Nat.lt_succ_of_le shorter) place rfl

/-! ## Redacting again -/

mutual

/-- **A redacted row has nothing more to remove.** -/
theorem redact_redact (c : Caller) (r : Registry) (e : Entity) : (v : Json) →
    c.redact r e (c.redact r e v) = c.redact r e v
  | .obj fields => by rw [redact, redact, redactFields_redactFields c r e fields]
  | .null => rfl
  | .bool _ => rfl
  | .num _ => rfl
  | .str _ => rfl
  | .arr _ => rfl

theorem redactFields_redactFields (c : Caller) (r : Registry) (e : Entity) :
    (fields : List (String × Json)) →
      c.redactFields r e (c.redactFields r e fields) = c.redactFields r e fields
  | [] => rfl
  | (name, v) :: rest => by
    have others := redactFields_redactFields c r e rest
    rw [redactFields_cons]
    split
    · exact others
    · next visible =>
      have same : c.redactField r e name (c.redactField r e name v) = c.redactField r e name v := by
        cases ht : r.target? e name with
        | none => rw [redactField_plain ht]
        | some target =>
          rw [redactField_target ht, redactField_target ht]
          exact redactRelated_redactRelated c r target v
      rw [redactFields_cons, if_neg visible, others, same]

theorem redactRelated_redactRelated (c : Caller) (r : Registry) (target : Entity) : (v : Json) →
    c.redactRelated r target (c.redactRelated r target v) = c.redactRelated r target v
  | .arr items => by
    rw [redactRelated, redactRelated, redactItems_redactItems c r target items]
  | .obj fields => by
    rw [redactRelated, redactRelated, redactFields_redactFields c r target fields]
  | .null => rfl
  | .bool _ => rfl
  | .num _ => rfl
  | .str _ => rfl

theorem redactItems_redactItems (c : Caller) (r : Registry) (target : Entity) :
    (items : List Json) →
      c.redactItems r target (c.redactItems r target items) = c.redactItems r target items
  | [] => rfl
  | v :: rest => by
    rw [redactItems, redactItems, redact_redact c r target v, redactItems_redactItems c r target rest]

end

/-- **Redaction removes exactly the restricted keys of the records in a row.** Afterwards no record
has one, at every place that is not at or below one stands what stood there, and to redact again
changes nothing. -/
theorem redact_trims (c : Caller) (r : Registry) (e : Entity) (row : Json) :
    c.Trims r e row (c.redact r e row) ∧
      c.redact r e (c.redact r e row) = c.redact r e row := by
  refine ⟨⟨fun found hidden => ?_, fun cuts => ?_, leavesAt _, ?_⟩, redact_redact c r e row⟩
  · obtain ⟨v, rfl⟩ := exists_record_of_redact found
    exact get?_redact_hidden hidden v
  · obtain ⟨before, name, after, owner, record, rfl, found, -, hidden⟩ := cuts
    exact at?_redact_of_hidden found hidden after
  · intro place owner record name found uncut visible ht
    have kept := (recordAt_redact found uncut).at?
    have value : (c.redact r owner record).get? name = record.get? name := by
      rw [get?_redact, visible]
      cases h : record.get? name with
      | none => rfl
      | some v => exact congrArg some (redactField_plain ht)
    rw [Json.at?_append, Json.at?_append, kept, found.at?]
    simp only [Option.bind_eq_bind, Option.bind_some, Json.at?, value]

end Caller

end Roster
