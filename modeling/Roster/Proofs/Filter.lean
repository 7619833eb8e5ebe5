import Roster.Filter
import Roster.Proofs.Json.Record

/-!
# Operator objects read back

Every filter is read back from the operator object that it is written as, one without comparisons
included. What a filter has is written under the keys of `Filter.keys`, in their order.
-/

namespace Roster

/-! ## Scalars -/

namespace Scalar

theorem ofJson?_toJson (s : Scalar) : ofJson? s.toJson = some s := by
  cases s with
  | int i =>
    have fits : Json.fitsSigned i.toInt = true := by
      have low := Int64.le_toInt i
      have high := Int64.toInt_lt i
      have bound : Json.signedBound = 9223372036854775808 := rfl
      simp only [Json.fitsSigned, bound, Bool.and_eq_true, decide_eq_true_eq]
      omega
    rw [toJson, Json.ofInt, ofJson?, if_pos fits, Int64.ofInt_toInt]
  | _ => rfl

@[simp] theorem agrees_refl (s : Scalar) : s.agrees s = true := by
  cases s with
  | float d => simp [agrees, Double.sameValue]
  | _ => simp [agrees]

end Scalar

namespace Filter

/-! ## Keys -/

theorem toFields_eq (f : Filter) :
    f.toFields =
      Json.RecordShape.piece "equals" Scalar.toJson f.equals ++
        Json.RecordShape.piece "not" Scalar.toJson f.differs ++
        Json.RecordShape.piece "in" (fun l => .arr (l.map Scalar.toJson)) f.oneOf ++
        Json.RecordShape.piece "notIn" (fun l => .arr (l.map Scalar.toJson)) f.noneOf ++
        Json.RecordShape.piece "lt" Scalar.toJson f.lt ++
        Json.RecordShape.piece "lte" Scalar.toJson f.lte ++
        Json.RecordShape.piece "gt" Scalar.toJson f.gt ++
        Json.RecordShape.piece "gte" Scalar.toJson f.gte ++
        Json.RecordShape.piece "contains" Json.str f.contains ++
        Json.RecordShape.piece "startsWith" Json.str f.startsWith ++
        Json.RecordShape.piece "endsWith" Json.str f.endsWith ++
        Json.RecordShape.piece "mode" Json.str
          (if f.ignoreCase then some "insensitive" else none) := by
  unfold toFields
  cases f.ignoreCase <;> rfl

theorem names_toFields (f : Filter) : (f.toFields.map (·.1)).Sublist keys := by
  rw [toFields_eq]
  simp only [List.map_append]
  change List.Sublist _ (["equals"] ++ ["not"] ++ ["in"] ++ ["notIn"] ++ ["lt"] ++ ["lte"] ++
    ["gt"] ++ ["gte"] ++ ["contains"] ++ ["startsWith"] ++ ["endsWith"] ++ ["mode"])
  repeat' apply List.Sublist.append
  all_goals exact Json.RecordShape.names_piece _ _ _

/-! ## Fields -/

section

variable {name : String} {record : Filter}

theorem setAll_scalar (value : Option Scalar) (put : Option Scalar → Filter)
    (absent : put none = record)
    (sets : ∀ v, setKey name v record = (readScalar v).map fun s => put (some s)) :
    shape.setAll (Json.RecordShape.piece name Scalar.toJson value) record = .ok (put value) := by
  refine Json.RecordShape.setAll_piece shape value put absent fun s _ => ?_
  refine (sets s.toJson).trans ?_
  rw [readScalar, Scalar.ofJson?_toJson]
  rfl

theorem readScalars_toJson (l : List Scalar) :
    readScalars (.arr (l.map Scalar.toJson)) = .ok l := by
  change (l.map Scalar.toJson).mapM readScalar = .ok l
  induction l with
  | nil => rfl
  | cons s l ih =>
    rw [List.map_cons, List.mapM_cons, ih, readScalar, Scalar.ofJson?_toJson]
    rfl

theorem setAll_scalars (value : Option (List Scalar)) (put : Option (List Scalar) → Filter)
    (absent : put none = record)
    (sets : ∀ v, setKey name v record = (Json.optional readScalars v).map put) :
    shape.setAll (Json.RecordShape.piece name (fun l => .arr (l.map Scalar.toJson)) value) record =
      .ok (put value) := by
  refine Json.RecordShape.setAll_piece shape value put absent fun l _ => ?_
  have present : Json.arr (l.map Scalar.toJson) ≠ .null := nofun
  refine (sets (.arr (l.map Scalar.toJson))).trans ?_
  rw [optional_of_ne_null _ present, readScalars_toJson]
  rfl

theorem setAll_term (value : Option String) (put : Option String → Filter)
    (absent : put none = record)
    (sets : ∀ v, setKey name v record = (Json.optional Json.asText v).map put) :
    shape.setAll (Json.RecordShape.piece name Json.str value) record = .ok (put value) :=
  Json.RecordShape.setAll_piece shape value put absent fun s _ => sets (.str s)

end

/-- **Every filter is read back from its operator object.** -/
theorem ofJson_toJson (f : Filter) : ofJson f.toJson = .ok f := by
  rw [ofJson, toJson, Json.RecordShape.read_of_sublist shape {} (by decide) (names_toFields f),
    toFields_eq]
  obtain ⟨equals, differs, oneOf, noneOf, lt, lte, gt, gte, contains, startsWith, endsWith,
    ignoreCase⟩ := f
  simp only [Json.RecordShape.setAll_append]
  -- the record grows by one field at a time
  rw [setAll_scalar equals (fun v => { equals := v }) rfl fun _ => rfl, Except.bind,
    setAll_scalar differs (fun v => { equals, differs := v }) rfl fun _ => rfl, Except.bind,
    setAll_scalars oneOf (fun v => { equals, differs, oneOf := v }) rfl fun _ => rfl, Except.bind,
    setAll_scalars noneOf
      (fun v => { equals, differs, oneOf, noneOf := v })
      rfl fun _ => rfl, Except.bind,
    setAll_scalar lt
      (fun v => { equals, differs, oneOf, noneOf, lt := v })
      rfl fun _ => rfl, Except.bind,
    setAll_scalar lte
      (fun v => { equals, differs, oneOf, noneOf, lt, lte := v })
      rfl fun _ => rfl, Except.bind,
    setAll_scalar gt
      (fun v => { equals, differs, oneOf, noneOf, lt, lte, gt := v })
      rfl fun _ => rfl, Except.bind,
    setAll_scalar gte
      (fun v => { equals, differs, oneOf, noneOf, lt, lte, gt, gte := v })
      rfl fun _ => rfl, Except.bind,
    setAll_term contains
      (fun v => { equals, differs, oneOf, noneOf, lt, lte, gt, gte, contains := v })
      rfl fun _ => rfl, Except.bind,
    setAll_term startsWith
      (fun v => { equals, differs, oneOf, noneOf, lt, lte, gt, gte, contains, startsWith := v })
      rfl fun _ => rfl, Except.bind,
    setAll_term endsWith
      (fun v =>
        { equals, differs, oneOf, noneOf, lt, lte, gt, gte, contains, startsWith, endsWith := v })
      rfl fun _ => rfl, Except.bind]
  cases ignoreCase <;> rfl

/-- A filter that compares something is written with some key. -/
theorem toFields_ne_nil {f : Filter} (compares : f.isBlank = false) : f.toFields ≠ [] := by
  intro nothing
  have blank : f.isBlank = true := by
    simp_all [toFields, isBlank, comparisons]
  rw [blank] at compares
  cases compares

/-! ## Agreement -/

theorem optionAgrees_refl (v : Option Scalar) : optionAgrees v v = true := by
  cases v <;> simp [optionAgrees]

theorem listAgrees_refl (l : List Scalar) : listAgrees l l = true := by
  induction l with
  | nil => rfl
  | cons s l ih => simp [listAgrees, ih]

theorem optionListAgrees_refl (v : Option (List Scalar)) : optionListAgrees v v = true := by
  cases v <;> simp [optionListAgrees, listAgrees_refl]

@[simp] theorem agrees_refl (f : Filter) : f.agrees f = true := by
  simp [agrees, optionAgrees_refl, optionListAgrees_refl]

end Filter

end Roster
