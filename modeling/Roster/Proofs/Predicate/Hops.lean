import Roster.Proofs.Predicate.Grammar

/-!
# Clauses behind relations

A clause is read under the relations that lead to it. They do not decide whether it is read, and all
that they do to what is read is to stand in front of every path (`Predicate.toOption_readClause`). So
an object under a relation says what it says on its own, of the related records, wherever the
relation stands: in another relation or in a connective, in either of the forms that `AND` and `NOT`
have (`Predicate.ofJson_relation`).
-/

namespace Roster

/-- The path behind relations. -/
def Path.behind (hops : List String) (path : Path) : Path := ⟨hops ++ path.segments⟩

/-! ## Outcomes without their errors -/

section

variable {ε α β : Type}

theorem toOption_map (x : Except ε α) (f : α → β) :
    (x >>= fun a => pure (f a)).toOption = x.toOption.map f := by
  cases x <;> rfl

theorem toOption_cons (x : Except ε α) (xs : Except ε (List α)) :
    (x >>= fun a => xs >>= fun as => pure (a :: as)).toOption =
      x.toOption.bind fun a => xs.toOption.map (a :: ·) := by
  cases x <;> cases xs <;> rfl

end

namespace Predicate

/-! ## Predicates behind relations -/

mutual

/-- The predicate with relations in front of the path of every leaf. -/
def behind (hops : List String) : Predicate → Predicate
  | .equals path value => .equals (path.behind hops) value
  | .operator path filter => .operator (path.behind hops) filter
  | .and children => .and (behindAll hops children)
  | .or children => .or (behindAll hops children)
  | .not inner => .not (inner.behind hops)

/-- The predicates with relations in front of the path of every leaf. -/
def behindAll (hops : List String) : List Predicate → List Predicate
  | [] => []
  | p :: rest => p.behind hops :: behindAll hops rest

end

theorem combine_behindAll (hops : List String) (ps : List Predicate) :
    combine (behindAll hops ps) = (combine ps).behind hops := by
  match ps with
  | [] => rfl
  | [p] => rfl
  | _ :: _ :: _ => rfl

variable (outer hops : List String)

/-! ## Leaves -/

theorem pathAt_append (key : String) :
    pathAt (outer ++ hops) key = (pathAt hops key).map (Path.behind outer) := by
  unfold pathAt
  split
  · rw [List.append_assoc]
    rfl
  · rfl

theorem toOption_readOperator (path : Path) (v : Json) :
    (readOperator (path.behind outer) v).toOption =
      (readOperator path v).toOption.map (behind outer) := by
  unfold readOperator
  cases Filter.ofJson v with
  | error fault => rfl
  | ok filter => cases h : filter.isBlank <;> simp [h, Except.toOption, behind]

theorem toOption_readPlain (key : String) (v : Json) :
    (readPlain (outer ++ hops) key v).toOption =
      (readPlain hops key v).toOption.map (behind outer) := by
  unfold readPlain
  cases Connective.ofKey? key with
  | some connective => cases connective <;> rfl
  | none =>
    dsimp only
    rw [pathAt_append]
    cases pathAt hops key with
    | error fault => rfl
    | ok path => cases Scalar.ofJson? v <;> rfl

/-! ## Clauses -/

mutual

/-- **Relations in front of a clause stand in front of its paths**, and the clause is read or refused
as it is without them. -/
theorem toOption_readClause (outer hops : List String) : (v : Json) →
    (readClause (outer ++ hops) v).toOption = (readClause hops v).toOption.map (behind outer)
  | .obj fields => by
    rw [readClause, readClause, toOption_map, toOption_map, toOption_readFields outer hops fields]
    simp only [Option.map_map, Function.comp_def, combine_behindAll]
  | .null => rfl
  | .bool _ => rfl
  | .num _ => rfl
  | .str _ => rfl
  | .arr _ => rfl

theorem toOption_readItems (outer hops : List String) : (vs : List Json) →
    (readItems (outer ++ hops) vs).toOption = (readItems hops vs).toOption.map (behindAll outer)
  | [] => rfl
  | v :: rest => by
    rw [readItems, readItems, toOption_cons, toOption_cons, toOption_readClause outer hops v,
      toOption_readItems outer hops rest]
    cases (readClause hops v).toOption <;> cases (readItems hops rest).toOption <;> rfl

theorem toOption_readFields (outer hops : List String) : (fields : List (String × Json)) →
    (readFields (outer ++ hops) fields).toOption =
      (readFields hops fields).toOption.map (behindAll outer)
  | [] => rfl
  | (key, v) :: rest => by
    rw [readFields, readFields, toOption_cons, toOption_cons, toOption_readKey outer hops key v,
      toOption_readFields outer hops rest]
    cases (readKey hops key v).toOption <;> cases (readFields hops rest).toOption <;> rfl

theorem toOption_readKey (outer hops : List String) (key : String) : (v : Json) →
    (readKey (outer ++ hops) key v).toOption = (readKey hops key v).toOption.map (behind outer)
  | .arr items => by
    rw [readKey, readKey]
    cases Connective.ofKey? key with
    | some connective =>
      cases connective <;>
      · dsimp only
        rw [toOption_map, toOption_map, toOption_readItems outer hops items]
        simp only [Option.map_map]
        rfl
    | none =>
      -- an array is refused under any path
      rw [pathAt_append]
      cases pathAt hops key <;> rfl
  | .obj fields => by
    rw [readKey, readKey]
    cases Connective.ofKey? key with
    | some connective =>
      cases connective with
      | or => rfl
      | and =>
        dsimp only
        rw [toOption_map, toOption_map, toOption_readFields outer hops fields]
        simp only [Option.map_map, Function.comp_def, combine_behindAll]
        rfl
      | not =>
        dsimp only
        rw [toOption_map, toOption_map, toOption_readFields outer hops fields]
        simp only [Option.map_map, Function.comp_def, combine_behindAll]
        rfl
    | none =>
      dsimp only
      rw [pathAt_append]
      cases pathAt hops key with
      | error fault => rfl
      | ok path =>
        change (if hasOperatorKey fields then readOperator (path.behind outer) (.obj fields)
            else readFields (outer ++ path.segments) fields >>= fun ps => pure (combine ps)).toOption =
          (if hasOperatorKey fields then readOperator path (.obj fields)
            else readFields path.segments fields >>= fun ps => pure (combine ps)).toOption.map
              (behind outer)
        split
        · exact toOption_readOperator outer path (.obj fields)
        · rw [toOption_map, toOption_map, toOption_readFields outer path.segments fields]
          simp only [Option.map_map, Function.comp_def, combine_behindAll]
  | .null => toOption_readPlain outer hops key .null
  | .bool b => toOption_readPlain outer hops key (.bool b)
  | .num n => toOption_readPlain outer hops key (.num n)
  | .str s => toOption_readPlain outer hops key (.str s)

end

/-! ## Relations -/

/-- A relation is opened by its key and adds its name to the relations gone through. -/
theorem readKey_relation {relation : String} (isKey : Path.isKey relation = true)
    {fields : List (String × Json)} (plain : ∀ field ∈ fields, field.1 ∉ Filter.keys) :
    (readKey hops relation (.obj fields)).toOption =
      (ofJson (.obj fields)).toOption.map (behind (hops ++ [relation])) := by
  have opens : hasOperatorKey fields = false := by
    rw [← Bool.not_eq_true, hasOperatorKey_iff]
    rintro ⟨field, member, operator⟩
    exact plain field member operator
  have below := toOption_readClause (hops ++ [relation]) [] (.obj fields)
  rw [List.append_nil] at below
  rw [readKey_obj isKey, opens, if_neg Bool.false_ne_true, below, ofJson]

/-- **What an object says under a relation is what it says on its own, behind the relation.** It is
read there exactly when it is read on its own, and then with the relation in front of the path of
every leaf, the connectives and the operands being the same. This holds wherever the relation
stands: behind other relations, these come first. -/
theorem ofJson_relation {relation : String} (name : Path.isName relation = true)
    (own : relation ≠ "AND" ∧ relation ≠ "OR" ∧ relation ≠ "NOT")
    {fields : List (String × Json)} (plain : ∀ field ∈ fields, field.1 ∉ Filter.keys) :
    ((∃ p, ofJson (.obj [(relation, .obj fields)]) = .ok p) ↔ ∃ p, ofJson (.obj fields) = .ok p) ∧
    (∀ p, ofJson (.obj fields) = .ok p →
      ofJson (.obj [(relation, .obj fields)]) = .ok (p.behind [relation])) ∧
    ∀ hops, (readKey hops relation (.obj fields)).toOption =
      (ofJson (.obj fields)).toOption.map (behind (hops ++ [relation])) := by
  have isKey : Path.isKey relation = true := by
    have none_ : Connective.ofKey? relation = none := by
      rw [← Option.not_isSome_iff_eq_none, isSome_ofKey?]
      rintro (same | same | same)
      exacts [own.1 same, own.2.1 same, own.2.2 same]
    exact isKey_iff.mpr ⟨name, none_⟩
  have read : (ofJson (.obj [(relation, .obj fields)])).toOption =
      (ofJson (.obj fields)).toOption.map (behind [relation]) := by
    rw [ofJson, readClause_single]
    exact readKey_relation [] isKey plain
  refine ⟨?_, fun p h => ?_, fun hops => readKey_relation hops isKey plain⟩
  · simp only [← toOption_eq_some, read, Option.map_eq_some_iff]
    exact ⟨fun ⟨_, p, h, _⟩ => ⟨p, h⟩, fun ⟨p, h⟩ => ⟨_, p, h, rfl⟩⟩
  · rw [← toOption_eq_some, read, toOption_eq_some.mpr h]
    rfl

/-- A negation, a list of alternatives and a further relation under the key `job`. -/
theorem ofJson_relation_job :
    let fields : List (String × Json) := [
      ("NOT", .obj [("status", .str "OPEN")]),
      ("OR", .arr [.obj [("owner", .obj [("name", .str "Ann")])], .obj [("salaryMin", .null)]])]
    ofJson (.obj [("job", .obj fields)]) = .ok (.and [
      .not (.equals ⟨["job", "status"]⟩ (.text "OPEN")),
      .or [.equals ⟨["job", "owner", "name"]⟩ (.text "Ann"),
        .equals ⟨["job", "salaryMin"]⟩ .null]]) := by
  intro fields
  have alone : ofJson (.obj fields) = .ok (.and [
      .not (.equals ⟨["status"]⟩ (.text "OPEN")),
      .or [.equals ⟨["owner", "name"]⟩ (.text "Ann"), .equals ⟨["salaryMin"]⟩ .null]]) := by
    rfl
  exact (ofJson_relation (by decide) (by decide) (by decide)).2.1 _ alone

end Predicate

end Roster
