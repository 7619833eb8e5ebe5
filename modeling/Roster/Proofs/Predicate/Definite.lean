import Roster.Proofs.Sql.Comparison
import Roster.Proofs.Store.Columns
import Roster.Schema.Recruiting

/-!
# What is unknown of a row

A truth value is definite when it is not unknown. The connectives keep definite values definite, a
comparison with an operand says something definite of every value that is not null, whatever sort the
value is of, and a condition behind a relation is definite in any case. So a valid predicate is
unknown on a row only if one of its columns has a null value (`Predicate.definite_truth`); on any
other row either the predicate accepts or its negation does.
-/

namespace Roster

/-! ## Definite truth values -/

namespace Truth

/-- The value is known. -/
def Definite (t : Truth) : Prop := t ≠ .unknown

theorem definite_ofBool (b : Bool) : (ofBool b).Definite := by
  cases b <;> exact nofun

theorem Definite.and {a b : Truth} (ha : a.Definite) (hb : b.Definite) : (a.and b).Definite := by
  cases a with
  | no => exact nofun
  | unknown => exact absurd rfl ha
  | yes => rwa [yes_and]

theorem Definite.or {a b : Truth} (ha : a.Definite) (hb : b.Definite) : (a.or b).Definite := by
  cases a with
  | no => rwa [no_or]
  | unknown => exact absurd rfl ha
  | yes => exact nofun

theorem Definite.not {a : Truth} (ha : a.Definite) : a.not.Definite := by
  cases a with
  | unknown => exact absurd rfl ha
  | _ => exact nofun

theorem definite_all {ts : List Truth} (h : ∀ t ∈ ts, t.Definite) : (all ts).Definite := by
  induction ts with
  | nil => exact nofun
  | cons t ts ih =>
    rw [all_cons]
    exact (h t List.mem_cons_self).and (ih fun u hu => h u (List.mem_cons_of_mem t hu))

theorem definite_any {ts : List Truth} (h : ∀ t ∈ ts, t.Definite) : (any ts).Definite := by
  induction ts with
  | nil => exact nofun
  | cons t ts ih =>
    rw [any_cons]
    exact (h t List.mem_cons_self).or (ih fun u hu => h u (List.mem_cons_of_mem t hu))

/-- Of a definite value either it holds or its opposite does. -/
theorem Definite.holds_not {t : Truth} (definite : t.Definite) : t.not.holds = !t.holds := by
  cases t with
  | unknown => exact absurd rfl definite
  | _ => rfl

end Truth

/-! ## Comparisons -/

variable {v : Json} {ignoring : Bool}

namespace Comparison

/-- A comparison for an order has a bound to compare with. -/
def isBounded : Comparison → Bool
  | .ordered _ operand => !operand.isNull
  | _ => true

theorem isBounded_of_admittedOn {kind : FieldKind} {c : Comparison}
    (admitted : c.admittedOn kind = true) : c.isBounded = true := by
  cases c with
  | ordered bound operand =>
    have present : operand.isNull = false := FieldKind.isNull_of_admits admitted
    rw [isBounded, present, Bool.not_false]
  | _ => rfl

/-- **A comparison says something definite of a value that is not null**, even of one that does not
compare with the operands. -/
theorem definite_truth (present : v.isNull = false) {c : Comparison} (bounded : c.isBounded = true) :
    (c.truth ignoring v).Definite := by
  cases c with
  | equals operand =>
    rw [truth, equalsTruth]
    split
    · exact Truth.definite_ofBool _
    · rw [if_neg (by simp [present])]
      exact Truth.definite_ofBool _
  | differs operand =>
    rw [truth, differsTruth]
    split
    · exact Truth.definite_ofBool _
    · rw [if_neg (by simp [present])]
      exact Truth.definite_ofBool _
  | oneOf operands =>
    rw [truth, oneOfTruth, if_neg (by simp [present])]
    exact Truth.definite_ofBool _
  | noneOf operands =>
    rw [truth, noneOfTruth, if_neg (by simp [present])]
    exact Truth.definite_ofBool _
  | ordered bound operand =>
    have given : operand.isNull = false := by simpa [isBounded] using bounded
    rw [truth, orderedTruth, if_neg (by simp [present, given])]
    exact Truth.definite_ofBool _
  | textual place term =>
    rw [truth]
    cases v with
    | null => cases present
    | str text => exact Truth.definite_ofBool _
    | _ => exact Truth.definite_ofBool false

end Comparison

theorem definite_equalsTruth (present : v.isNull = false) (operand : Scalar) :
    (equalsTruth ignoring v operand).Definite :=
  Comparison.definite_truth present (c := .equals operand) rfl

theorem Filter.definite_truth (present : v.isNull = false) {f : Filter}
    (bounded : ∀ c ∈ f.comparisons, c.isBounded = true) : (f.truth v).Definite := by
  refine Truth.definite_all fun t ht => ?_
  obtain ⟨c, hc, rfl⟩ := List.mem_map.mp ht
  exact Comparison.definite_truth present (bounded c hc)

/-! ## Predicates -/

/-- A test behind a relation is definite, whatever the test is; one of a column is if it is definite
of each value of the column. -/
theorem definite_leafTruth {row : Json} {path : Path} {test : Json → Truth}
    (column : path.isNested = false → ∀ w ∈ path.valuesIn row, (test w).Definite) :
    (leafTruth row path test).Definite := by
  unfold leafTruth
  dsimp only
  split
  · exact Truth.definite_ofBool _
  · next own =>
    refine Truth.definite_any fun t ht => ?_
    obtain ⟨w, hw, rfl⟩ := List.mem_map.mp ht
    exact column (Bool.not_eq_true _ ▸ own) w hw

namespace Predicate

/-- No column that the predicate names by a path of its own has a null value. -/
def SeesNoNull (row : Json) (paths : List Path) : Prop :=
  ∀ path ∈ paths, path.isNested = false → ∀ v ∈ path.valuesIn row, v.isNull = false

variable {r : Registry} {e : Entity} {place : String} {row : Json}

mutual

/-- **Only null values of columns make a valid predicate unknown.** What is behind relations does not
count, missing or null as it may be. -/
theorem definite_truth : (p : Predicate) → p.problems r e place = [] → SeesNoNull row p.paths →
    (p.truth row).Definite
  | .equals path value, _, seen => by
    rw [truth]
    refine definite_leafTruth fun column w hw => ?_
    exact definite_equalsTruth (seen path List.mem_cons_self column w hw) value
  | .operator path filter, valid, seen => by
    have bounded : ∀ c ∈ filter.comparisons, c.isBounded = true := by
      rw [problems] at valid
      split at valid
      · exact fun c hc => Comparison.isBounded_of_admittedOn (Filter.admitted_of_valid valid c hc)
      · cases valid
    rw [truth]
    refine definite_leafTruth fun column w hw => ?_
    exact filter.definite_truth (seen path List.mem_cons_self column w hw) bounded
  | .and children, valid, seen => by
    rw [truth]
    exact Truth.definite_all (definite_truths children valid seen)
  | .or children, valid, seen => by
    rw [truth]
    exact Truth.definite_any (definite_truths children valid seen)
  | .not inner, valid, seen => by
    rw [truth]
    exact (definite_truth inner valid seen).not

theorem definite_truths : (ps : List Predicate) → problemsOfAll r e place ps = [] →
    SeesNoNull row (pathsOfAll ps) → ∀ t ∈ truths row ps, t.Definite
  | [], _, _ => nofun
  | p :: rest, valid, seen => by
    rw [problemsOfAll, List.append_eq_nil_iff] at valid
    intro t ht
    rcases List.mem_cons.mp ht with rfl | ht
    · exact definite_truth p valid.1 fun path hp => seen path (List.mem_append_left _ hp)
    · exact definite_truths rest valid.2 (fun path hp => seen path (List.mem_append_right _ hp)) t ht

end

/-- A column of an object that holds one value shows that value. -/
theorem valuesIn_filled {name : String} {v : Json} (object : row.isObject = true)
    (held : row.get? name = some v) (single : ∀ items, v ≠ .arr items) :
    Path.valuesIn ⟨[name]⟩ row = [v] := by
  rw [Path.valuesIn_column object, Json.field, held]
  cases v with
  | arr items => exact absurd rfl (single items)
  | _ => rfl

/-- A resolved path that goes through no relation is the name of a column. -/
theorem segments_of_resolve {path : Path} {owner : Entity} {field : Field}
    (resolved : r.resolve e path = .ok (owner, field)) (column : path.isNested = false) :
    path = ⟨[path.leaf]⟩ := by
  have nonempty := (Registry.follow_of_resolve resolved).1
  obtain ⟨segments⟩ := path
  match segments, nonempty, column with
  | [name], _, _ => rfl
  | _ :: _ :: _, _, column => simp [Path.isNested] at column

/-- **A valid predicate is decided on a row without gaps.** On an object in which every column that
the predicate names holds a value, one that is not null and no array, the predicate is not unknown:
either it accepts the row or its negation does. The sort of the values does not matter, nor does what
the row holds of related records. -/
theorem accepts_not_of_filled {q : Descriptor} {p : Predicate} (valid : r.accepts e q = true)
    (asked : q.filter = some p) (object : row.isObject = true)
    (filled : ∀ path ∈ p.paths, path.isNested = false →
      ∃ v, row.get? path.leaf = some v ∧ v ≠ .null ∧ ∀ items, v ≠ .arr items) :
    p.truth row ≠ .unknown ∧ (Predicate.not p).accepts row = !p.accepts row := by
  have valid : p.problems r e "where" = [] := by
    rw [Registry.accepts, List.isEmpty_iff, Registry.problems, asked] at valid
    simp only [List.append_eq_nil_iff] at valid
    exact valid.1.1.1
  have seen : SeesNoNull row p.paths := by
    intro path hp column w hw
    obtain ⟨owner, field, resolved⟩ := resolves_of_valid p valid path hp
    obtain ⟨v, held, present, single⟩ := filled path hp column
    rw [segments_of_resolve resolved column, valuesIn_filled object held single,
      List.mem_singleton] at hw
    subst hw
    cases w with
    | null => exact absurd rfl present
    | _ => rfl
  have definite := definite_truth p valid seen
  exact ⟨definite, definite.holds_not⟩

/-- An application whose score is a text and whose job is missing: the score is not below three, no
job of the application is without an owner, and both are definite. -/
theorem accepts_not_of_filled_application :
    let p : Predicate := .or [.operator ⟨["score"]⟩ { lt := some (.int 3) },
      .equals ⟨["job", "ownerId"]⟩ .null]
    let row : Json := .obj [("id", .str "1"), ("score", .str "high"), ("job", .null)]
    Registry.recruiting.accepts Registry.applications { filter := some p } = true ∧
      p.truth row ≠ .unknown ∧ (Predicate.not p).accepts row = !p.accepts row ∧
      (Predicate.not p).accepts row = true := by
  intro p row
  have valid : Registry.recruiting.accepts Registry.applications { filter := some p } = true := by
    decide
  have filled : ∀ path ∈ p.paths, path.isNested = false →
      ∃ v, row.get? path.leaf = some v ∧ v ≠ .null ∧ ∀ items, v ≠ .arr items := by
    intro path hp column
    rcases List.mem_cons.mp hp with rfl | hp
    · exact ⟨.str "high", rfl, nofun, nofun⟩
    · obtain rfl := List.mem_singleton.mp hp
      cases column
  have object : row.isObject = true := rfl
  obtain ⟨known, opposite⟩ := accepts_not_of_filled valid rfl object filled
  exact ⟨valid, known, opposite, by decide⟩

end Predicate

end Roster
