import Roster.Predicate.Eval
import Roster.Predicate.Merge

/-!
# What a predicate accepts

A row is accepted when the value of the predicate is `yes`. Of the three truth values only this
one counts, so acceptance of a conjunction is acceptance of every conjunct and acceptance of a
disjunction is acceptance of some disjunct, whatever is unknown about the others. Negation is the
one place where the third value matters, and it is left alone here.

`Predicate.truth_congr` says what a predicate reads: nothing of a row but the values behind the
paths of its leaves. The order of these values does not matter, nor what an object among them has
inside (`Predicate.truth_of_perm`).
-/

namespace Roster

namespace Truth

/-! ## Folds -/

theorem foldl_and (t : Truth) (ts : List Truth) : ts.foldl and t = t.and (all ts) := by
  induction ts generalizing t with
  | nil => simp [all]
  | cons u us ih => rw [List.foldl_cons, all, List.foldl_cons, ih, ih, yes_and, and_assoc]

theorem foldl_or (t : Truth) (ts : List Truth) : ts.foldl or t = t.or (any ts) := by
  induction ts generalizing t with
  | nil => simp [any]
  | cons u us ih => rw [List.foldl_cons, any, List.foldl_cons, ih, ih, no_or, or_assoc]

@[simp] theorem all_nil : all [] = yes := rfl

@[simp] theorem any_nil : any [] = no := rfl

/-- A conjunction is its first part and the conjunction of the rest. -/
@[simp] theorem all_cons (t : Truth) (ts : List Truth) : all (t :: ts) = t.and (all ts) := by
  rw [all, List.foldl_cons, yes_and, foldl_and]

/-- A disjunction is its first part or the disjunction of the rest. -/
@[simp] theorem any_cons (t : Truth) (ts : List Truth) : any (t :: ts) = t.or (any ts) := by
  rw [any, List.foldl_cons, no_or, foldl_or]

/-! ## Holding -/

@[simp] theorem holds_and (a b : Truth) : (a.and b).holds = (a.holds && b.holds) := by
  cases a <;> cases b <;> rfl

@[simp] theorem holds_or (a b : Truth) : (a.or b).holds = (a.holds || b.holds) := by
  cases a <;> cases b <;> rfl

/-- A conjunction holds when every part does. -/
theorem holds_all (ts : List Truth) : (all ts).holds = ts.all holds := by
  induction ts with
  | nil => rfl
  | cons t ts ih => rw [all_cons, holds_and, ih, List.all_cons]

/-- A disjunction holds when some part does. -/
theorem holds_any (ts : List Truth) : (any ts).holds = ts.any holds := by
  induction ts with
  | nil => rfl
  | cons t ts ih => rw [any_cons, holds_or, ih, List.any_cons]

/-- A disjunction holds in any order of its parts. -/
theorem any_perm {ts us : List Truth} (perm : ts.Perm us) : any ts = any us := by
  induction perm with
  | nil => rfl
  | cons t _ ih => rw [any_cons, any_cons, ih]
  | swap t u rest => rw [any_cons, any_cons, any_cons, any_cons, ← or_assoc, or_comm u t, or_assoc]
  | trans _ _ first second => exact first.trans second

end Truth

/-! ## Objects are compared unseen -/

/-- The value, an object without its fields. -/
def Json.closed : Json → Json
  | .obj _ => .obj []
  | v => v

theorem equalsTruth_closed (ignoreCase : Bool) (v : Json) (operand : Scalar) :
    equalsTruth ignoreCase v.closed operand = equalsTruth ignoreCase v operand := by
  cases v <;> rfl

theorem Comparison.truth_closed (ignoreCase : Bool) (v : Json) (c : Comparison) :
    c.truth ignoreCase v.closed = c.truth ignoreCase v := by
  cases v with
  | obj fields => cases c <;> rfl
  | _ => rfl

theorem Filter.truth_closed (f : Filter) (v : Json) : f.truth v.closed = f.truth v := by
  have same : Comparison.truth f.ignoreCase v.closed = Comparison.truth f.ignoreCase v :=
    funext (Comparison.truth_closed f.ignoreCase v)
  rw [truth, truth, same]

/-- A filter accepts a value when each of its comparisons does. -/
theorem Filter.holds_truth (f : Filter) (v : Json) :
    (f.truth v).holds = f.comparisons.all fun c => (c.truth f.ignoreCase v).holds := by
  rw [truth, Truth.holds_all, List.all_map]
  rfl

/-! ## Comparisons with texts -/

section Texts

variable {ignoring : Bool} {v : Json} {text : String}

/-- The value equals a text if it is a text that is compared as the same one. -/
theorem equalTo_text_iff :
    equalTo ignoring v (.text text) = true ↔
      ∃ other, v = .str other ∧ comparedText ignoring other = comparedText ignoring text := by
  cases v with
  | str other =>
    rw [equalTo, compareWith, beq_iff_eq, Option.some.injEq, Std.LawfulEqOrd.compare_eq_iff_eq]
    simp only [Json.str.injEq, exists_eq_left']
  | _ => exact ⟨nofun, nofun⟩

theorem holds_equalsTruth_text_iff :
    (equalsTruth ignoring v (.text text)).holds = true ↔
      ∃ other, v = .str other ∧ comparedText ignoring other = comparedText ignoring text := by
  have named : ¬(Scalar.text text).isNull = true := nofun
  rw [equalsTruth, if_neg named]
  cases v with
  | null => exact ⟨nofun, nofun⟩
  | _ =>
    rw [if_neg nofun, Truth.holds_ofBool]
    exact equalTo_text_iff

/-- A term at a place is found in texts alone. -/
theorem holds_textualTruth_iff {place : TextMatch} :
    (textualTruth ignoring place v text).holds = true ↔
      ∃ other, v = .str other ∧
        place.accepts (comparedText ignoring other) (comparedText ignoring text) = true := by
  cases v with
  | str other =>
    rw [textualTruth, Truth.holds_ofBool]
    simp only [Json.str.injEq, exists_eq_left']
  | _ => exact ⟨nofun, nofun⟩

end Texts

namespace Predicate

/-! ## Conjunctions and disjunctions -/

theorem truths_eq_map (row : Json) (ps : List Predicate) : truths row ps = ps.map (truth row) := by
  induction ps with
  | nil => rfl
  | cons p ps ih => rw [truths, ih, List.map_cons]

/-- A conjunction accepts what every conjunct accepts. -/
theorem accepts_and (ps : List Predicate) (row : Json) :
    (Predicate.and ps).accepts row = ps.all (·.accepts row) := by
  rw [accepts, truth, truths_eq_map, Truth.holds_all, List.all_map]
  rfl

/-- A disjunction accepts what some disjunct accepts. -/
theorem accepts_or (ps : List Predicate) (row : Json) :
    (Predicate.or ps).accepts row = ps.any (·.accepts row) := by
  rw [accepts, truth, truths_eq_map, Truth.holds_any, List.any_map]
  rfl

/-- The empty predicate accepts every row. -/
theorem accepts_of_isEmpty {p : Predicate} (h : p.isEmpty = true) (row : Json) :
    p.accepts row = true := by
  unfold isEmpty at h
  split at h
  · rfl
  · cases h

/-- Wrapping several predicates into one conjunction, or none into no predicate. -/
theorem accepts?_compose_and (ps : List Predicate) (row : Json) :
    accepts? (compose .and ps) row = ps.all (·.accepts row) := by
  match ps with
  | [] => rfl
  | [p] => simp [compose, accepts?]
  | p :: q :: rest => simp only [compose, accepts?, Option.all_some, accepts_and]

/-- A merged filter accepts what every clause accepts; clauses that say nothing are no loss. -/
theorem accepts?_mergeAnd (clauses : List (Option Predicate)) (row : Json) :
    accepts? (mergeAnd clauses) row = clauses.all (accepts? · row) := by
  rw [mergeAnd, accepts?_compose_and]
  induction clauses with
  | nil => rfl
  | cons clause rest ih =>
    cases clause with
    | none => simpa [present, accepts?] using ih
    | some p =>
      cases hp : p.isEmpty with
      | true => simpa [present, accepts?, hp, accepts_of_isEmpty hp row] using ih
      | false => simpa [present, accepts?, hp] using congrArg (p.accepts row && ·) ih

/-! ## What is read of a row -/

/-- A test of the values behind a path holds when some value passes, behind a relation or not. -/
theorem holds_leafTruth (row : Json) (path : Path) (test : Json → Truth) :
    (leafTruth row path test).holds = (path.valuesIn row).any fun v => (test v).holds := by
  simp only [leafTruth]
  split
  · rw [Truth.holds_ofBool]
  · rw [Truth.holds_any, List.any_map]
    rfl

theorem accepts_equals (path : Path) (value : Scalar) (row : Json) :
    (Predicate.equals path value).accepts row =
      (path.valuesIn row).any fun v => (equalsTruth false v value).holds :=
  holds_leafTruth row path _

theorem accepts_operator (path : Path) (f : Filter) (row : Json) :
    (Predicate.operator path f).accepts row =
      (path.valuesIn row).any fun v => (f.truth v).holds :=
  holds_leafTruth row path _

/-- A test that does not look inside objects does not tell a row from one with the same values behind
the path. -/
theorem leafTruth_of_perm {a b : Json} {path : Path} {test : Json → Truth}
    (unseen : ∀ v, test v.closed = test v)
    (same : ((path.valuesIn a).map Json.closed).Perm ((path.valuesIn b).map Json.closed)) :
    leafTruth a path test = leafTruth b path test := by
  have tests (values : List Json) : values.map test = (values.map Json.closed).map test := by
    rw [List.map_map]
    exact List.map_congr_left fun v _ => (unseen v).symm
  have perm : ((path.valuesIn a).map test).Perm ((path.valuesIn b).map test) := by
    rw [tests, tests (path.valuesIn b)]
    exact same.map test
  unfold leafTruth
  dsimp only
  split
  · have holds (values : List Json) :
        (values.any fun v => (test v).holds) = (values.map test).any Truth.holds := by
      rw [List.any_map]
      rfl
    rw [holds, holds, perm.any_eq]
  · exact Truth.any_perm perm

mutual

/-- **A predicate does not look at the order of the values behind a path**, nor inside of objects. -/
theorem truth_of_perm {a b : Json} : (p : Predicate) →
    (∀ path ∈ p.paths,
      ((path.valuesIn a).map Json.closed).Perm ((path.valuesIn b).map Json.closed)) →
      p.truth a = p.truth b
  | .equals path value, h => by
    rw [truth, truth, leafTruth_of_perm (fun v => equalsTruth_closed false v value)
      (h path (by simp [paths]))]
  | .operator path filter, h => by
    rw [truth, truth, leafTruth_of_perm filter.truth_closed (h path (by simp [paths]))]
  | .and children, h => by rw [truth, truth, truths_of_perm children h]
  | .or children, h => by rw [truth, truth, truths_of_perm children h]
  | .not inner, h => by rw [truth, truth, truth_of_perm inner h]

theorem truths_of_perm {a b : Json} : (ps : List Predicate) →
    (∀ path ∈ pathsOfAll ps,
      ((path.valuesIn a).map Json.closed).Perm ((path.valuesIn b).map Json.closed)) →
      truths a ps = truths b ps
  | [], _ => rfl
  | p :: rest, h => by
    rw [truths, truths, truth_of_perm p fun path hp => h path (List.mem_append_left _ hp),
      truths_of_perm rest fun path hp => h path (List.mem_append_right _ hp)]

end

/-- **A predicate reads the values behind its paths and nothing else of a row.** -/
theorem truth_congr {a b : Json} (p : Predicate)
    (h : ∀ path ∈ p.paths, path.valuesIn a = path.valuesIn b) : p.truth a = p.truth b :=
  truth_of_perm p fun path hp => by rw [h path hp]

end Predicate

end Roster
