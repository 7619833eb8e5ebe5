import Mathlib.Data.String.Basic
import Roster.Proofs.Sql.Meaning
import Roster.Proofs.Text.ByteOrder
import Roster.Schema.Validate
import Roster.Sql.Where

/-!
# The condition of a comparison means the comparison

A comparison is evaluated on a value and compiled to a condition on a column. The two have one
value, of the three, when the column holds the value, the value is of the kind of its field, and the
schema admits the operands (`Sql.truth_ofFilter`).

Integers have to be exact as doubles: evaluation compares doubles, and SQL compares the integers
themselves. What SQL accepts under a bound are the cells that stand in its relation
(`Sql.Cell.holds_test_iff`).
-/

namespace Roster

/-! ## Values of a kind -/

/-- The integer is one that a double keeps apart from its neighbours. -/
def Double.holdsInt (i : Int) : Bool := i.natAbs ≤ Nat.pow 2 53

/-- A field of the kind can hold the value. -/
def FieldKind.stores : FieldKind → Json → Bool
  | _, .null => true
  | .text, .str _ => true
  | .integer, .num (.int i) => Double.holdsInt i
  | .decimal, .num (.int i) => Double.holdsInt i
  | .decimal, .num (.float _) => true
  | .bool, .bool _ => true
  | .timestamp, .str _ => true
  | .uuid, .str _ => true
  | _, _ => false

/-- The operand is compared as it is written. -/
def Scalar.isExact : Scalar → Bool
  | .int i => Double.holdsInt i.toInt
  | _ => true

namespace Comparison

/-- The values that a comparison compares with. -/
def operands : Comparison → List Scalar
  | .equals value => [value]
  | .differs value => [value]
  | .oneOf values => values
  | .noneOf values => values
  | .ordered _ value => [value]
  | .textual _ _ => []

/-- The schema has nothing against the comparison on a field of the kind. -/
def admittedOn (kind : FieldKind) : Comparison → Bool
  | .equals value => kind.admitsNullable value
  | .differs value => kind.admitsNullable value
  | .oneOf values => values.all kind.admits
  | .noneOf values => values.all kind.admits
  | .ordered _ value => kind.admits value
  | .textual _ _ => kind.isText

end Comparison

/-- Every comparison of a valid filter is admitted. -/
theorem Filter.admitted_of_valid {f : Filter} {place : String} {path : Path} {kind : FieldKind}
    (valid : f.problems place path kind = []) : ∀ c ∈ f.comparisons, c.admittedOn kind = true := by
  simp only [problems, List.append_eq_nil_iff, List.map_eq_nil_iff, List.filter_eq_nil_iff,
    Bool.not_eq_true', Bool.not_eq_false, Option.mem_toList] at valid
  obtain ⟨⟨⟨⟨⟨⟨⟨⟨text, equals⟩, differs⟩, lt⟩, lte⟩, gt⟩, gte⟩, oneOf⟩, noneOf⟩ := valid
  have textual : f.matchesText = true → kind.isText = true := by
    intro h
    by_contra other
    simp [h, other] at text
  intro c hc
  simp only [comparisons, List.mem_append, Option.mem_toList, Option.map_eq_some_iff] at hc
  rcases hc with ((((((((((⟨v, hv, rfl⟩ | ⟨v, hv, rfl⟩) | ⟨v, hv, rfl⟩) | ⟨v, hv, rfl⟩) |
    ⟨v, hv, rfl⟩) | ⟨v, hv, rfl⟩) | ⟨v, hv, rfl⟩) | ⟨v, hv, rfl⟩) | ⟨v, hv, rfl⟩) | ⟨v, hv, rfl⟩) |
    ⟨v, hv, rfl⟩)
  · exact equals v hv
  · exact differs v hv
  · exact List.all_eq_true.mpr fun s hs => oneOf s (by rw [hv]; exact hs)
  · exact List.all_eq_true.mpr fun s hs => noneOf s (by rw [hv]; exact hs)
  · exact lt v hv
  · exact lte v hv
  · exact gt v hv
  · exact gte v hv
  all_goals exact textual (by simp [matchesText, hv])

theorem FieldKind.isNull_of_admits {kind : FieldKind} {s : Scalar} (h : kind.admits s = true) :
    s.isNull = false := by
  cases s with
  | null => cases kind <;> cases h
  | _ => rfl

namespace Sql

variable {kind : FieldKind} {v : Json} {s : Scalar} {ss : List Scalar}

/-! ## Cells -/

/-- In a linear order the comparison of two values tells the relations that they stand in. -/
instance (priority := low) lawfulOrderOrd {α : Type _} [LinearOrder α] :
    Std.LawfulOrderOrd α where
  isLE_compare _ _ := Ordering.isLE_iff_ne_gt.trans compare_le_iff_le
  isGE_compare _ _ := Ordering.isGE_iff_ne_lt.trans compare_ge_iff_ge

namespace Cell

/-- The relation of two cells that a bound is named for. Numbers stand in it as rational numbers and
texts as they do character by character; `false` is below `true`. Other cells do not. -/
def Relates (bound : Bound) : Cell → Cell → Prop
  | .bool a, .bool b => bound.Relates a b
  | .number a, .number b => bound.Relates a b
  | .text a, .text b => bound.Relates a b
  | _, _ => False

theorem order?_of_isNull {a b : Cell} (absent : (a.isNull || b.isNull) = true) :
    a.order? b = none := by
  cases a with
  | null => rfl
  | _ =>
    cases b with
    | null => rfl
    | _ => cases absent

theorem holds_test (accepts : Ordering → Bool) (a b : Cell) :
    (a.test accepts b).holds = (a.order? b).any accepts := by
  rw [test]
  split
  · next absent =>
    rw [order?_of_isNull absent]
    rfl
  · exact Truth.holds_ofBool _

/-- **A comparison with a bound holds for the cells that stand in its relation.** -/
theorem holds_test_iff (bound : Bound) (a b : Cell) :
    (a.test bound.accepts b).holds = true ↔ a.Relates bound b := by
  rw [holds_test]
  cases a with
  | null => exact ⟨nofun, nofun⟩
  | bool a =>
    cases b with
    | bool b => exact bound.accepts_compare a b
    | _ => exact ⟨nofun, nofun⟩
  | number a =>
    cases b with
    | number b => exact bound.accepts_compare a b
    | _ => exact ⟨nofun, nofun⟩
  | text a =>
    cases b with
    | text b =>
      rw [order?, Option.any_some, Text.compare_bytes]
      exact bound.accepts_compare a b
    | _ => exact ⟨nofun, nofun⟩

theorem isNull_ofJson (h : kind.stores v = true) : (ofJson v).isNull = v.isNull := by
  cases v with
  | num n => cases n <;> rfl
  | arr items => cases kind <;> cases h
  | obj fields => cases kind <;> cases h
  | _ => rfl

theorem ofJson_of_isNull (h : v.isNull = true) : ofJson v = .null := by
  cases v with
  | null => rfl
  | _ => cases h

theorem isNull_ofScalar (s : Scalar) : (ofScalar s).isNull = s.isNull := by cases s <;> rfl

/-- A number that a field holds stands in its cell as what it is as a double. -/
theorem ofJson_num {n : Json.Number} (h : kind.stores (.num n) = true) :
    ofJson (.num n) = .number n.toDouble.value := by
  cases n with
  | float d => rfl
  | int i =>
    have precise : Double.holdsInt i = true := by
      cases kind with
      | integer => exact h
      | decimal => exact h
      | _ => cases h
    rw [Json.Number.toDouble, Double.value_ofInt (of_decide_eq_true precise)]
    rfl

/-- So does a number that is an operand. -/
theorem ofScalar_int {i : Int64} (precise : (Scalar.int i).isExact = true) :
    ofScalar (.int i) = .number (Double.ofInt i.toInt).value := by
  rw [Double.value_ofInt (of_decide_eq_true precise)]
  rfl

/-- **Cells compare as the values that they hold.** Values of two sorts do not compare. -/
theorem order?_ofScalar (h : kind.stores v = true) (precise : s.isExact = true)
    (present : v.isNull = false) : (ofJson v).order? (ofScalar s) = compareWith false v s := by
  cases v with
  | null => cases present
  | num n =>
    rw [ofJson_num h]
    cases s with
    | int i => rw [ofScalar_int precise, order?, compareWith, Double.order_eq_compare]
    | float d => rw [ofScalar, order?, compareWith, Double.order_eq_compare]
    | _ => rfl
  | str a =>
    cases s with
    | text b =>
      rw [ofJson, ofScalar, order?, Text.compare_bytes]
      rfl
    | _ => rfl
  | bool a => cases s <;> rfl
  | arr items => cases s <;> rfl
  | obj fields => cases s <;> rfl

/-- A comparison with an operand that is not null. -/
theorem test_ofScalar (h : kind.stores v = true) (admits : kind.admits s = true)
    (precise : s.isExact = true) (accepts : Ordering → Bool) :
    (ofJson v).test accepts (ofScalar s) =
      if v.isNull then .unknown else .ofBool ((compareWith false v s).any accepts) := by
  rw [test, isNull_ofJson h, isNull_ofScalar, FieldKind.isNull_of_admits admits, Bool.or_false]
  cases hv : v.isNull with
  | true => rfl
  | false => rw [order?_ofScalar h precise hv]

/-- Equality with an operand that is not null. -/
theorem equals_ofScalar (h : kind.stores v = true) (admits : kind.admits s = true)
    (precise : s.isExact = true) :
    (ofJson v).equals (ofScalar s) =
      if v.isNull then .unknown else .ofBool (equalTo false v s) := by
  rw [equals, test_ofScalar h admits precise, equalTo]
  cases compareWith false v s <;> rfl

/-- A null cell is unknown to be in a list, unless the list is empty. -/
theorem isIn_of_null (ss : List Scalar) :
    null.isIn ss = if ss.isEmpty then .no else .unknown := by
  rw [isIn]
  induction ss with
  | nil => rfl
  | cons s ss ih =>
    rw [List.map_cons, Truth.any_cons, ih]
    cases ss <;> rfl

/-- Any other cell is in a list or not. -/
theorem isIn_ofJson (h : kind.stores v = true) (present : v.isNull = false)
    (admits : ∀ s ∈ ss, kind.admits s = true) (precise : ∀ s ∈ ss, s.isExact = true) :
    (ofJson v).isIn ss = .ofBool (ss.any (equalTo false v)) := by
  rw [isIn]
  induction ss with
  | nil => rfl
  | cons s ss ih =>
    have first := equals_ofScalar h (admits s List.mem_cons_self) (precise s List.mem_cons_self)
    have rest := ih (fun s hs => admits s (List.mem_cons_of_mem _ hs))
      (fun s hs => precise s (List.mem_cons_of_mem _ hs))
    rw [List.map_cons, Truth.any_cons, first, rest, present, List.any_cons]
    cases equalTo false v s <;> cases ss.any (equalTo false v) <;> rfl

/-- A text is like the pattern of a term where the term stands in it. -/
theorem like_patternOf (h : FieldKind.text.stores v = true) (place : TextMatch) (term : String) :
    (ofJson v).like false (patternOf place term.toList) = textualTruth false place v term := by
  cases v with
  | str text =>
    have plain := likes_patternOf place text term
    rw [ofJson, like, textualTruth]
    simpa [comparedText] using congrArg Truth.ofBool plain
  | null => rfl
  | num n => cases n <;> cases h
  | _ => cases h

end Cell

/-! ## Comparisons -/

theorem present_of_admits (admits : ∀ s ∈ ss, kind.admits s = true) : present ss = ss := by
  rw [present, List.filter_eq_self]
  intro s hs
  rw [FieldKind.isNull_of_admits (admits s hs)]
  rfl

theorem any_isNull_of_admits (admits : ∀ s ∈ ss, kind.admits s = true) :
    ss.any Scalar.isNull = false := by
  rw [List.any_eq_false]
  intro s hs
  rw [FieldKind.isNull_of_admits (admits s hs)]
  exact Bool.false_ne_true

/-- A filter that does not ignore case compares texts like all other values. -/
theorem matchesValue_default (column : Column) (s : Scalar) :
    matchesValue false column s = holds column s := by
  cases s <;> rfl

variable {db : Database} {env : Alias → Record} {column : Column}

section

variable (reads : env column.row column.name = .ofJson v) (h : kind.stores v = true)

include reads h

/-- The column holds a value. -/
theorem truth_holds (admits : kind.admitsNullable s = true) (precise : s.isExact = true) :
    (holds column s).truth db env = equalsTruth false v s := by
  rw [holds, equalsTruth]
  cases hs : s.isNull with
  | true => simp [Condition.truth, reads, Cell.isNull_ofJson h]
  | false =>
    have admits : kind.admits s = true := by simpa [FieldKind.admitsNullable, hs] using admits
    simp [Condition.truth, reads, Cell.equals_ofScalar h admits precise]

/-- The column holds something else: a null column does, unless null is excluded. -/
theorem truth_differsFrom (admits : kind.admitsNullable s = true) (precise : s.isExact = true) :
    (differsFrom false column s).truth db env = differsTruth false v s := by
  rw [differsFrom, differsTruth]
  cases hs : s.isNull with
  | true => simp [Condition.truth, reads, Cell.isNull_ofJson h]
  | false =>
    have admits : kind.admits s = true := by simpa [FieldKind.admitsNullable, hs] using admits
    have value : (matchesValue false column s).truth db env =
        if v.isNull then .unknown else .ofBool (equalTo false v s) := by
      rw [matchesValue_default, holds, hs, if_neg Bool.false_ne_true, Condition.truth, reads,
        Cell.equals_ofScalar h admits precise]
    simp only [Bool.false_eq_true, if_false, Condition.truth_any, List.map_cons, List.map_nil,
      Condition.truth, value, reads, Cell.isNull_ofJson h]
    cases v.isNull <;> cases equalTo false v s <;> rfl

/-- The column holds one of some values: no list names null. -/
theorem truth_holdsOneOf (admits : ∀ s ∈ ss, kind.admits s = true)
    (precise : ∀ s ∈ ss, s.isExact = true) :
    (holdsOneOf false column ss).truth db env = oneOfTruth false v ss := by
  rw [holdsOneOf, oneOfTruth, present_of_admits admits, any_isNull_of_admits admits]
  cases ss with
  | nil => simp [Condition.truth_any, Truth.ofBool]
  | cons s ss =>
    cases hv : v.isNull with
    | true =>
      simp [Condition.truth_any, Condition.truth, reads, Cell.ofJson_of_isNull hv,
        Cell.isIn_of_null]
    | false =>
      simp [Condition.truth_any, Condition.truth, reads, Cell.isIn_ofJson h hv admits precise]

/-- The column holds none of some values: a null column does, for no list names null. -/
theorem truth_holdsNoneOf (admits : ∀ s ∈ ss, kind.admits s = true)
    (precise : ∀ s ∈ ss, s.isExact = true) :
    (holdsNoneOf column ss).truth db env = noneOfTruth false v ss := by
  rw [holdsNoneOf, noneOfTruth, present_of_admits admits, any_isNull_of_admits admits]
  cases ss with
  | nil => cases v <;> rfl
  | cons s ss =>
    cases hv : v.isNull with
    | true =>
      have excluded : (Condition.isNotIn column (s :: ss)).truth db env = .unknown := by
        rw [Condition.truth, reads, Cell.ofJson_of_isNull hv, Cell.isIn_of_null]
        rfl
      have null : (Condition.isNull column).truth db env = .yes := by
        rw [Condition.truth, reads, Cell.isNull_ofJson h, hv]
        rfl
      simp only [List.isEmpty_cons, Condition.truth_any, List.map_cons, List.map_nil, excluded,
        null]
      rfl
    | false =>
      simp only [List.isEmpty_cons, Condition.truth_any, List.map_cons, List.map_nil,
        Condition.truth, reads, Cell.isIn_ofJson h hv admits precise, Cell.isNull_ofJson h, hv]
      cases (s :: ss).any (equalTo false v) <;> rfl

/-- **The condition of a comparison has the value of the comparison.** -/
theorem truth_ofComparison {c : Comparison} (admitted : c.admittedOn kind = true)
    (precise : ∀ s ∈ c.operands, s.isExact = true) :
    (ofComparison false column c).truth db env = c.truth false v := by
  cases c with
  | equals operand =>
    rw [ofComparison, matchesValue_default, Comparison.truth]
    exact truth_holds reads h admitted (precise operand (List.mem_singleton_self _))
  | differs operand =>
    exact truth_differsFrom reads h admitted (precise operand (List.mem_singleton_self _))
  | oneOf operands => exact truth_holdsOneOf reads h (List.all_eq_true.mp admitted) precise
  | noneOf operands => exact truth_holdsNoneOf reads h (List.all_eq_true.mp admitted) precise
  | ordered bound operand =>
    have precise := precise operand (List.mem_singleton_self _)
    rw [ofComparison, Condition.truth, reads, Cell.test_ofScalar h admitted precise,
      Comparison.truth, orderedTruth, FieldKind.isNull_of_admits admitted, Bool.or_false]
  | textual place term =>
    obtain rfl : kind = .text := of_decide_eq_true admitted
    rw [ofComparison, Condition.truth, reads, Cell.like_patternOf h, Comparison.truth]

/-- **The condition of a filter has the value of the filter.** -/
theorem truth_ofFilter {f : Filter} (plain : f.ignoreCase = false)
    (admitted : ∀ c ∈ f.comparisons, c.admittedOn kind = true)
    (precise : ∀ c ∈ f.comparisons, ∀ s ∈ c.operands, s.isExact = true) :
    (ofFilter column f).truth db env = f.truth v := by
  rw [ofFilter, Condition.truth_all, List.map_map, Filter.truth, plain]
  refine congrArg Truth.all (List.map_congr_left fun c hc => ?_)
  exact truth_ofComparison reads h (admitted c hc) (precise c hc)

end

end Sql

end Roster
