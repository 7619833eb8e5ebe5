import Roster.Proofs.Number.Integers
import Roster.Proofs.Sql.Comparison

/-!
# Comparisons with integers

An integer is compared with integer operands by the doubles nearest to them. A comparison asks no more
than how the integer stands to each operand, so it says of the integer what it says of any other one
that stands to the operands as the doubles do (`Comparison.holds_truth_integer`). If no operand blurs
with the integer, that is the integer itself. If the only operand does, it is the operand.
-/

namespace Roster

/-- The integer that an operand is. -/
def Scalar.integer? : Scalar → Option Int
  | .int i => some i.toInt
  | _ => none

variable {a b : Int} {s : Scalar} {ignoring : Bool}

namespace Comparison

/-- The comparison compares with integers alone. -/
def ofIntegers : Comparison → Bool
  | .textual _ _ => false
  | c => c.operands.all fun s => s.integer?.isSome

/-- The relation of integers that the comparison is named for. -/
def Relates (a : Int) : Comparison → Prop
  | .equals s => s.integer? = some a
  | .differs s => s.integer? ≠ some a
  | .oneOf operands => ∃ s ∈ operands, s.integer? = some a
  | .noneOf operands => ∀ s ∈ operands, s.integer? ≠ some a
  | .ordered bound s => ∀ b ∈ s.integer?, bound.Relates a b
  | .textual _ _ => False

/-- The nearest doubles stand to one another as the other integer stands to the operands. -/
def SeenAs (c : Comparison) (a other : Int) : Prop :=
  ∀ s ∈ c.operands, ∀ b ∈ s.integer?, (Double.ofInt a).order (Double.ofInt b) = compare other b

/-- An integer is seen as what it is by operands that do not blur with it. -/
theorem seenAs_self {c : Comparison}
    (apart : ∀ s ∈ c.operands, ∀ b ∈ s.integer?, ¬Double.Blurs a b) : c.SeenAs a a := by
  intro s hs b hb
  rw [Double.order_ofInt, if_neg (apart s hs b hb)]

/-- An integer that blurs with the only operand is seen as the operand. -/
theorem seenAs_operand {c : Comparison} (only : c.operands = [s]) (hb : s.integer? = some b)
    (blurs : Double.Blurs a b) : c.SeenAs a b := by
  intro t ht b' hb'
  rw [only, List.mem_singleton] at ht
  have same : b' = b := Option.some.inj (hb'.symm.trans (ht ▸ hb))
  rw [same, Double.order_ofInt, if_pos blurs, compare_eq_iff_eq.mpr rfl]

end Comparison

theorem compareWith_integer (hb : s.integer? = some b) :
    compareWith ignoring (.num (.int a)) s = some ((Double.ofInt a).order (Double.ofInt b)) := by
  cases s with
  | int i =>
    cases hb
    rfl
  | _ => cases hb

/-- An integer equals an operand if the integer that it is seen as does. -/
theorem equalTo_integer {other : Int} (integer : s.integer?.isSome = true)
    (seen : ∀ b ∈ s.integer?, (Double.ofInt a).order (Double.ofInt b) = compare other b) :
    equalTo ignoring (.num (.int a)) s = true ↔ s.integer? = some other := by
  obtain ⟨b, hb⟩ := Option.isSome_iff_exists.mp integer
  rw [equalTo, compareWith_integer hb, seen b hb, beq_iff_eq, hb, Option.some.injEq,
    Option.some.injEq, compare_eq_iff_eq, eq_comm]

theorem Scalar.isNull_of_integer (integer : s.integer?.isSome = true) : s.isNull = false := by
  cases s with
  | null => cases integer
  | _ => rfl

/-- **A comparison with integers says of an integer what it is named for of the one that it is seen
as.** -/
theorem Comparison.holds_truth_integer {c : Comparison} {other : Int} (integers : c.ofIntegers = true)
    (seen : c.SeenAs a other) :
    (c.truth ignoring (.num (.int a))).holds = true ↔ c.Relates other := by
  have present : (Json.num (.int a)).isNull = false := rfl
  cases c with
  | equals s =>
    have integer : s.integer?.isSome = true := List.all_eq_true.mp integers s List.mem_cons_self
    rw [truth, equalsTruth, if_neg (by simp [Scalar.isNull_of_integer integer]),
      if_neg (by simp [present]), Truth.holds_ofBool]
    exact equalTo_integer integer (seen s List.mem_cons_self)
  | differs s =>
    have integer : s.integer?.isSome = true := List.all_eq_true.mp integers s List.mem_cons_self
    rw [truth, differsTruth, if_neg (by simp [Scalar.isNull_of_integer integer]),
      if_neg (by simp [present]), Truth.holds_ofBool, Bool.not_eq_true', ← Bool.not_eq_true]
    exact not_congr (equalTo_integer integer (seen s List.mem_cons_self))
  | oneOf operands =>
    rw [truth, oneOfTruth, if_neg (by simp [present]), Truth.holds_ofBool, List.any_eq_true]
    refine exists_congr fun s => and_congr_right fun member => ?_
    exact equalTo_integer (List.all_eq_true.mp integers s member) (seen s member)
  | noneOf operands =>
    rw [truth, noneOfTruth, if_neg (by simp [present]), Truth.holds_ofBool, Bool.not_eq_true',
      List.any_eq_false]
    refine forall_congr' fun s => imp_congr_right fun member => ?_
    exact not_congr (equalTo_integer (List.all_eq_true.mp integers s member) (seen s member))
  | ordered bound s =>
    have integer : s.integer?.isSome = true := List.all_eq_true.mp integers s List.mem_cons_self
    obtain ⟨b, hb⟩ := Option.isSome_iff_exists.mp integer
    rw [truth, orderedTruth, if_neg (by simp [Scalar.isNull_of_integer integer, present]),
      Truth.holds_ofBool, compareWith_integer hb, seen s List.mem_cons_self b hb, Option.any_some,
      Bound.accepts_compare]
    simp [Relates, hb]
  | textual => cases integers

end Roster
