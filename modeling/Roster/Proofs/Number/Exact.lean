import Mathlib.Algebra.Order.Field.Rat
import Mathlib.Order.Monotone.Basic
import Mathlib.Tactic.Linarith
import Roster.Json.Basic

/-!
# The value of a double

`Double.value` is the rational number that a double stands for. Doubles are compared by their ranks,
and magnitudes grow with ranks, so that is a comparison of the values (`Double.order_eq_compare`).
An integer of at most 53 bits is a double exactly.
-/

namespace Roster.Double

/-! ## Magnitudes grow with ranks -/

/-- The magnitude of the double with some binade and fraction. -/
theorem unitsOfRank_add (binade : Nat) {fraction : Nat} (h : fraction < Nat.pow 2 52) :
    unitsOfRank (binade * Nat.pow 2 52 + fraction) =
      if binade = 0 then fraction else (Nat.pow 2 52 + fraction) * Nat.pow 2 (binade - 1) := by
  have bound : 0 < Nat.pow 2 52 := Nat.pow_pos (by decide)
  have quotient : (binade * Nat.pow 2 52 + fraction) / Nat.pow 2 52 = binade := by
    rw [Nat.mul_comm, Nat.mul_add_div bound, Nat.div_eq_of_lt h, Nat.add_zero]
  have rest : (binade * Nat.pow 2 52 + fraction) % Nat.pow 2 52 = fraction := by
    rw [Nat.mul_comm, Nat.mul_add_mod, Nat.mod_eq_of_lt h]
  simp only [unitsOfRank, quotient, rest]

/-- The distance from the double of a rank to the next one. -/
def stepOfRank (rank : Nat) : Nat := Nat.pow 2 (rank / Nat.pow 2 52 - 1)

theorem stepOfRank_pos (rank : Nat) : 0 < stepOfRank rank := Nat.pow_pos (by decide)

/-- The next double is one step away, at the end of a binade as well. -/
theorem unitsOfRank_succ (rank : Nat) :
    unitsOfRank (rank + 1) = unitsOfRank rank + stepOfRank rank := by
  have bound : 0 < Nat.pow 2 52 := Nat.pow_pos (by decide)
  have fraction := Nat.mod_lt rank bound
  have split : rank = rank / Nat.pow 2 52 * Nat.pow 2 52 + rank % Nat.pow 2 52 := by
    rw [Nat.mul_comm, Nat.div_add_mod]
  unfold stepOfRank
  generalize rank / Nat.pow 2 52 = binade at split
  generalize rank % Nat.pow 2 52 = rest at split fraction
  rw [split, unitsOfRank_add binade fraction]
  by_cases last : rest + 1 = Nat.pow 2 52
  · have next : binade * Nat.pow 2 52 + rest + 1 = (binade + 1) * Nat.pow 2 52 + 0 := by
      rw [Nat.add_assoc, last, Nat.succ_mul, Nat.add_zero]
    rw [next, unitsOfRank_add (binade + 1) bound, if_neg (Nat.succ_ne_zero _), Nat.add_sub_cancel,
      Nat.add_zero]
    cases binade with
    | zero =>
      rw [if_pos rfl]
      change Nat.pow 2 52 * 1 = rest + 1
      rw [Nat.mul_one, last]
    | succ lower =>
      have step : Nat.pow 2 (lower + 1) = 2 * Nat.pow 2 lower := by
        rw [Nat.pow_eq, Nat.pow_eq, Nat.pow_succ, Nat.mul_comm]
      rw [if_neg (Nat.succ_ne_zero _), Nat.add_sub_cancel, step, ← Nat.succ_mul, ← Nat.mul_assoc]
      congr 1
      omega
  · have inside : rest + 1 < Nat.pow 2 52 := by omega
    rw [Nat.add_assoc, unitsOfRank_add binade inside]
    by_cases zero : binade = 0
    · subst zero
      rfl
    · rw [if_neg zero, if_neg zero, ← Nat.add_assoc, Nat.succ_mul]

theorem unitsOfRank_lt_succ (rank : Nat) : unitsOfRank rank < unitsOfRank (rank + 1) := by
  rw [unitsOfRank_succ]
  exact Nat.lt_add_of_pos_right (stepOfRank_pos rank)

theorem unitsOfRank_strictMono : StrictMono unitsOfRank :=
  strictMono_nat_of_lt_succ unitsOfRank_lt_succ

theorem unitsOfRank_zero : unitsOfRank 0 = 0 := by decide

/-! ## Values -/

/-- The rational number that the double stands for. -/
def value (d : Double) : ℚ := d.signedUnits / 2 ^ 1074

/-- Signed magnitudes are ordered as the doubles are placed. -/
theorem signedUnits_lt_iff (a b : Double) : a.signedUnits < b.signedUnits ↔ a.place < b.place := by
  have mono {m n : Nat} : unitsOfRank m < unitsOfRank n ↔ m < n := unitsOfRank_strictMono.lt_iff_lt
  have positive {m : Nat} : 0 < unitsOfRank m ↔ 0 < m := by
    have fromZero := mono (m := 0) (n := m)
    rwa [unitsOfRank_zero] at fromZero
  have left := positive (m := a.rank)
  have right := positive (m := b.rank)
  unfold signedUnits place units
  cases a.negative <;> cases b.negative
  · simpa using mono
  · simp only [Bool.false_eq_true, if_false, if_true]
    omega
  · simp only [Bool.false_eq_true, if_false, if_true]
    omega
  · simpa using mono

theorem value_lt_iff (a b : Double) : a.value < b.value ↔ a.place < b.place := by
  rw [value, value, div_lt_div_iff_of_pos_right (by positivity), Int.cast_lt, signedUnits_lt_iff]

/-- **Comparing doubles is comparing their values.** -/
theorem order_eq_compare (a b : Double) : a.order b = compare a.value b.value := by
  rw [order]
  rcases lt_trichotomy a.place b.place with below | same | above
  · rw [compare_lt_iff_lt.mpr below, compare_lt_iff_lt.mpr ((value_lt_iff a b).mpr below)]
  · have equal : a.value = b.value := by
      refine le_antisymm (not_lt.mp fun h => ?_) (not_lt.mp fun h => ?_)
      · exact absurd ((value_lt_iff b a).mp h) (by omega)
      · exact absurd ((value_lt_iff a b).mp h) (by omega)
    rw [compare_eq_iff_eq.mpr same, compare_eq_iff_eq.mpr equal]
  · rw [compare_gt_iff_gt.mpr above, compare_gt_iff_gt.mpr ((value_lt_iff b a).mpr above)]

/-! ## Integers -/

theorem cast_mul_pow (num scale : Nat) : ((num * Nat.pow 2 scale : Nat) : ℚ) = num * 2 ^ scale := by
  rw [Nat.cast_mul, Nat.pow_eq, Nat.cast_pow, Nat.cast_ofNat]

theorem roundHalfEven_of_dvd {num den : Nat} (h : den ∣ num) :
    roundHalfEven num den = num / den := by
  have rest : num % den = 0 := Nat.mod_eq_zero_of_dvd h
  have small : ¬(2 * 0 > den ∨ (2 * 0 = den ∧ num / den % 2 = 1)) := by
    rintro (above | ⟨zero, odd⟩)
    · omega
    · rw [← zero, Nat.div_zero] at odd
      cases odd
  simp only [roundHalfEven, rest, if_neg small]

/-- What 53 bits write is a word of 53 bits and zeros, at any scale. -/
theorem pow_shift_dvd {num : Nat} (scale : Nat) (h : num ≤ Nat.pow 2 53) :
    Nat.pow 2 ((num * Nat.pow 2 scale).log2 - 52) ∣ num * Nat.pow 2 scale := by
  have sum : Nat.pow 2 53 * Nat.pow 2 scale = Nat.pow 2 (53 + scale) :=
    (Nat.pow_add 2 53 scale).symm
  rcases Nat.lt_or_eq_of_le h with below | rfl
  · refine Nat.dvd_trans (Nat.pow_dvd_pow 2 ?_) (Nat.dvd_mul_left _ num)
    have scaled : num * Nat.pow 2 scale < Nat.pow 2 (53 + scale) := by
      rw [← sum]
      exact Nat.mul_lt_mul_of_pos_right below (Nat.pow_pos (by decide))
    by_cases zero : num * Nat.pow 2 scale = 0
    · rw [zero, Nat.log2_zero]
      exact Nat.zero_le scale
    · have := (Nat.log2_lt zero).mpr scaled
      omega
  · have exponent : (Nat.pow 2 (53 + scale)).log2 = 53 + scale := Nat.log2_two_pow
    rw [sum, exponent]
    exact Nat.pow_dvd_pow 2 (by omega)

/-- The rank of a word and zeros has their magnitude. -/
theorem unitsOfRank_of_dvd {scaled : Nat} (h : Nat.pow 2 (scaled.log2 - 52) ∣ scaled) :
    unitsOfRank ((scaled.log2 - 52) * Nat.pow 2 52 +
      roundHalfEven scaled (Nat.pow 2 (scaled.log2 - 52))) = scaled := by
  rw [roundHalfEven_of_dvd h]
  have positive : 0 < Nat.pow 2 (scaled.log2 - 52) := Nat.pow_pos (by decide)
  obtain ⟨word, hword⟩ := h
  by_cases small : scaled.log2 < 52
  · have below : scaled < Nat.pow 2 52 :=
      Nat.lt_of_lt_of_le Nat.lt_log2_self (Nat.pow_le_pow_right (by decide) small)
    have shift : Nat.pow 2 (scaled.log2 - 52) = 1 := by
      rw [Nat.sub_eq_zero_of_le (Nat.le_of_lt small)]
    rw [shift, Nat.div_one, Nat.sub_eq_zero_of_le (Nat.le_of_lt small), unitsOfRank_add 0 below,
      if_pos rfl]
  · have nonzero : scaled ≠ 0 := by
      rintro rfl
      exact small (by decide)
    generalize hs : scaled.log2 - 52 = shift at hword positive
    have exponent : scaled.log2 = 52 + shift := by omega
    have lower : Nat.pow 2 52 * Nat.pow 2 shift ≤ scaled := by
      have := Nat.log2_self_le nonzero
      rwa [exponent, Nat.pow_add] at this
    have upper : scaled < 2 * Nat.pow 2 52 * Nat.pow 2 shift := by
      have := Nat.lt_log2_self (n := scaled)
      rwa [exponent, Nat.pow_succ, Nat.pow_add, Nat.mul_comm, ← Nat.mul_assoc] at this
    have atLeast : Nat.pow 2 52 ≤ word := by
      rw [hword, Nat.mul_comm] at lower
      exact Nat.le_of_mul_le_mul_left lower positive
    have below : word - Nat.pow 2 52 < Nat.pow 2 52 := by
      rw [hword, Nat.mul_comm] at upper
      have := Nat.lt_of_mul_lt_mul_right upper
      omega
    have quotient : scaled / Nat.pow 2 shift = word := by
      rw [hword, Nat.mul_div_cancel_left _ positive]
    -- the word without its first bit is the fraction, and the first bit counts for one binade
    have rank : shift * Nat.pow 2 52 + word =
        (shift + 1) * Nat.pow 2 52 + (word - Nat.pow 2 52) := by
      rw [Nat.succ_mul]
      omega
    rw [quotient, rank, unitsOfRank_add _ below, if_neg (Nat.succ_ne_zero _), Nat.add_sub_cancel,
      Nat.add_sub_cancel' atLeast, hword, Nat.mul_comm]

theorem rankNearest_one (num : Nat) :
    rankNearest num 1 = ((num * Nat.pow 2 1074).log2 - 52) * Nat.pow 2 52 +
      roundHalfEven (num * Nat.pow 2 1074) (Nat.pow 2 ((num * Nat.pow 2 1074).log2 - 52)) := by
  rw [rankNearest, Nat.one_mul, Nat.div_one]

/-- The magnitude of the first double of a binade. -/
theorem unitsOfRank_binade (binade : Nat) :
    unitsOfRank ((binade + 1) * Nat.pow 2 52) = Nat.pow 2 52 * Nat.pow 2 binade := by
  have zero : 0 < Nat.pow 2 52 := Nat.pow_pos (by decide)
  have first := unitsOfRank_add (binade + 1) zero
  rwa [if_neg (Nat.succ_ne_zero _), Nat.add_sub_cancel, Nat.add_zero, Nat.add_zero] at first

theorem mul_pow_lt {num bits scale word top : Nat} (h : num ≤ Nat.pow 2 bits)
    (small : bits + scale < word + top) : num * Nat.pow 2 scale < Nat.pow 2 word * Nat.pow 2 top :=
  calc
    num * Nat.pow 2 scale ≤ Nat.pow 2 bits * Nat.pow 2 scale := Nat.mul_le_mul_right _ h
    _ = Nat.pow 2 (bits + scale) := (Nat.pow_add 2 bits scale).symm
    _ < Nat.pow 2 (word + top) := Nat.pow_lt_pow_right (by decide) small
    _ = Nat.pow 2 word * Nat.pow 2 top := Nat.pow_add 2 word top

/-- The double nearest to a whole number of at most 53 bits is finite and has its magnitude. -/
theorem exists_units {num : Nat} (h : num ≤ Nat.pow 2 53) :
    ∃ steps : Nat, (steps : ℚ) = num * 2 ^ 1074 ∧ steps < unitsOfRank rankBound ∧
      unitsOfRank (rankNearest num 1) = steps := by
  refine ⟨num * Nat.pow 2 1074, ?_, ?_, ?_⟩
  · apply cast_mul_pow
  · have bound : rankBound = (2046 + 1) * Nat.pow 2 52 := rfl
    rw [bound, unitsOfRank_binade]
    apply mul_pow_lt h
    decide
  · rw [rankNearest_one]
    apply unitsOfRank_of_dvd
    apply pow_shift_dvd
    exact h

/-- **An integer of at most 53 bits is a double exactly.** -/
theorem value_ofInt {i : Int} (h : i.natAbs ≤ Nat.pow 2 53) : (ofInt i).value = i := by
  obtain ⟨steps, hsteps, bound, units⟩ := exists_units h
  have finite : rankNearest i.natAbs 1 < rankBound := by
    rwa [← unitsOfRank_strictMono.lt_iff_lt, units]
  have signed : ((ofInt i).signedUnits : ℚ) = i * 2 ^ 1074 := by
    rcases Int.lt_or_le i 0 with negative | nonneg
    · have size : ((i.natAbs : ℕ) : ℚ) = -i := by
        rw [← Int.cast_natCast, Int.ofNat_natAbs_of_nonpos negative.le, Int.cast_neg]
      simp only [ofInt, dif_pos finite, signedUnits, Double.units, units, decide_eq_true_eq,
        if_pos negative, Int.cast_neg, Int.cast_natCast, hsteps, size, neg_mul, neg_neg]
    · have size : ((i.natAbs : ℕ) : ℚ) = i := by
        rw [← Int.cast_natCast, Int.natAbs_of_nonneg nonneg]
      simp only [ofInt, dif_pos finite, signedUnits, Double.units, units, decide_eq_true_eq,
        if_neg (not_lt.mpr nonneg), Int.cast_natCast, hsteps, size]
  rw [value, signed]
  exact mul_div_cancel_right₀ _ (by positivity)

end Roster.Double
