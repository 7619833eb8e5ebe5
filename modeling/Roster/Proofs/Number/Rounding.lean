import Mathlib.Data.Nat.Log
import Roster.Proofs.Number.Interval

/-!
# Rounding keeps order

A JSON number is compared as the double nearest to it. Doubles stay what they are and magnitudes keep
their order when they are rounded (`Double.nearestRank_mono`), so a number whose double is less than
that of another one is less (`Json.Number.value_lt_of_order`). The other way round two different
numbers can have one double, and then they compare as equal.
-/

namespace Roster

namespace Double

/-! ## Magnitudes -/

theorem div_le_roundHalfEven (num den : Nat) : num / den ≤ roundHalfEven num den := by
  unfold roundHalfEven
  dsimp only
  split
  · exact Nat.le_succ _
  · exact Nat.le_refl _

theorem roundHalfEven_le_succ (num den : Nat) : roundHalfEven num den ≤ num / den + 1 := by
  unfold roundHalfEven
  dsimp only
  split
  · exact Nat.le_refl _
  · exact Nat.le_succ _

/-- Quotients by one number keep their order when they are rounded. -/
theorem roundHalfEven_mono {a b : Nat} (den : Nat) (h : a ≤ b) :
    roundHalfEven a den ≤ roundHalfEven b den := by
  rcases Nat.lt_or_eq_of_le (Nat.div_le_div_right (c := den) h) with below | same
  · calc
      roundHalfEven a den ≤ a / den + 1 := roundHalfEven_le_succ a den
      _ ≤ b / den := below
      _ ≤ roundHalfEven b den := div_le_roundHalfEven b den
  · -- both stand between the same whole numbers, and the greater one leaves the greater rest
    have rest : a % den ≤ b % den := by
      have ha := Nat.div_add_mod a den
      have hb := Nat.div_add_mod b den
      rw [same] at ha
      omega
    unfold roundHalfEven
    dsimp only
    rw [same]
    split
    · next up =>
      rw [if_pos]
      omega
    · split
      · exact Nat.le_succ _
      · exact Nat.le_refl _

/-- The rank nearest to a magnitude, as if there were a double for every rank. -/
def nearestRank (units : Nat) : Nat :=
  (units.log2 - 52) * Nat.pow 2 52 + roundHalfEven units (Nat.pow 2 (units.log2 - 52))

theorem two_pow_pos (shift : Nat) : 0 < Nat.pow 2 shift := Nat.pow_pos (by decide)

theorem pow_shift (bits shift : Nat) : Nat.pow 2 bits * Nat.pow 2 shift = Nat.pow 2 (bits + shift) :=
  (Nat.pow_add 2 bits shift).symm

/-- Before the point where it is rounded a magnitude has no more than 53 bits. -/
theorem nearestRank_le (units : Nat) :
    nearestRank units ≤ (units.log2 - 52 + 2) * Nat.pow 2 52 := by
  have bits : units ≤ Nat.pow 2 53 * Nat.pow 2 (units.log2 - 52) := by
    rw [pow_shift]
    calc
      units ≤ 2 ^ (units.log2 + 1) := Nat.le_of_lt Nat.lt_log2_self
      _ ≤ 2 ^ (53 + (units.log2 - 52)) := Nat.pow_le_pow_right (by decide) (by omega)
  have word : roundHalfEven (Nat.pow 2 53 * Nat.pow 2 (units.log2 - 52))
      (Nat.pow 2 (units.log2 - 52)) = Nat.pow 2 53 := by
    have positive : 0 < Nat.pow 2 (units.log2 - 52) := two_pow_pos _
    rw [roundHalfEven_of_dvd (Nat.dvd_mul_left _ _), Nat.mul_div_cancel _ positive]
  calc
    nearestRank units ≤ (units.log2 - 52) * Nat.pow 2 52 + Nat.pow 2 53 :=
      Nat.add_le_add_left (word ▸ roundHalfEven_mono _ bits) _
    _ = (units.log2 - 52 + 2) * Nat.pow 2 52 := by
      rw [Nat.add_mul]

/-- Beyond the first binades it has 53 bits there. -/
theorem le_nearestRank {units : Nat} (h : 52 < units.log2) :
    (units.log2 - 52 + 1) * Nat.pow 2 52 ≤ nearestRank units := by
  have nonzero : units ≠ 0 := by
    rintro rfl
    exact absurd h (by decide)
  have bits : Nat.pow 2 52 * Nat.pow 2 (units.log2 - 52) ≤ units := by
    rw [pow_shift, Nat.add_sub_cancel' (Nat.le_of_lt h)]
    exact Nat.log2_self_le nonzero
  have word : Nat.pow 2 52 ≤ units / Nat.pow 2 (units.log2 - 52) :=
    (Nat.le_div_iff_mul_le (two_pow_pos _)).mpr bits
  calc
    (units.log2 - 52 + 1) * Nat.pow 2 52 = (units.log2 - 52) * Nat.pow 2 52 + Nat.pow 2 52 := by
      rw [Nat.add_mul, Nat.one_mul]
    _ ≤ nearestRank units :=
      Nat.add_le_add_left (Nat.le_trans word (div_le_roundHalfEven _ _)) _

/-- **Magnitudes keep their order when they are rounded.** -/
theorem nearestRank_mono : Monotone nearestRank := by
  intro a b h
  have exponents : a.log2 ≤ b.log2 := by
    rw [Nat.log2_eq_log_two, Nat.log2_eq_log_two]
    exact Nat.log_mono_right h
  rcases Nat.lt_or_eq_of_le (Nat.sub_le_sub_right exponents 52) with below | same
  · calc
      nearestRank a ≤ (a.log2 - 52 + 2) * Nat.pow 2 52 := nearestRank_le a
      _ ≤ (b.log2 - 52 + 1) * Nat.pow 2 52 := Nat.mul_le_mul_right _ (by omega)
      _ ≤ nearestRank b := le_nearestRank (by omega)
  · unfold nearestRank
    rw [same]
    exact Nat.add_le_add_left (roundHalfEven_mono _ h) _

/-- **A double is nearest to itself.** -/
theorem nearestRank_unitsOfRank (rank : Nat) : nearestRank (unitsOfRank rank) = rank := by
  refine unitsOfRank_strictMono.injective (unitsOfRank_of_dvd ?_)
  have fraction := Nat.mod_lt rank (show 0 < Nat.pow 2 52 from two_pow_pos 52)
  have word : Nat.pow 2 53 = 2 * Nat.pow 2 52 := rfl
  unfold unitsOfRank
  dsimp only
  split
  · have small : rank % Nat.pow 2 52 ≤ Nat.pow 2 53 := by omega
    have whole := pow_shift_dvd 0 small
    rwa [show Nat.pow 2 0 = 1 from rfl, Nat.mul_one] at whole
  · exact pow_shift_dvd _ (by omega)

/-! ## Signed magnitudes -/

/-- The place of the double nearest to a signed magnitude, the last one standing for all beyond it. -/
def nearestPlace (units : Int) : Int :=
  let rank := min (nearestRank units.natAbs) (rankBound - 1)
  if units < 0 then -rank else rank

theorem nearestPlace_mono {a b : Int} (h : a ≤ b) : nearestPlace a ≤ nearestPlace b := by
  have larger {x y : Int} (size : x.natAbs ≤ y.natAbs) :
      min (nearestRank x.natAbs) (rankBound - 1) ≤ min (nearestRank y.natAbs) (rankBound - 1) :=
    min_le_min_right _ (nearestRank_mono size)
  unfold nearestPlace
  dsimp only
  split <;> split
  · have := larger (x := b) (y := a) (by omega)
    omega
  · omega
  · omega
  · have := larger (x := a) (y := b) (by omega)
    omega

/-- A double has the place nearest to its own magnitude. -/
theorem nearestPlace_signedUnits (d : Double) : nearestPlace d.signedUnits = d.place := by
  have finite : min d.rank (rankBound - 1) = d.rank :=
    Nat.min_eq_left (Nat.le_sub_one_of_lt d.rank_lt)
  have size : d.signedUnits.natAbs = unitsOfRank d.rank := by
    unfold signedUnits units
    split <;> simp
  have zero : unitsOfRank d.rank = 0 → d.rank = 0 := fun h =>
    unitsOfRank_strictMono.injective (h.trans unitsOfRank_zero.symm)
  unfold nearestPlace
  rw [size, nearestRank_unitsOfRank, finite]
  unfold signedUnits units place
  dsimp only
  cases d.negative with
  | false =>
    rw [if_neg Bool.false_ne_true, if_neg Bool.false_ne_true,
      if_neg (Int.not_lt.mpr (Int.natCast_nonneg _))]
  | true =>
    -- the rank of a negative zero is zero
    rw [if_pos rfl, if_pos rfl]
    split <;> omega

theorem nearestPlace_mul (i : Int) {scale : Nat} (positive : 0 < scale) :
    nearestPlace (i * scale) =
      let rank : Int := (min (nearestRank (i.natAbs * scale)) (rankBound - 1) : Nat)
      if i < 0 then -rank else rank := by
  have size : (i * scale).natAbs = i.natAbs * scale := by
    rw [Int.natAbs_mul, Int.natAbs_natCast]
  have sign : i * scale < 0 ↔ i < 0 := by
    have positive := Int.natCast_pos.mpr positive
    exact ⟨fun h => Int.neg_of_mul_neg_left h positive,
      fun h => Int.mul_neg_of_neg_of_pos h positive⟩
  unfold nearestPlace
  rw [size]
  simp only [sign]

/-- The magnitude of one, in steps of `2⁻¹⁰⁷⁴`. -/
def unitsOfOne : Nat := Nat.pow 2 1074

theorem unitsOfOne_pos : 0 < unitsOfOne := by
  unfold unitsOfOne
  apply two_pow_pos

theorem cast_two_pow (shift : Nat) : ((Nat.pow 2 shift : Nat) : ℚ) = 2 ^ shift := by
  rw [Nat.pow_eq, Nat.cast_pow, Nat.cast_ofNat]

/-- An integer is made the double nearest to it. -/
theorem place_ofInt (i : Int) : (ofInt i).place = nearestPlace (i * unitsOfOne) := by
  have rank : nearestRank (i.natAbs * unitsOfOne) = rankNearest i.natAbs 1 := by
    rw [rankNearest_one]
    unfold nearestRank unitsOfOne
    rfl
  rw [nearestPlace_mul i unitsOfOne_pos, rank, ofInt]
  generalize rankNearest i.natAbs 1 = rank
  split
  · next finite =>
    rw [Nat.min_eq_left (Nat.le_sub_one_of_lt finite)]
    simp only [place, decide_eq_true_eq]
  · next infinite =>
    rw [Nat.min_eq_right (by omega)]
    simp only [place, decide_eq_true_eq]

end Double

namespace Json.Number

/-- The rational number that is written. -/
def value : Number → ℚ
  | .int i => i
  | .float d => d.value

/-- The signed magnitude, in steps of `2⁻¹⁰⁷⁴`. -/
def units : Number → Int
  | .int i => i * Double.unitsOfOne
  | .float d => d.signedUnits

theorem value_eq (n : Number) : n.value = n.units / Double.unitsOfOne := by
  have positive : (0 : ℚ) < Double.unitsOfOne := Nat.cast_pos.mpr Double.unitsOfOne_pos
  cases n with
  | int i =>
    rw [value, units, Int.cast_mul, Int.cast_natCast, mul_div_cancel_right₀ _ positive.ne']
  | float d =>
    rw [value, units, Double.value]
    unfold Double.unitsOfOne
    apply congrArg
    symm
    apply Double.cast_two_pow

theorem value_lt_iff (m n : Number) : m.value < n.value ↔ m.units < n.units := by
  have positive : (0 : ℚ) < Double.unitsOfOne := Nat.cast_pos.mpr Double.unitsOfOne_pos
  rw [value_eq, value_eq, div_lt_div_iff_of_pos_right positive, Int.cast_lt]

theorem place_toDouble (n : Number) : n.toDouble.place = Double.nearestPlace n.units := by
  cases n with
  | int i => exact Double.place_ofInt i
  | float d => exact (Double.nearestPlace_signedUnits d).symm

/-- **A number is less than another one if its double is.** -/
theorem value_lt_of_order {m n : Number} (h : m.toDouble.order n.toDouble = .lt) :
    m.value < n.value := by
  rw [Double.order, compare_lt_iff_lt, place_toDouble, place_toDouble] at h
  rw [value_lt_iff]
  exact Int.not_le.mp fun le => Int.not_le.mpr h (Double.nearestPlace_mono le)

end Json.Number

end Roster
