import Mathlib.Tactic.FieldSimp
import Mathlib.Tactic.Positivity
import Mathlib.Tactic.Ring
import Roster.Proofs.Number.Interval

/-!
# Shortest decimals tell doubles apart

The search for the digits of a double ends on a decimal inside its rounding interval. A grid of
seventeen digits is finer than the interval is wide, whatever the first guess for the place of the
point was, as long as it is not too high; and it is not, because `0.30103` is a little more than the
logarithm of two.

Intervals do not meet, so two doubles with decimals of one value are the same (`shortest_inj`).
-/

namespace Roster

/-- The number that digits stand for. -/
def Digits.value (d : Digits) : ℚ :=
  Nat.ofDigitChars 10 d.digits 0 * 10 ^ (d.point - (d.digits.length : ℤ))

namespace Double

/-- A number lies in an interval over a denominator, whose ends count if it is closed. -/
def Within (low high den : Nat) (closed : Bool) (x : ℚ) : Prop :=
  if closed then (low : ℚ) ≤ x * den ∧ x * den ≤ high else (low : ℚ) < x * den ∧ x * den < high

theorem Within.le {low high den : Nat} {closed : Bool} {x : ℚ} (h : Within low high den closed x) :
    (low : ℚ) ≤ x * den ∧ x * den ≤ high := by
  cases closed with
  | true => exact h
  | false => exact ⟨h.1.le, h.2.le⟩

/-! ## Grids -/

section

variable {low value high den : Nat} {closed tieUp : Bool} {point : Int}

/-- The factor by which a grid is made whole. -/
def gridUp (exponent : Int) : Nat := if exponent < 0 then Nat.pow 10 exponent.natAbs else 1

/-- The worth of a step of the grid over the denominator. -/
def gridUnit (den : Nat) (exponent : Int) : Nat :=
  den * (if exponent < 0 then 1 else Nat.pow 10 exponent.toNat)

theorem gridUp_pos (exponent : Int) : 0 < gridUp exponent := by
  unfold gridUp
  split
  · exact Nat.pow_pos (by decide)
  · exact Nat.one_pos

/-- A step of the grid is a power of ten. -/
theorem gridUnit_eq (den : Nat) (exponent : Int) :
    (gridUnit den exponent : ℚ) = 10 ^ exponent * den * gridUp exponent := by
  unfold gridUnit gridUp
  by_cases negative : exponent < 0
  · obtain ⟨k, rfl⟩ : ∃ k : ℕ, exponent = -k := ⟨exponent.natAbs, by omega⟩
    rw [if_pos negative, if_pos negative]
    simp only [Int.natAbs_neg, Int.natAbs_natCast, Nat.pow_eq, Nat.mul_one, Nat.cast_pow,
      Nat.cast_ofNat, zpow_neg, zpow_natCast]
    field_simp
  · obtain ⟨k, rfl⟩ : ∃ k : ℕ, exponent = k := ⟨exponent.toNat, by omega⟩
    rw [if_neg negative, if_neg negative]
    simp only [Int.toNat_natCast, Nat.pow_eq, Nat.cast_mul, Nat.cast_pow, Nat.cast_ofNat,
      Nat.cast_one, zpow_natCast, mul_one]
    ring

/-- A point of the grid is inside the interval. -/
def insideGrid (low high up unit : Nat) (closed : Bool) (d : Nat) : Bool :=
  if closed then low * up ≤ d * unit && d * unit ≤ high * up
  else low * up < d * unit && d * unit < high * up

theorem within_of_insideGrid {exponent : Int} {d : Nat}
    (inside : insideGrid low high (gridUp exponent) (gridUnit den exponent) closed d = true) :
    Within low high den closed (d * 10 ^ exponent) := by
  have positive : (0 : ℚ) < gridUp exponent := by exact_mod_cast gridUp_pos exponent
  have scaled : ((d * gridUnit den exponent : Nat) : ℚ) =
      d * 10 ^ exponent * den * gridUp exponent := by
    rw [Nat.cast_mul, gridUnit_eq]
    ring
  have lower (n : Nat) : ((n * gridUp exponent : Nat) : ℚ) = n * gridUp exponent := Nat.cast_mul _ _
  unfold insideGrid at inside
  unfold Within
  cases closed with
  | true =>
    simp only [if_true, Bool.and_eq_true, decide_eq_true_eq] at inside ⊢
    obtain ⟨above, below⟩ := inside
    rw [← Nat.cast_le (α := ℚ), scaled, lower] at above
    rw [← Nat.cast_le (α := ℚ), scaled, lower] at below
    exact ⟨le_of_mul_le_mul_right above positive, le_of_mul_le_mul_right below positive⟩
  | false =>
    simp only [Bool.false_eq_true, if_false, Bool.and_eq_true, decide_eq_true_eq] at inside ⊢
    obtain ⟨above, below⟩ := inside
    rw [← Nat.cast_lt (α := ℚ), scaled, lower] at above
    rw [← Nat.cast_lt (α := ℚ), scaled, lower] at below
    exact ⟨lt_of_mul_lt_mul_right above positive.le, lt_of_mul_lt_mul_right below positive.le⟩

theorem insideGrid_of_lt {up unit d : Nat} (above : low * up < d * unit)
    (below : d * unit < high * up) : insideGrid low high up unit closed d = true := by
  cases closed <;> simp [insideGrid, above, below, above.le, below.le]

/-- The grid answers one of the two neighbours that is inside, if one is. -/
theorem gridPoint?_cases (low value high den : Nat) (closed tieUp : Bool) (point : Int) (n : Nat) :
    let inside := insideGrid low high (gridUp (point - n)) (gridUnit den (point - n)) closed
    let floor := value * gridUp (point - n) / gridUnit den (point - n)
    ∃ preferUp : Bool, gridPoint? low value high den closed tieUp point n =
      match inside floor, inside (floor + 1) with
      | true, true => some (if preferUp then floor + 1 else floor)
      | true, false => some floor
      | false, true => some (floor + 1)
      | false, false => none := ⟨_, rfl⟩

theorem within_of_gridPoint? {n d : Nat}
    (h : gridPoint? low value high den closed tieUp point n = some d) :
    Within low high den closed (d * 10 ^ (point - (n : ℤ))) := by
  refine within_of_insideGrid ?_
  obtain ⟨preferUp, eq⟩ := gridPoint?_cases low value high den closed tieUp point n
  rw [eq] at h
  cases first : insideGrid low high (gridUp (point - n)) (gridUnit den (point - n)) closed
      (value * gridUp (point - n) / gridUnit den (point - n)) <;>
    cases second : insideGrid low high (gridUp (point - n)) (gridUnit den (point - n)) closed
      (value * gridUp (point - n) / gridUnit den (point - n) + 1) <;>
    rw [first, second] at h
  · cases h
  · cases h
    exact second
  · cases h
    exact first
  · cases preferUp <;> cases h
    · exact first
    · exact second

/-- A grid that is finer than the interval is wide has a point in it. -/
theorem exists_gridPoint? {n : Nat} (above : low < value) (below : value < high)
    (positive : 0 < den)
    (fine : gridUnit den (point - n) < (high - low) * gridUp (point - n)) :
    ∃ d, gridPoint? low value high den closed tieUp point n = some d := by
  have up := gridUp_pos (point - n)
  have unit : 0 < gridUnit den (point - n) := by
    refine Nat.mul_pos positive ?_
    split
    · exact Nat.one_pos
    · exact Nat.pow_pos (by decide)
  have under := Nat.div_mul_le_self (value * gridUp (point - n)) (gridUnit den (point - n))
  have next := Nat.lt_mul_div_succ (value * gridUp (point - n)) unit
  rw [Nat.mul_comm (gridUnit _ _), Nat.add_one_mul] at next
  have scaledAbove := Nat.mul_lt_mul_of_pos_right above up
  have scaledBelow := Nat.mul_lt_mul_of_pos_right below up
  rw [Nat.sub_mul] at fine
  have found : insideGrid low high (gridUp (point - n)) (gridUnit den (point - n)) closed
        (value * gridUp (point - n) / gridUnit den (point - n)) = true ∨
      insideGrid low high (gridUp (point - n)) (gridUnit den (point - n)) closed
        (value * gridUp (point - n) / gridUnit den (point - n) + 1) = true := by
    by_cases first : low * gridUp (point - n) <
        value * gridUp (point - n) / gridUnit den (point - n) * gridUnit den (point - n)
    · exact .inl (insideGrid_of_lt first (by omega))
    · refine .inr (insideGrid_of_lt (by rw [Nat.add_one_mul]; omega) ?_)
      rw [Nat.add_one_mul]
      omega
  obtain ⟨preferUp, eq⟩ := gridPoint?_cases low value high den closed tieUp point n
  rw [eq]
  rcases found with floor | ceiling
  · rw [floor]
    cases insideGrid low high (gridUp (point - n)) (gridUnit den (point - n)) closed
      (value * gridUp (point - n) / gridUnit den (point - n) + 1) <;> exact ⟨_, rfl⟩
  · rw [ceiling]
    cases insideGrid low high (gridUp (point - n)) (gridUnit den (point - n)) closed
      (value * gridUp (point - n) / gridUnit den (point - n)) <;> exact ⟨_, rfl⟩

/-- A grid of seventeen digits is finer than the interval is wide, if the point is not too high and
the interval not too narrow. -/
theorem gridUnit_lt (reached : (den : ℚ) * 10 ^ (point - 1) ≤ value)
    (wide : value < 10 ^ 16 * (high - low)) :
    gridUnit den (point - (17 : ℕ)) < (high - low) * gridUp (point - (17 : ℕ)) := by
  have scale : (0 : ℚ) < gridUp (point - (17 : ℕ)) := by exact_mod_cast gridUp_pos _
  have finer : (10 : ℚ) ^ (point - (17 : ℕ)) = 10 ^ (point - 1) / 10 ^ 16 := by
    rw [← zpow_natCast, ← zpow_sub₀ (by norm_num)]
    congr 1
    omega
  rw [← Nat.cast_lt (α := ℚ), gridUnit_eq, Nat.cast_mul]
  refine mul_lt_mul_of_pos_right ?_ scale
  rw [finer, div_mul_eq_mul_div, div_lt_iff₀ (by positivity), mul_comm]
  refine lt_of_le_of_lt reached ?_
  rw [Nat.mul_comm] at wide
  exact_mod_cast wide

/-- The search ends on a grid that has a point, if there is one within reach. -/
theorem within_firstGrid (fuel : Nat) : ∀ n : Nat,
    (∃ m, n ≤ m ∧ m < n + fuel ∧
      ∃ d, gridPoint? low value high den closed tieUp point m = some d) →
    Within low high den closed ((firstGrid low value high den closed tieUp point fuel n).1 *
      10 ^ (point - ((firstGrid low value high den closed tieUp point fuel n).2 : ℤ))) := by
  induction fuel with
  | zero =>
    rintro n ⟨m, above, below, _⟩
    omega
  | succ fuel ih =>
    rintro n ⟨m, above, below, d, found⟩
    rw [firstGrid]
    cases here : gridPoint? low value high den closed tieUp point n with
    | some e => exact within_of_gridPoint? here
    | none =>
      refine ih (n + 1) ⟨m, ?_, by omega, d, found⟩
      rcases Nat.eq_or_lt_of_le above with rfl | later
      · rw [here] at found
        cases found
      · exact later

end

/-! ## The place of the point -/

/-- The search for the point stops at the first place that is high enough. -/
theorem decimalPoint_le {num den : Nat} (fuel : Nat) : ∀ start : Int,
    (den : ℚ) * 10 ^ (start - 1) ≤ num →
    (den : ℚ) * 10 ^ (decimalPoint num den fuel start - 1) ≤ num := by
  induction fuel with
  | zero => exact fun start low => low
  | succ fuel ih =>
    intro start low
    have further : (if start < 0 then num * Nat.pow 10 start.natAbs < den
          else num < den * Nat.pow 10 start.toNat) ∨ (den : ℚ) * 10 ^ (start + 1 - 1) ≤ num := by
      rw [add_sub_cancel_right]
      by_cases negative : start < 0
      · rw [if_pos negative]
        refine or_iff_not_imp_left.mpr fun short => ?_
        obtain ⟨k, rfl⟩ : ∃ k : ℕ, start = -k := ⟨start.natAbs, by omega⟩
        simp only [Int.natAbs_neg, Int.natAbs_natCast, Nat.pow_eq, not_lt] at short
        rw [zpow_neg, zpow_natCast, ← div_eq_mul_inv, div_le_iff₀ (by positivity)]
        exact_mod_cast short
      · rw [if_neg negative]
        refine or_iff_not_imp_left.mpr fun short => ?_
        obtain ⟨k, rfl⟩ : ∃ k : ℕ, start = k := ⟨start.toNat, by omega⟩
        simp only [Int.toNat_natCast, Nat.pow_eq, not_lt] at short
        rw [zpow_natCast]
        exact_mod_cast short
    unfold decimalPoint
    simp only
    by_cases reached : (if start < 0 then num * Nat.pow 10 start.natAbs < den
        else num < den * Nat.pow 10 start.toNat)
    · rw [if_pos reached]
      exact low
    · rw [if_neg reached]
      exact ih (start + 1) (further.resolve_left reached)

/-- `0.30103` is a little more than the logarithm of two; over the exponents of doubles the excess
is below one. -/
theorem pow_estimate_le : ∀ e < 1100, 10 ^ (e * 30103 / 100000) ≤ 2 ^ e * 100 := by decide +kernel

theorem le_pow_estimate : ∀ e < 1100, 2 ^ e ≤ 10 ^ ((e * 30103 + 99999) / 100000) * 100 := by
  decide +kernel

/-- The first guess for the point is not too high. -/
theorem estimate_le {e : Int} (low : -1100 < e) (high : e < 1100) :
    (10 : ℚ) ^ (e * 30103 / 100000 - 1 - 1) ≤ 2 ^ e := by
  rcases Int.lt_or_le e 0 with negative | nonneg
  · obtain ⟨k, rfl⟩ : ∃ k : ℕ, e = -k := ⟨e.natAbs, by omega⟩
    have ceiling : -(k : ℤ) * 30103 / 100000 - 1 - 1 =
        -(((k * 30103 + 99999) / 100000 + 2 : ℕ) : ℤ) := by
      omega
    have bound := le_pow_estimate k (by omega)
    rw [ceiling, zpow_neg, zpow_neg, zpow_natCast, zpow_natCast, pow_add]
    refine inv_anti₀ (by positivity) ?_
    exact_mod_cast bound
  · obtain ⟨k, rfl⟩ : ∃ k : ℕ, e = k := ⟨e.toNat, by omega⟩
    have floor : (k : ℤ) * 30103 / 100000 - 1 - 1 = ((k * 30103 / 100000 : ℕ) : ℤ) - 2 := by
      omega
    have bound := pow_estimate_le k (by omega)
    rw [floor, zpow_sub₀ (by norm_num), zpow_natCast, zpow_natCast, div_le_iff₀ (by positivity)]
    exact_mod_cast bound

/-! ## Digits -/

/-- Digits without the zeros at their end. -/
def stripZeros (text : List Char) : List Char := (text.reverse.dropWhile (· == '0')).reverse

theorem ofDigitChars_stripZeros (text : List Char) :
    Nat.ofDigitChars 10 text 0 =
      10 ^ (text.length - (stripZeros text).length) * Nat.ofDigitChars 10 (stripZeros text) 0 := by
  have ends : text.reverse.takeWhile (· == '0') =
      List.replicate (text.reverse.takeWhile (· == '0')).length '0' := by
    rw [List.eq_replicate_iff]
    refine ⟨rfl, fun c hc => ?_⟩
    have zero := List.all_eq_true.mp (List.all_takeWhile (p := (· == '0')) (l := text.reverse)) c hc
    exact beq_iff_eq.mp zero
  have split : text =
      stripZeros text ++ List.replicate (text.reverse.takeWhile (· == '0')).length '0' := by
    have halves := congrArg List.reverse
      (List.takeWhile_append_dropWhile (p := (· == '0')) (l := text.reverse))
    rw [List.reverse_append, List.reverse_reverse, ends, List.reverse_replicate] at halves
    exact halves.symm
  generalize (text.reverse.takeWhile (· == '0')).length = zeros at split
  have length : text.length - (stripZeros text).length = zeros := by
    have := congrArg List.length split
    rw [List.length_append, List.length_replicate] at this
    omega
  rw [length]
  conv_lhs => rw [split]
  rw [Nat.ofDigitChars_append, Nat.ofDigitChars_replicate_zero]

theorem length_stripZeros_le (text : List Char) : (stripZeros text).length ≤ text.length := by
  rw [stripZeros, List.length_reverse]
  exact (List.dropWhile_sublist _).length_le.trans_eq List.length_reverse

/-- The digits of a whole number, with the point moved by the zeros that were cut off. -/
theorem value_stripped (d : Nat) (place : Int) :
    Digits.value ⟨stripZeros (Nat.toDigits 10 d), place + ((Nat.toDigits 10 d).length : ℤ)⟩ =
      d * 10 ^ place := by
  have zeros := ofDigitChars_stripZeros (Nat.toDigits 10 d)
  have shorter := length_stripZeros_le (Nat.toDigits 10 d)
  rw [Nat.ofDigitChars_ten_toDigits] at zeros
  have exponent : place + ((Nat.toDigits 10 d).length : ℤ) -
      ((stripZeros (Nat.toDigits 10 d)).length : ℤ) =
        place + (((Nat.toDigits 10 d).length - (stripZeros (Nat.toDigits 10 d)).length : ℕ) : ℤ) := by
    omega
  have whole : (d : ℚ) = 10 ^ ((Nat.toDigits 10 d).length - (stripZeros (Nat.toDigits 10 d)).length) *
      (Nat.ofDigitChars 10 (stripZeros (Nat.toDigits 10 d)) 0 : ℕ) := by
    exact_mod_cast zeros
  unfold Digits.value
  simp only
  rw [exponent, zpow_add₀ (by norm_num), zpow_natCast, whole]
  generalize (10 : ℚ) ^ ((Nat.toDigits 10 d).length - (stripZeros (Nat.toDigits 10 d)).length) = a
  ring

/-- A power of two, four times. -/
theorem four_mul_pow {n den : Nat} (hden : 4 * Nat.pow 2 n = den) :
    den.log2 = n + 2 ∧ (den : ℚ) = 2 ^ (n + 2) := by
  have power : den = 2 ^ (n + 2) := by
    rw [← hden, Nat.pow_eq, Nat.pow_add, Nat.mul_comm]
  rw [power]
  exact ⟨Nat.log2_two_pow, by push_cast; rfl⟩

/-- The magnitude of a finite double in binary digits. -/
theorem log2_value_lt {rank : Nat} (finite : rank < rankBound) :
    (4 * unitsOfRank rank).log2 < 2176 := by
  obtain ⟨last, hlast, bound⟩ : ∃ b, b = 2046 ∧ rankBound = (b + 1) * Nat.pow 2 52 :=
    ⟨2046, rfl, rfl⟩
  have below : unitsOfRank rank < Nat.pow 2 52 * Nat.pow 2 last := by
    rw [← unitsOfRank_binade, ← bound]
    exact unitsOfRank_strictMono finite
  have bounded : ∀ c, 52 + last + 2 ≤ c → (4 * unitsOfRank rank).log2 < c := by
    intro c h
    by_cases zero : 4 * unitsOfRank rank = 0
    · rw [zero, Nat.log2_zero]
      omega
    · refine (Nat.log2_lt zero).mpr ?_
      have sum : 4 * (Nat.pow 2 52 * Nat.pow 2 last) = 2 ^ (52 + last + 2) := by
        rw [Nat.pow_eq, Nat.pow_eq, Nat.pow_add, Nat.pow_add, Nat.mul_comm]
      calc 4 * unitsOfRank rank < 4 * (Nat.pow 2 52 * Nat.pow 2 last) :=
            Nat.mul_lt_mul_of_pos_left below (by decide)
        _ = 2 ^ (52 + last + 2) := sum
        _ ≤ 2 ^ c := Nat.pow_le_pow_right (by decide) h
  exact bounded 2176 (by omega)

section

-- the denominator stands under a name, for nobody wants to see its digits
variable {den : Nat} (hden : 4 * Nat.pow 2 1074 = den)

include hden

/-- The digits of a double are what the search finds, moved to their place. -/
theorem value_shortest {low value high : Nat} (tieUp : Bool) {rank : Nat}
    (interval : roundingInterval rank = (low, value, high)) :
    ∃ estimate : Int,
      estimate = ((value.log2 : Int) - (den.log2 : Int)) * 30103 / 100000 - 1 ∧
      ∃ found, found = firstGrid low value high den (rank % 2 == 0) tieUp
        (decimalPoint value den 8 estimate) 17 1 ∧
      (shortest tieUp rank).value =
        found.1 * 10 ^ (decimalPoint value den 8 estimate - (found.2 : ℤ)) := by
  refine ⟨_, rfl, _, rfl, ?_⟩
  unfold shortest
  rw [interval, hden]
  simp only
  generalize decimalPoint _ _ _ _ = point
  generalize firstGrid _ _ _ _ _ _ _ _ _ = found
  obtain ⟨d, n⟩ := found
  have place : point + ((Nat.toDigits 10 d).length - (n : ℤ)) =
      point - n + (Nat.toDigits 10 d).length := by omega
  simp only [place]
  exact value_stripped d (point - n)

/-- **The digits of a double stand for a number in its rounding interval.** -/
theorem within_shortest (tieUp : Bool) {rank : Nat} (finite : rank + 1 < rankBound) :
    Within (2 * (unitsOfRank rank + unitsOfRank (rank + 1)))
      (2 * (unitsOfRank (rank + 1) + unitsOfRank (rank + 2))) den ((rank + 1) % 2 == 0)
      (shortest tieUp (rank + 1)).value := by
  have up := unitsOfRank_lt_succ rank
  have top : unitsOfRank (rank + 1) < unitsOfRank (rank + 2) := unitsOfRank_lt_succ (rank + 1)
  have wide := value_lt_width rank
  have bits := log2_value_lt finite
  obtain ⟨log, power⟩ := four_mul_pow hden
  generalize hk : 1074 + 2 = k at log power
  have positive : 0 < den := by
    have : (0 : ℚ) < den := by
      rw [power]
      positivity
    exact_mod_cast this
  obtain ⟨estimate, guess, found, search, value⟩ :=
    value_shortest hden tieUp (roundingInterval_succ rank)
  -- the point cannot be too high: the first guess is not, and the search stops as soon as it can
  have first : (den : ℚ) * 10 ^ (estimate - 1) ≤ (4 * unitsOfRank (rank + 1) : ℕ) := by
    have leading := Nat.log2_self_le (n := 4 * unitsOfRank (rank + 1)) (by omega)
    rw [guess, log, power]
    generalize 4 * unitsOfRank (rank + 1) = v at bits leading
    calc (2 : ℚ) ^ k * 10 ^ (((v.log2 : ℤ) - (k : ℤ)) * 30103 / 100000 - 1 - 1)
        ≤ 2 ^ k * 2 ^ ((v.log2 : ℤ) - (k : ℤ)) :=
          mul_le_mul_of_nonneg_left (estimate_le (by omega) (by omega)) (by positivity)
      _ = (2 ^ v.log2 : ℕ) := by
        rw [← zpow_natCast, ← zpow_add₀ (by norm_num), add_sub_cancel, zpow_natCast]
        push_cast
        rfl
      _ ≤ v := by exact_mod_cast leading
  have low := decimalPoint_le 8 estimate first
  clear hden
  rw [value, search]
  generalize decimalPoint (4 * unitsOfRank (rank + 1)) den 8 estimate = point at low
  refine within_firstGrid 17 1 ⟨17, by decide, by decide, exists_gridPoint? ?_ ?_ positive ?_⟩
  · omega
  · omega
  · exact gridUnit_lt low wide

end

/-! ## Doubles with one decimal -/

/-- **Rounding intervals do not meet.** Neighbours share an end, and it belongs to one of them. -/
theorem not_within_both {a b den : Nat} (before : a < b) {x : ℚ}
    (left : Within (2 * (unitsOfRank a + unitsOfRank (a + 1)))
      (2 * (unitsOfRank (a + 1) + unitsOfRank (a + 2))) den ((a + 1) % 2 == 0) x) :
    ¬Within (2 * (unitsOfRank b + unitsOfRank (b + 1)))
      (2 * (unitsOfRank (b + 1) + unitsOfRank (b + 2))) den ((b + 1) % 2 == 0) x := by
  intro right
  have upper := left.le.2
  have lower := right.le.1
  -- neighbours share an end, which is in neither interval unless it is in that of the even rank
  by_cases next : b = a + 1
  · subst next
    by_cases even : a % 2 = 0
    · have excluded : ((a + 1) % 2 == 0) = false := beq_false_of_ne (by omega)
      rw [Within, excluded, if_neg Bool.false_ne_true] at left
      exact absurd (lt_of_lt_of_le left.2 lower) (lt_irrefl _)
    · have excluded : ((a + 1 + 1) % 2 == 0) = false := beq_false_of_ne (by omega)
      rw [Within, excluded, if_neg Bool.false_ne_true] at right
      exact absurd (lt_of_le_of_lt upper right.1) (lt_irrefl _)
  · have first : unitsOfRank (a + 1) < unitsOfRank b := unitsOfRank_strictMono (by omega)
    have second : unitsOfRank (a + 2) < unitsOfRank (b + 1) := unitsOfRank_strictMono (by omega)
    have apart : 2 * (unitsOfRank (a + 1) + unitsOfRank (a + 2)) <
        2 * (unitsOfRank b + unitsOfRank (b + 1)) := by omega
    have ends : (2 * (unitsOfRank b + unitsOfRank (b + 1)) : ℕ) ≤
        ((2 * (unitsOfRank (a + 1) + unitsOfRank (a + 2)) : ℕ) : ℚ) := lower.trans upper
    exact absurd (Nat.cast_le.mp ends) (not_le.mpr apart)

/-- **Positive doubles whose digits stand for one number are the same.** -/
theorem shortest_inj {tieUp : Bool} {r s : Nat} (r_pos : 0 < r) (s_pos : 0 < s)
    (r_lt : r < rankBound) (s_lt : s < rankBound)
    (same : (shortest tieUp r).value = (shortest tieUp s).value) : r = s := by
  obtain ⟨a, rfl⟩ := Nat.exists_eq_succ_of_ne_zero (Nat.pos_iff_ne_zero.mp r_pos)
  obtain ⟨b, rfl⟩ := Nat.exists_eq_succ_of_ne_zero (Nat.pos_iff_ne_zero.mp s_pos)
  obtain ⟨den, hden⟩ : ∃ den, 4 * Nat.pow 2 1074 = den := ⟨_, rfl⟩
  have left := within_shortest hden tieUp r_lt
  have right := within_shortest hden tieUp s_lt
  rcases lt_trichotomy a b with before | rfl | after
  · rw [same] at left
    exact absurd right (not_within_both before left)
  · rfl
  · rw [← same] at right
    exact absurd left (not_within_both after right)

/-- The digits of a positive double do not stand for zero. -/
theorem shortest_pos {tieUp : Bool} {rank : Nat} (positive : 0 < rank) (finite : rank < rankBound) :
    0 < (shortest tieUp rank).value := by
  obtain ⟨a, rfl⟩ := Nat.exists_eq_succ_of_ne_zero (Nat.pos_iff_ne_zero.mp positive)
  obtain ⟨den, hden⟩ : ∃ den, 4 * Nat.pow 2 1074 = den := ⟨_, rfl⟩
  have above := (within_shortest hden tieUp finite).le.1
  clear hden
  have low : 0 < 2 * (unitsOfRank a + unitsOfRank (a + 1)) := by
    have := unitsOfRank_lt_succ a
    omega
  by_contra h
  have product : (shortest tieUp (a + 1)).value * den ≤ 0 :=
    mul_nonpos_of_nonpos_of_nonneg (not_lt.mp h) (Nat.cast_nonneg den)
  have lower : ((2 * (unitsOfRank a + unitsOfRank (a + 1)) : ℕ) : ℚ) ≤ 0 := above.trans product
  exact absurd (Nat.cast_le (α := ℚ).mp (by simpa using lower)) (not_le.mpr low)

end Double

end Roster
