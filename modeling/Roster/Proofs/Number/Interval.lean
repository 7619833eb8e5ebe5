import Roster.Number.Decimal
import Roster.Proofs.Number.Exact

/-!
# Rounding intervals

The reals that round to a double reach to the middle between it and each of its neighbours. So the
interval of one double ends where that of the next begins, and the end belongs to the one of the two
whose rank is even: no number rounds to two doubles.

A double of 53 bits is at most `2⁵³` steps away from zero, so its interval is never narrower than
one part in `10¹⁶` of it.
-/

namespace Roster.Double

/-! ## Steps -/

theorem stepOfRank_mono {r s : Nat} (h : r ≤ s) : stepOfRank r ≤ stepOfRank s := by
  unfold stepOfRank
  exact Nat.pow_le_pow_right (by decide) (Nat.sub_le_sub_right (Nat.div_le_div_right h) 1)

/-- A double has at most 53 bits. -/
theorem unitsOfRank_lt_steps (rank : Nat) :
    unitsOfRank rank < Nat.pow 2 53 * stepOfRank rank := by
  have bound : 0 < Nat.pow 2 52 := Nat.pow_pos (by decide)
  have fraction := Nat.mod_lt rank bound
  have double : Nat.pow 2 53 = 2 * Nat.pow 2 52 := rfl
  unfold unitsOfRank stepOfRank
  simp only
  by_cases zero : rank / Nat.pow 2 52 = 0
  · have one : Nat.pow 2 (0 - 1) = 1 := rfl
    rw [if_pos zero, zero, one]
    omega
  · rw [if_neg zero]
    exact Nat.mul_lt_mul_of_pos_right (by omega) (Nat.pow_pos (by decide))

/-! ## Intervals -/

/-- The interval reaches to the middle between the double and its neighbour on either side. -/
theorem roundingInterval_succ (rank : Nat) :
    roundingInterval (rank + 1) =
      (2 * (unitsOfRank rank + unitsOfRank (rank + 1)), 4 * unitsOfRank (rank + 1),
        2 * (unitsOfRank (rank + 1) + unitsOfRank (rank + 2))) := by
  have below : (if (rank + 1) % Nat.pow 2 52 = 0 ∧ 1 < (rank + 1) / Nat.pow 2 52
      then Nat.pow 2 ((rank + 1) / Nat.pow 2 52 - 1)
      else 2 * Nat.pow 2 ((rank + 1) / Nat.pow 2 52 - 1)) = 2 * stepOfRank rank := by
    unfold stepOfRank
    by_cases first : (rank + 1) % Nat.pow 2 52 = 0
    · have next : (rank + 1) / Nat.pow 2 52 = rank / Nat.pow 2 52 + 1 := by
        have := Nat.succ_div (a := rank) (b := Nat.pow 2 52)
        rwa [if_pos (Nat.dvd_of_mod_eq_zero first)] at this
      rw [next, Nat.add_sub_cancel]
      by_cases zero : rank / Nat.pow 2 52 = 0
      · rw [zero, if_neg fun h => absurd h.2 (by omega)]
      · obtain ⟨lower, h⟩ := Nat.exists_eq_succ_of_ne_zero zero
        rw [h, if_pos ⟨first, by omega⟩, Nat.succ_eq_add_one, Nat.add_sub_cancel, Nat.pow_eq,
          Nat.pow_eq, Nat.pow_succ, Nat.mul_comm]
    · have same : (rank + 1) / Nat.pow 2 52 = rank / Nat.pow 2 52 := by
        have := Nat.succ_div (a := rank) (b := Nat.pow 2 52)
        rwa [if_neg fun dvd => first (Nat.mod_eq_zero_of_dvd dvd), Nat.add_zero] at this
      rw [if_neg fun h => first h.1, same]
  have up := unitsOfRank_succ rank
  have top : unitsOfRank (rank + 2) = unitsOfRank (rank + 1) + stepOfRank (rank + 1) :=
    unitsOfRank_succ (rank + 1)
  unfold roundingInterval
  simp only [below]
  change (_, _, 4 * unitsOfRank (rank + 1) + 2 * stepOfRank (rank + 1)) = _
  refine Prod.ext ?_ (Prod.ext rfl ?_) <;> simp only <;> omega

/-- The interval is wider than the grid of the decimals with seventeen digits is coarse. -/
theorem value_lt_width (rank : Nat) :
    4 * unitsOfRank (rank + 1) <
      10 ^ 16 * (2 * (unitsOfRank (rank + 1) + unitsOfRank (rank + 2)) -
        2 * (unitsOfRank rank + unitsOfRank (rank + 1))) := by
  have bits := unitsOfRank_lt_steps rank
  have up := unitsOfRank_succ rank
  have top : unitsOfRank (rank + 2) = unitsOfRank (rank + 1) + stepOfRank (rank + 1) :=
    unitsOfRank_succ (rank + 1)
  have wider : stepOfRank rank ≤ stepOfRank (rank + 1) := stepOfRank_mono (Nat.le_succ rank)
  have word : Nat.pow 2 53 = 9007199254740992 := rfl
  rw [word] at bits
  omega

end Roster.Double
