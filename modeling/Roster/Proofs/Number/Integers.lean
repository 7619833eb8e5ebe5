import Roster.Proofs.Number.Rounding

/-!
# Integers as doubles

Integers are compared as the doubles nearest to them. Two of them can have one nearest double
(`Double.Blurs`), and then they compare as equal; any others compare as the integers that they are
(`Double.order_ofInt`). Between -2⁵³ and 2⁵³ each integer has its nearest double to itself
(`Double.not_blurs_of_natAbs_lt`), but 2⁵³ shares its own with 2⁵³ + 1.
-/

namespace Roster.Double

/-- Two different integers that have one nearest double. -/
def Blurs (a b : Int) : Prop := a ≠ b ∧ (ofInt a).place = (ofInt b).place

instance (a b : Int) : Decidable (Blurs a b) := inferInstanceAs (Decidable (_ ∧ _))

/-- Integers keep their order when they are rounded. -/
theorem place_ofInt_mono {a b : Int} (h : a ≤ b) : (ofInt a).place ≤ (ofInt b).place := by
  rw [place_ofInt, place_ofInt]
  exact nearestPlace_mono (Int.mul_le_mul_of_nonneg_right h (Int.natCast_nonneg _))

/-- **Integers compare as what they are, or as equal where they have one nearest double.** -/
theorem order_ofInt (a b : Int) :
    (ofInt a).order (ofInt b) = if Blurs a b then .eq else compare a b := by
  rw [order]
  split
  · next blurs => exact compare_eq_iff_eq.mpr blurs.2
  · next apart =>
    rcases lt_trichotomy a b with below | rfl | above
    · rw [compare_lt_iff_lt.mpr below, compare_lt_iff_lt]
      exact lt_of_le_of_ne (place_ofInt_mono below.le) fun same => apart ⟨below.ne, same⟩
    · rw [compare_eq_iff_eq.mpr rfl, compare_eq_iff_eq.mpr rfl]
    · rw [compare_gt_iff_gt.mpr above, compare_gt_iff_gt]
      exact lt_of_le_of_ne (place_ofInt_mono above.le) fun same => apart ⟨above.ne', same.symm⟩

/-- Neighbours of at most 53 bits are doubles of their own. -/
theorem place_ofInt_lt_succ {a : Int} (small : a.natAbs ≤ Nat.pow 2 53)
    (next : (a + 1).natAbs ≤ Nat.pow 2 53) : (ofInt a).place < (ofInt (a + 1)).place := by
  rw [← value_lt_iff, value_ofInt small, value_ofInt next, Int.cast_lt]
  exact Int.lt_succ a

/-- **An integer between -2⁵³ and 2⁵³ has its nearest double to itself.** -/
theorem not_blurs_of_natAbs_lt {a : Int} (small : a.natAbs < Nat.pow 2 53) (b : Int) :
    ¬Blurs a b := by
  rintro ⟨other, same⟩
  rcases lt_or_gt_of_ne other with below | above
  · have next := place_ofInt_lt_succ (a := a) (by omega) (by omega)
    have later := place_ofInt_mono (Int.add_one_le_of_lt below)
    omega
  · have next := place_ofInt_lt_succ (a := a - 1) (by omega) (by omega)
    rw [sub_add_cancel] at next
    have earlier := place_ofInt_mono (Int.le_sub_one_of_lt above)
    omega

end Roster.Double
