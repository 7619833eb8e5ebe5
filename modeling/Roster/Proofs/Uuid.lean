import Mathlib.Algebra.Order.Ring.Nat
import Roster.Proofs.Json.Strings
import Roster.Uuid

/-!
# Identifiers are read back

The written form of an identifier is one that is read, and what is read is the identifier.
-/

namespace Roster.Uuid

theorem length_digits (u : Uuid) : u.digits.length = 32 := by
  rw [digits, List.length_map, List.length_range]

theorem hyphenate_cons (n m : Nat) (others : List Nat) (cs : List Char) :
    hyphenate (n :: m :: others) cs =
      cs.take n ++ '-' :: hyphenate (m :: others) (cs.drop n) := rfl

/-- Groups as long as the characters are taken apart as they were put together. -/
theorem unhyphenate?_hyphenate (groups : List Nat) : ∀ cs : List Char,
    cs.length = groups.sum → unhyphenate? groups (hyphenate groups cs) = some cs := by
  induction groups with
  | nil =>
    intro cs h
    rw [List.eq_nil_of_length_eq_zero h]
    rfl
  | cons n rest ih =>
    intro cs h
    rw [List.sum_cons] at h
    cases rest with
    | nil =>
      have whole : cs.length = n := by simpa using h
      rw [hyphenate, unhyphenate?, List.take_of_length_le (by omega), if_pos whole]
    | cons m others =>
      have first : (cs.take n).length = n := by
        rw [List.length_take]
        omega
      have below : (cs.drop n).length = (m :: others).sum := by
        rw [List.length_drop]
        omega
      have taken : (hyphenate (n :: m :: others) cs).take n = cs.take n := by
        rw [hyphenate_cons, List.take_left' first]
      have left : (hyphenate (n :: m :: others) cs).drop n =
          '-' :: hyphenate (m :: others) (cs.drop n) := by
        rw [hyphenate_cons, List.drop_left' first]
      rw [unhyphenate?, left]
      · simp only [ih _ below, taken, Option.map_some, List.take_append_drop]
      · nofun

theorem length_hyphenate (groups : List Nat) : ∀ cs : List Char, cs.length = groups.sum →
    (hyphenate groups cs).length = groups.sum + (groups.length - 1) := by
  induction groups with
  | nil =>
    intro cs h
    rfl
  | cons n rest ih =>
    intro cs h
    rw [List.sum_cons] at h
    cases rest with
    | nil =>
      rw [hyphenate, List.length_take]
      simp only [List.sum_cons, List.sum_nil] at h ⊢
      simp
      omega
    | cons m others =>
      have below : (cs.drop n).length = (m :: others).sum := by
        rw [List.length_drop]
        omega
      rw [hyphenate_cons, List.length_append, List.length_cons, ih _ below, List.length_take]
      simp only [List.length_cons, List.sum_cons] at h ⊢
      omega

/-- The first digits of base sixteen are the number without its last ones. -/
theorem foldl_digits {x : Nat} (h : x < 16 ^ 32) : ∀ k ≤ 32,
    ((List.range k).map fun i => x / Nat.pow 16 (31 - i) % 16).foldl (fun n d => n * 16 + d) 0 =
      x / 16 ^ (32 - k) := by
  intro k
  induction k with
  | zero => exact fun _ => (Nat.div_eq_of_lt h).symm
  | succ k ih =>
    intro hk
    have power : 16 ^ (32 - k) = 16 ^ (32 - (k + 1)) * 16 := by
      rw [← Nat.pow_succ]
      congr 1
      omega
    have last : Nat.pow 16 (31 - k) = 16 ^ (32 - (k + 1)) := congrArg (16 ^ ·) (by omega)
    rw [List.range_succ, List.map_append, List.foldl_append, ih (by omega), power,
      ← Nat.div_div_eq_div_mul, List.map_singleton, List.foldl_cons, List.foldl_nil, last,
      Nat.div_add_mod']

theorem mapM_hexValue? (ds : List Nat) (h : ∀ d ∈ ds, d < 16) :
    (ds.map Json.hexDigit).mapM Json.hexValue? = some ds := by
  induction ds with
  | nil => rfl
  | cons d ds ih =>
    rw [List.map_cons, List.mapM_cons, Json.hexValue?_hexDigit d (h d List.mem_cons_self),
      ih fun d hd => h d (List.mem_cons_of_mem _ hd)]
    rfl

theorem ofDigits?_digits (u : Uuid) : ofDigits? u.digits = some u := by
  let values := (List.range 32).map fun i => u.bits.toNat / Nat.pow 16 (31 - i) % 16
  have below : ∀ d ∈ values, d < 16 := by
    intro d hd
    obtain ⟨i, -, rfl⟩ := List.mem_map.mp hd
    exact Nat.mod_lt _ (by decide)
  have read : u.digits.mapM Json.hexValue? = some values := by
    rw [← mapM_hexValue? values below, List.map_map]
    rfl
  rw [ofDigits?, if_pos u.length_digits, read, Option.map_some,
    foldl_digits (by simpa using u.bits.isLt) 32 (Nat.le_refl _)]
  simp

/-- **An identifier is read back from its written form.** -/
theorem parse?_text (u : Uuid) : parse? u.text = some u := by
  have sum : u.digits.length = groups.sum := u.length_digits
  have length : (hyphenate groups u.digits).length = 36 := length_hyphenate groups u.digits sum
  rw [parse?, text, String.toList_ofList]
  simp [length, unhyphenate?_hyphenate groups u.digits sum, ofDigits?_digits]

end Roster.Uuid
