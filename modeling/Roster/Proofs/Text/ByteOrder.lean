import Mathlib.Algebra.Ring.Nat
import Roster.Text.Bytes

/-!
# Texts in the order of their bytes

A store that compares texts byte by byte sorts them as this one does, which compares them character
by character. UTF-8 is made for it: where the encodings of two characters differ first, the smaller
character has the smaller byte, and no encoding is the beginning of another one.
-/

namespace Roster.Text

/-- Two lists differ, and where they do so first the left one has the smaller byte. -/
inductive DiffersBelow : List UInt8 → List UInt8 → Prop
  | here {u v : UInt8} (s t : List UInt8) : u < v → DiffersBelow (u :: s) (v :: t)
  | later {s t : List UInt8} (u : UInt8) : DiffersBelow s t → DiffersBelow (u :: s) (u :: t)

/-- Whatever follows, the first difference decides. -/
theorem DiffersBelow.compare_append {s t : List UInt8} (h : DiffersBelow s t) (a b : List UInt8) :
    compare (s ++ a) (t ++ b) = .lt := by
  induction h with
  | @here u v s t below =>
    have first : compare u v = Ordering.lt := by
      change compareOfLessAndEq u v = .lt
      rw [compareOfLessAndEq, if_pos below]
    exact List.compareLex_cons_cons.trans (by rw [first]; rfl)
  | later u _ ih =>
    have first : compare u u = Ordering.eq := Std.ReflOrd.compare_self
    exact List.compareLex_cons_cons.trans (by rw [first]; exact ih)

theorem compare_append_left (p a b : List UInt8) : compare (p ++ a) (p ++ b) = compare a b := by
  induction p with
  | nil => rfl
  | cons u p ih =>
    have first : compare u u = Ordering.eq := Std.ReflOrd.compare_self
    exact List.compareLex_cons_cons.trans (by rw [first]; exact ih)

theorem ofNat_lt {a b : Nat} (h : a < b) (bound : b < 256) : UInt8.ofNat a < UInt8.ofNat b := by
  rw [UInt8.lt_iff_toNat_lt, UInt8.toNat_ofNat', UInt8.toNat_ofNat']
  omega

/-- Of two digits before others the smaller one decides, and equal ones leave it to the rest. -/
theorem DiffersBelow.digit {a b : Nat} {s t : List UInt8} (bound : b < 256)
    (h : a < b ∨ a = b ∧ DiffersBelow s t) :
    DiffersBelow (UInt8.ofNat a :: s) (UInt8.ofNat b :: t) := by
  rcases h with below | ⟨rfl, rest⟩
  · exact .here s t (ofNat_lt below bound)
  · exact .later _ rest

/-- The last digits of a number in base 64, each with the mark of a byte that is not the first. -/
def lastDigits : Nat → Nat → List UInt8
  | 0, _ => []
  | count + 1, v => UInt8.ofNat (v / 64 ^ count % 64 + 128) :: lastDigits count v

/-- Numbers that agree before their last digits differ in these. -/
theorem DiffersBelow.lastDigits {m n : Nat} (below : m < n) (count : Nat)
    (agree : m / 64 ^ count = n / 64 ^ count) :
    DiffersBelow (lastDigits count m) (lastDigits count n) := by
  induction count with
  | zero =>
    rw [Nat.pow_zero, Nat.div_one, Nat.div_one] at agree
    exact absurd agree (Nat.ne_of_lt below)
  | succ count ih =>
    rw [Nat.pow_succ, ← Nat.div_div_eq_div_mul, ← Nat.div_div_eq_div_mul] at agree
    refine .digit (by omega) ?_
    by_cases same : m / 64 ^ count = n / 64 ^ count
    · exact .inr ⟨by rw [same], ih same⟩
    · have le : m / 64 ^ count ≤ n / 64 ^ count := Nat.div_le_div_right (Nat.le_of_lt below)
      exact .inl (by omega)

/-- Two encodings of one length: the first byte holds the digits before the last ones. -/
theorem DiffersBelow.sameLength {m n : Nat} (below : m < n) (count base mark : Nat)
    (range : n / 64 ^ count < base) (byte : base + mark ≤ 256) :
    DiffersBelow (UInt8.ofNat (m / 64 ^ count % base + mark) :: Text.lastDigits count m)
      (UInt8.ofNat (n / 64 ^ count % base + mark) :: Text.lastDigits count n) := by
  have le : m / 64 ^ count ≤ n / 64 ^ count := Nat.div_le_div_right (Nat.le_of_lt below)
  rw [Nat.mod_eq_of_lt range, Nat.mod_eq_of_lt (Nat.lt_of_le_of_lt le range)]
  refine .digit (by omega) ?_
  by_cases same : m / 64 ^ count = n / 64 ^ count
  · exact .inr ⟨by rw [same], .lastDigits below count same⟩
  · exact .inl (by omega)

/-- **A smaller character has the smaller encoding.** A longer encoding has a greater first byte. -/
theorem differsBelow_encode {x y : Char} (h : x < y) :
    DiffersBelow (String.utf8EncodeChar x) (String.utf8EncodeChar y) := by
  have below : x.val.toNat < y.val.toNat := h
  have range : y.val.toNat < 0x110000 := by
    have := y.valid
    unfold UInt32.isValidChar Nat.isValidChar at this
    omega
  unfold String.utf8EncodeChar
  generalize x.val.toNat = m at below
  generalize y.val.toNat = n at below range
  dsimp only
  by_cases m1 : m ≤ 0x7f
  · rw [if_pos m1]
    split
    · exact .digit (by omega) (.inl below)
    · split
      · exact .digit (by omega) (.inl (by omega))
      · split
        · exact .digit (by omega) (.inl (by omega))
        · exact .digit (by omega) (.inl (by omega))
  · rw [if_neg m1, if_neg (show ¬n ≤ 0x7f by omega)]
    by_cases m2 : m ≤ 0x7ff
    · rw [if_pos m2]
      split
      · simpa [lastDigits] using DiffersBelow.sameLength below 1 0x20 0xc0 (by omega) (by decide)
      · split
        · exact .digit (by omega) (.inl (by omega))
        · exact .digit (by omega) (.inl (by omega))
    · rw [if_neg m2, if_neg (show ¬n ≤ 0x7ff by omega)]
      by_cases m3 : m ≤ 0xffff
      · rw [if_pos m3]
        split
        · simpa [lastDigits] using DiffersBelow.sameLength below 2 0x10 0xe0 (by omega) (by decide)
        · exact .digit (by omega) (.inl (by omega))
      · rw [if_neg m3, if_neg (show ¬n ≤ 0xffff by omega)]
        simpa [lastDigits] using DiffersBelow.sameLength below 3 0x08 0xf0 (by omega) (by decide)

/-- Lists of characters compare as their encodings do. -/
theorem compare_encodings (xs : List Char) : ∀ ys : List Char,
    compare (xs.flatMap String.utf8EncodeChar) (ys.flatMap String.utf8EncodeChar) =
      compareOfLessAndEq xs ys := by
  induction xs with
  | nil =>
    intro ys
    cases ys with
    | nil => rfl
    | cons y ys =>
      obtain ⟨u, rest, hu⟩ := List.exists_cons_of_ne_nil (String.utf8EncodeChar_ne_nil (c := y))
      rw [List.flatMap_cons, hu]
      rfl
  | cons x xs ih =>
    intro ys
    cases ys with
    | nil =>
      obtain ⟨u, rest, hu⟩ := List.exists_cons_of_ne_nil (String.utf8EncodeChar_ne_nil (c := x))
      rw [List.flatMap_cons, hu]
      rfl
    | cons y ys =>
      rw [List.flatMap_cons, List.flatMap_cons, compareOfLessAndEq]
      rcases Nat.lt_trichotomy x.val.toNat y.val.toNat with below | same | above
      · have below : x < y := below
        have less : x :: xs < y :: ys := List.Lex.rel below
        rw [(differsBelow_encode below).compare_append, if_pos less]
      · obtain rfl : x = y := Char.ext (UInt32.toNat_inj.mp same)
        rw [compare_append_left, ih, compareOfLessAndEq]
        simp
      · have above : y < x := above
        have greater := (differsBelow_encode above).compare_append
          (ys.flatMap String.utf8EncodeChar) (xs.flatMap String.utf8EncodeChar)
        have different : x ≠ y := by
          rintro rfl
          exact Nat.lt_irrefl x.val.toNat above
        have notBelow : ¬x < y := Nat.lt_asymm above
        rw [Std.OrientedCmp.gt_of_lt greater]
        simp [List.cons_lt_cons_iff, notBelow, different]

/-- **Texts compare as their bytes do.** -/
theorem compare_bytes (s t : String) : compare (bytes s) (bytes t) = compare s t := by
  rw [bytes, bytes, compare_encodings]
  change _ = compareOfLessAndEq s t
  rw [compareOfLessAndEq, compareOfLessAndEq]
  simp only [String.toList_inj]
  rfl

end Roster.Text
