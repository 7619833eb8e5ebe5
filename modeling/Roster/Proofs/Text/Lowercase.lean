import Roster.Text.Lowercase

/-!
# Lower-casing one character at a time

`Text.lowercase` looks at the neighbours of a letter, so it is no map over the characters. What it
does need of them is little: whether, past the characters that do not count, a letter with case
comes first. Two contexts that agree on this give one lower-case text.

The lower-case form of a character is the character itself or a character from `a` on, so
lower-casing neither makes nor loses a character below `a`.
-/

namespace Roster.Text

/-! ## Neighbours -/

theorem meetsCased_cons (c : Char) (cs : List Char) :
    meetsCased (c :: cs) = if isIgnorable c then meetsCased cs else isCased c := by
  unfold meetsCased
  by_cases passed : isIgnorable c = true
  · rw [List.dropWhile_cons_of_pos passed, if_pos passed]
  · rw [List.dropWhile_cons_of_neg passed, if_neg passed]

/-- Lists that meet the same letter still do with one more character before them. -/
theorem meetsCased_cons_congr {cs ds : List Char} (same : meetsCased cs = meetsCased ds)
    (c : Char) : meetsCased (c :: cs) = meetsCased (c :: ds) := by
  rw [meetsCased_cons, meetsCased_cons, same]

/-- The lower-case form of a character that stands between two texts. -/
def lowerBetween (before : List Char) (c : Char) (rest : List Char) : List Char :=
  if c = '\u0130' then ['i', '\u0307']
  else if c = 'Σ' then if meetsCased before && !meetsCased rest then ['ς'] else ['σ']
  else [lowerChar c]

theorem lowercaseFrom_cons (before : List Char) (c : Char) (rest : List Char) :
    lowercaseFrom before (c :: rest) =
      lowerBetween before c rest ++ lowercaseFrom (c :: before) rest := rfl

theorem lowerBetween_congr {before before' rest rest' : List Char}
    (left : meetsCased before = meetsCased before') (right : meetsCased rest = meetsCased rest')
    (c : Char) : lowerBetween before c rest = lowerBetween before' c rest' := by
  unfold lowerBetween
  rw [left, right]

/-! ## Single characters -/

/-- The forms of a run are characters from `a` on. -/
def runIsLetters : Nat × Nat × Nat × Int → Bool
  | (first, last, _, offset) =>
    0x61 ≤ first + offset &&
      (last + offset < 0xd800 || 0xe000 ≤ first + offset && last + offset < 0x110000)

theorem lowerRuns_areLetters : lowerRuns.all runIsLetters = true := by decide +kernel

/-- A code point stays or becomes the one of a character from `a` on. -/
theorem lowerIn_eq_or (n : Nat) (runs : List (Nat × Nat × Nat × Int))
    (letters : runs.all runIsLetters = true) :
    lowerIn n runs = n ∨ 0x61 ≤ lowerIn n runs ∧ (lowerIn n runs).isValidChar := by
  induction runs with
  | nil => exact .inl rfl
  | cons run runs ih =>
    obtain ⟨first, last, step, offset⟩ := run
    rw [List.all_cons, Bool.and_eq_true] at letters
    unfold lowerIn
    by_cases below : n < first
    · rw [if_pos below]
      exact .inl rfl
    rw [if_neg below]
    by_cases within : n ≤ last ∧ (n - first) % step = 0
    · rw [if_pos within]
      refine .inr ?_
      have letter := letters.1
      simp only [runIsLetters, Bool.and_eq_true, Bool.or_eq_true, decide_eq_true_eq] at letter
      unfold Nat.isValidChar
      omega
    · rw [if_neg within]
      exact ih letters.2

/-- **The lower-case form of a character is the character or one from `a` on.** -/
theorem lowerChar_eq_or (c : Char) : lowerChar c = c ∨ 'a' ≤ lowerChar c := by
  obtain same | ⟨from_a, valid⟩ := lowerIn_eq_or c.toNat lowerRuns lowerRuns_areLetters
  · left
    rw [lowerChar, same, Char.ofNat_toNat]
  · right
    have value : (lowerChar c).toNat = lowerIn c.toNat lowerRuns := by
      rw [lowerChar, Char.ofNat, dif_pos valid]
      rfl
    rw [Char.le_def, UInt32.le_iff_toNat_le, Char.toNat_val, Char.toNat_val, value]
    exact from_a

end Roster.Text
