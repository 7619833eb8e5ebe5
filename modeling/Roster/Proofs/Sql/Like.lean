import Mathlib.Data.List.Infix
import Roster.Predicate.Eval
import Roster.Sql.Pattern

/-!
# What a pattern matches

A `LIKE` pattern is read into its items, any text, any character or one character as it is, and the
items are matched one after the other. A pattern that ends in a backslash is no pattern, and matches
nothing.

An escaped term is read back as its own characters, so the pattern of a term at a place matches
exactly the texts that have the term there.
-/

namespace Roster.Sql

/-- What stands at one place of a pattern. -/
inductive PatternItem where
  | anyText
  | anyChar
  | char (c : Char)
deriving DecidableEq, Repr

/-- The item of a character that no backslash stands before. -/
def itemOf (c : Char) : PatternItem :=
  if c = '%' then .anyText else if c = '_' then .anyChar else .char c

/-- Reads a pattern. -/
def readPattern : List Char → Option (List PatternItem)
  | [] => some []
  | c :: rest =>
    if c = '\\' then
      match rest with
      | [] => none
      | d :: rest => (readPattern rest).map (.char d :: ·)
    else (readPattern rest).map (itemOf c :: ·)

/-- The items match the whole text. -/
def matchesItems : List PatternItem → List Char → Bool
  | [], text => text.isEmpty
  | .anyText :: rest, text => text.tails.any (matchesItems rest)
  | .anyChar :: _, [] => false
  | .anyChar :: rest, _ :: text => matchesItems rest text
  | .char _ :: _, [] => false
  | .char c :: rest, d :: text => c = d && matchesItems rest text

/-- The text is like the pattern. -/
def likes (pattern text : List Char) : Bool := (readPattern pattern).any (matchesItems · text)

/-! ## Terms -/

theorem readPattern_escaped (c : Char) (rest : List Char) :
    readPattern ('\\' :: c :: rest) = (readPattern rest).map (.char c :: ·) := by
  rw [readPattern.eq_def]
  rfl

theorem readPattern_cons {c : Char} (plain : c ≠ '\\') (rest : List Char) :
    readPattern (c :: rest) = (readPattern rest).map (itemOf c :: ·) := by
  rw [readPattern.eq_def]
  simp only [if_neg plain]

/-- An escaped term is read as its characters. -/
theorem readPattern_escapeTerm (term rest : List Char) :
    readPattern (escapeTerm term ++ rest) =
      (readPattern rest).map (term.map PatternItem.char ++ ·) := by
  induction term with
  | nil => simp [escapeTerm]
  | cons c term ih =>
    have tail : escapeTerm (c :: term) ++ rest = escapeChar c ++ (escapeTerm term ++ rest) := by
      rw [escapeTerm, List.flatMap_cons, List.append_assoc]
      rfl
    rw [tail, escapeChar]
    by_cases special : (c = '\\' || c = '%' || c = '_') = true
    · rw [if_pos special, List.cons_append, List.singleton_append, readPattern_escaped, ih]
      simp [Function.comp_def]
    · rw [if_neg special, List.singleton_append]
      simp only [Bool.or_eq_true, decide_eq_true_eq, not_or] at special
      rw [readPattern_cons special.1.1, ih]
      simp [itemOf, special, Function.comp_def]

/-- Characters match a text that starts with them, if the other items match what follows. -/
theorem matchesItems_chars (term : List Char) (items : List PatternItem) : ∀ text : List Char,
    matchesItems (term.map PatternItem.char ++ items) text = true ↔
      ∃ rest, text = term ++ rest ∧ matchesItems items rest = true := by
  induction term with
  | nil => simp
  | cons c term ih =>
    intro text
    cases text with
    | nil => simp [matchesItems]
    | cons d text =>
      rw [List.map_cons, List.cons_append, matchesItems, Bool.and_eq_true, decide_eq_true_eq, ih]
      constructor
      · rintro ⟨rfl, rest, rfl, h⟩
        exact ⟨rest, rfl, h⟩
      · rintro ⟨rest, same, h⟩
        obtain ⟨rfl, rfl⟩ := List.cons.inj same
        exact ⟨rfl, rest, rfl, h⟩

theorem matchesItems_term (term text : List Char) :
    matchesItems (term.map PatternItem.char) text = true ↔ term = text := by
  have whole := matchesItems_chars term [] text
  rw [List.append_nil] at whole
  rw [whole]
  constructor
  · rintro ⟨rest, rfl, h⟩
    rw [matchesItems, List.isEmpty_iff] at h
    rw [h, List.append_nil]
  · rintro rfl
    exact ⟨[], (List.append_nil _).symm, rfl⟩

theorem matchesItems_anyText (items : List PatternItem) (text : List Char) :
    matchesItems (.anyText :: items) text = true ↔
      ∃ tail, tail <:+ text ∧ matchesItems items tail = true := by
  rw [matchesItems, List.any_eq_true]
  exact exists_congr fun tail => and_congr_left' (List.mem_tails tail text)

theorem matchesItems_onlyText (text : List Char) : matchesItems [.anyText] text = true :=
  (matchesItems_anyText [] text).mpr ⟨[], List.nil_suffix, rfl⟩

theorem matchesItems_prefix (term text : List Char) :
    matchesItems (term.map PatternItem.char ++ [.anyText]) text = true ↔ term <+: text := by
  simp only [matchesItems_chars, matchesItems_onlyText, and_true]
  exact ⟨fun ⟨rest, h⟩ => ⟨rest, h.symm⟩, fun ⟨rest, h⟩ => ⟨rest, h.symm⟩⟩

theorem readPattern_percent (rest : List Char) :
    readPattern ('%' :: rest) = (readPattern rest).map (.anyText :: ·) :=
  readPattern_cons (by decide) rest

/-- **The pattern of a term at a place matches the texts that have the term there.** -/
theorem likes_patternOf (place : TextMatch) (text term : String) :
    likes (patternOf place term.toList) text.toList = place.accepts text term := by
  rw [Bool.eq_iff_iff]
  unfold TextMatch.accepts
  generalize term.toList = needle
  generalize text.toList = hay
  have last : readPattern ['%'] = some [.anyText] := rfl
  have nothing : readPattern (escapeTerm needle) = some (needle.map PatternItem.char) := by
    have whole := readPattern_escapeTerm needle []
    rw [List.append_nil] at whole
    simpa [readPattern] using whole
  cases place with
  | contains =>
    rw [patternOf, likes, readPattern_percent, readPattern_escapeTerm, last]
    simp only [Option.map_some, Option.any_some, matchesItems_anyText, occursIn_iff,
      List.infix_iff_prefix_suffix]
    refine exists_congr fun tail => ?_
    rw [and_comm, matchesItems_prefix]
  | startsWith =>
    rw [patternOf, likes, readPattern_escapeTerm, last]
    simp only [Option.map_some, Option.any_some, matchesItems_prefix, List.isPrefixOf_iff_prefix]
  | endsWith =>
    rw [patternOf, likes, readPattern_percent, nothing]
    simp only [Option.map_some, Option.any_some, matchesItems_anyText, matchesItems_term,
      List.isSuffixOf_iff_suffix]
    exact ⟨fun ⟨tail, h, same⟩ => same ▸ h, fun h => ⟨needle, h, rfl⟩⟩

end Roster.Sql
