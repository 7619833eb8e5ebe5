import Roster.Proofs.Sql.IgnoreCase
import Roster.Proofs.Text.Replacement

/-!
# Terms inside patterns

`Like` gives the rules of `LIKE` one by one; reading a pattern into its items and matching these is
a way to follow the rules (`likes_iff`).

The condition of a filter has two sorts of patterns: the pattern of a term at a place, and, where
case is ignored, a whole text, escaped, in the place of an equality. By the rules the first matches
the texts that have the term at its place, and the second its own text alone: no character of a term
is ever a wildcard or takes a backslash away from another.
-/

namespace Roster.Sql

variable {pattern text : List Char}

/-! ## The rules -/

/-- A pattern matches a text. A backslash at the end of a pattern has no rule, so such a pattern
matches nothing. -/
inductive Like : List Char → List Char → Prop where
  | done : Like [] []
  /-- `%` matches any text. -/
  | anyText {pattern text : List Char} (skipped : List Char) :
      Like pattern text → Like ('%' :: pattern) (skipped ++ text)
  /-- `_` matches any character. -/
  | anyChar {pattern text : List Char} (c : Char) :
      Like pattern text → Like ('_' :: pattern) (c :: text)
  /-- A backslash takes the next character as it is. -/
  | escaped {pattern text : List Char} (c : Char) :
      Like pattern text → Like ('\\' :: c :: pattern) (c :: text)
  /-- Any other character matches itself. -/
  | itself {pattern text : List Char} {c : Char} : c ≠ '%' → c ≠ '_' → c ≠ '\\' →
      Like pattern text → Like (c :: pattern) (c :: text)

theorem likes_nil : likes [] text = true ↔ text = [] := by
  rw [likes, readPattern, Option.any_some, matchesItems, List.isEmpty_iff]

/-- A pattern whose first item is known matches as its items do. -/
theorem likes_of_readPattern {whole : List Char} {item : PatternItem}
    (read : readPattern whole = (readPattern pattern).map (item :: ·)) :
    likes whole text =
      (readPattern pattern).any fun items => matchesItems (item :: items) text := by
  rw [likes, read, Option.any_map]

theorem likes_anyText : likes ('%' :: pattern) text = true ↔
    ∃ skipped rest, text = skipped ++ rest ∧ likes pattern rest = true := by
  rw [likes_of_readPattern (readPattern_percent pattern)]
  unfold likes
  cases readPattern pattern with
  | none => simp
  | some items =>
    simp only [Option.any_some, matchesItems_anyText]
    constructor
    · rintro ⟨rest, ⟨skipped, rfl⟩, h⟩
      exact ⟨skipped, rest, rfl, h⟩
    · rintro ⟨skipped, rest, rfl, h⟩
      exact ⟨rest, List.suffix_append skipped rest, h⟩

theorem likes_anyChar : likes ('_' :: pattern) text = true ↔
    ∃ c rest, text = c :: rest ∧ likes pattern rest = true := by
  rw [likes_of_readPattern (readPattern_cons (by decide) pattern)]
  unfold likes
  cases readPattern pattern with
  | none => simp
  | some items => cases text <;> simp [itemOf, matchesItems]

/-- An item that is a character takes this character off the text. -/
theorem likes_char {whole : List Char} {c : Char}
    (read : readPattern whole = (readPattern pattern).map (.char c :: ·)) :
    likes whole text = true ↔ ∃ rest, text = c :: rest ∧ likes pattern rest = true := by
  rw [likes_of_readPattern read]
  unfold likes
  cases readPattern pattern with
  | none => simp
  | some items => exact matchesItems_chars [c] items text

theorem likes_escaped (c : Char) : likes ('\\' :: c :: pattern) text = true ↔
    ∃ rest, text = c :: rest ∧ likes pattern rest = true :=
  likes_char (readPattern_escaped c pattern)

theorem likes_itself {c : Char} (percent : c ≠ '%') (underscore : c ≠ '_')
    (backslash : c ≠ '\\') :
    likes (c :: pattern) text = true ↔ ∃ rest, text = c :: rest ∧ likes pattern rest = true := by
  refine likes_char ?_
  rw [readPattern_cons backslash, itemOf, if_neg percent, if_neg underscore]

/-- What the rules allow is found by following them. -/
theorem likes_of_like (h : Like pattern text) : likes pattern text = true := by
  induction h with
  | done => exact likes_nil.mpr rfl
  | anyText skipped _ ih => exact likes_anyText.mpr ⟨skipped, _, rfl, ih⟩
  | anyChar c _ ih => exact likes_anyChar.mpr ⟨c, _, rfl, ih⟩
  | escaped c _ ih => exact (likes_escaped c).mpr ⟨_, rfl, ih⟩
  | itself percent underscore backslash _ ih =>
    exact (likes_itself percent underscore backslash).mpr ⟨_, rfl, ih⟩

theorem like_of_likes (h : likes pattern text = true) : Like pattern text := by
  -- The reader has one case for what is not escaped, where the rules have three.
  fun_induction readPattern pattern generalizing text with
  | case1 =>
    rw [likes_nil.mp h]
    exact .done
  | case2 => cases h
  | case3 c pattern ih =>
    obtain ⟨rest, rfl, found⟩ := (likes_escaped c).mp h
    exact .escaped c (ih found)
  | case4 c pattern backslash ih =>
    by_cases percent : c = '%'
    · subst percent
      obtain ⟨skipped, rest, rfl, found⟩ := likes_anyText.mp h
      exact .anyText skipped (ih found)
    by_cases underscore : c = '_'
    · subst underscore
      obtain ⟨d, rest, rfl, found⟩ := likes_anyChar.mp h
      exact .anyChar d (ih found)
    · obtain ⟨rest, rfl, found⟩ := (likes_itself percent underscore backslash).mp h
      exact .itself percent underscore backslash (ih found)

/-- Reading a pattern into its items and matching them follows the rules. -/
theorem likes_iff : likes pattern text = true ↔ Like pattern text :=
  ⟨like_of_likes, likes_of_like⟩

instance (pattern text : List Char) : Decidable (Like pattern text) :=
  decidable_of_iff _ likes_iff

/-! ## Escaping -/

/-- A term is escaped by replacing the special characters one after the other. The backslash comes
first: later, it would also double the backslashes that escape the other two. -/
theorem escapeTerm_eq_replace (term : String) :
    String.ofList (escapeTerm term.toList) =
      ((term.replace '\\' "\\\\").replace '%' "\\%").replace '_' "\\_" := by
  rw [← String.toList_inj, String.toList_ofList, Text.toList_replace, Text.toList_replace,
    Text.toList_replace]
  generalize term.toList = cs
  -- Each replacement goes through an append, so what becomes of a character depends on it alone.
  induction cs with
  | nil => rfl
  | cons c cs ih =>
    rw [escapeTerm_cons, ih, ← List.singleton_append (l := cs)]
    simp only [Text.replaceChar_append]
    refine congrArg (· ++ _) ?_
    by_cases backslash : c = '\\'
    · subst backslash; rfl
    by_cases percent : c = '%'
    · subst percent; rfl
    by_cases underscore : c = '_'
    · subst underscore; rfl
    · simp [isWild, Text.replaceChar, backslash, percent, underscore]

/-! ## The patterns of a filter -/

namespace Condition

/-- The patterns in a condition, from left to right. -/
def patterns : Condition → List (List Char)
  | like _ _ pattern => [pattern]
  | .exists _ _ _ inner => inner.patterns
  | not inner => inner.patterns
  | and left right => left.patterns ++ right.patterns
  | or left right => left.patterns ++ right.patterns
  | _ => []

/-- Conditions that are joined have the patterns of each. -/
theorem patterns_foldl {join : Condition → Condition → Condition}
    (joined : ∀ left right, (join left right).patterns = left.patterns ++ right.patterns)
    (first : Condition) (rest : List Condition) :
    (rest.foldl join first).patterns = (first :: rest).flatMap patterns := by
  rw [List.flatMap_cons, List.flatMap_def, ← List.foldl_append_eq_append]
  exact (List.foldl_hom patterns fun left right => (joined left right).symm).symm

theorem patterns_all (cs : List Condition) : (all cs).patterns = cs.flatMap patterns := by
  cases cs with
  | nil => rfl
  | cons first rest => exact patterns_foldl (fun _ _ => rfl) first rest

theorem patterns_any (cs : List Condition) : (any cs).patterns = cs.flatMap patterns := by
  cases cs with
  | nil => rfl
  | cons first rest => exact patterns_foldl (fun _ _ => rfl) first rest

end Condition

/-- The patterns of values that are compared as wholes: where case is ignored, each text is one. -/
def wholePatterns (ignoreCase : Bool) (values : List Scalar) : List (List Char) :=
  if ignoreCase then (values.filterMap Scalar.text?).map fun text => escapeTerm text.toList else []

/-- The patterns that a comparison asks for. -/
def comparisonPatterns (ignoreCase : Bool) : Comparison → List (List Char)
  | .equals value => wholePatterns ignoreCase [value]
  | .differs value => wholePatterns ignoreCase [value]
  | .oneOf values => wholePatterns ignoreCase values
  | .noneOf _ => []
  | .ordered _ _ => []
  | .textual place term => [patternOf place term.toList]

variable (ignoreCase : Bool) (column : Column)

theorem patterns_holds (value : Scalar) : (holds column value).patterns = [] := by
  unfold holds
  split <;> rfl

theorem patterns_matchesValue (value : Scalar) :
    (matchesValue ignoreCase column value).patterns = wholePatterns ignoreCase [value] := by
  cases ignoreCase with
  | false =>
    have plain : matchesValue false column value = holds column value := by
      cases value <;> rfl
    rw [plain, patterns_holds]
    rfl
  | true => cases value <;> rfl

theorem patterns_differsFrom (value : Scalar) :
    (differsFrom ignoreCase column value).patterns = wholePatterns ignoreCase [value] := by
  rw [← patterns_matchesValue ignoreCase column value, differsFrom]
  cases value with
  | null => cases ignoreCase <;> rfl
  | _ => simp [Scalar.isNull, Condition.patterns_any, Condition.patterns]

theorem patterns_holdsOneOf (values : List Scalar) :
    (holdsOneOf ignoreCase column values).patterns = wholePatterns ignoreCase values := by
  cases ignoreCase with
  | false =>
    rw [holdsOneOf, if_neg Bool.false_ne_true, Condition.patterns_any, List.flatMap_append]
    split <;> split <;> rfl
  | true =>
    rw [holdsOneOf, if_pos rfl, Condition.patterns_any]
    induction values with
    | nil => rfl
    | cons value values ih =>
      rw [List.map_cons, List.flatMap_cons, ih, patterns_matchesValue]
      cases value <;> rfl

theorem patterns_holdsNoneOf (values : List Scalar) :
    (holdsNoneOf column values).patterns = [] := by
  unfold holdsNoneOf
  split <;> rfl

theorem patterns_ofComparison (c : Comparison) :
    (ofComparison ignoreCase column c).patterns = comparisonPatterns ignoreCase c := by
  cases c with
  | equals value => exact patterns_matchesValue ignoreCase column value
  | differs value => exact patterns_differsFrom ignoreCase column value
  | oneOf values => exact patterns_holdsOneOf ignoreCase column values
  | noneOf values => exact patterns_holdsNoneOf column values
  | ordered => rfl
  | textual => rfl

/-- The condition of a filter has the patterns of its comparisons and no others. -/
theorem patterns_ofFilter (f : Filter) :
    (ofFilter column f).patterns = f.comparisons.flatMap (comparisonPatterns f.ignoreCase) := by
  rw [ofFilter, Condition.patterns_all, List.flatMap_map]
  exact List.flatMap_congr fun c _ => patterns_ofComparison f.ignoreCase column c

/-! ## What they match -/

/-- The pattern of a term at a place matches the texts that have the term there. -/
theorem like_patternOf_iff (place : TextMatch) (term text : String) :
    Like (patternOf place term.toList) text.toList ↔ place.accepts text term = true := by
  rw [← likes_iff, likes_patternOf]

/-- **Patterns match literally.** The patterns of a filter are those of its comparisons: one for
each term that is looked for, and, where case is ignored, one for each text of an equality. By the
rules of `LIKE` the pattern of a term matches the texts that contain it, start with it or end with
it, and an escaped text matches itself alone. Escaping replaces the backslashes, the percent signs
and the underscores, in this order. -/
theorem patterns_match_terms (f : Filter) (term text : String) :
    (ofFilter column f).patterns = f.comparisons.flatMap (comparisonPatterns f.ignoreCase) ∧
      (Like (patternOf .contains term.toList) text.toList ↔ term.toList <:+: text.toList) ∧
      (Like (patternOf .startsWith term.toList) text.toList ↔ term.toList <+: text.toList) ∧
      (Like (patternOf .endsWith term.toList) text.toList ↔ term.toList <:+ text.toList) ∧
      (Like (escapeTerm term.toList) text.toList ↔ text = term) ∧
      String.ofList (escapeTerm term.toList) =
        ((term.replace '\\' "\\\\").replace '%' "\\%").replace '_' "\\_" := by
  refine ⟨patterns_ofFilter column f, ?contains, ?startsWith, ?endsWith, ?whole,
    escapeTerm_eq_replace term⟩
  case contains => rw [like_patternOf_iff, TextMatch.accepts, occursIn_iff]
  case startsWith => rw [like_patternOf_iff, TextMatch.accepts, List.isPrefixOf_iff_prefix]
  case endsWith => rw [like_patternOf_iff, TextMatch.accepts, List.isSuffixOf_iff_suffix]
  case whole => rw [← likes_iff, likes_escapeTerm, beq_iff_eq]

/-- A term with both wildcards and a backslash stands for itself, and `50%` for no price. -/
example : Like (patternOf .contains "_%\\".toList) "a_%\\b".toList ∧
    ¬Like (patternOf .startsWith "50%".toList) "5000".toList := by
  decide

end Roster.Sql
