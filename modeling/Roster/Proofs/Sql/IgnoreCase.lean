import Roster.Proofs.Sql.Comparison
import Roster.Proofs.Text.Lowercase

/-!
# Patterns and filters that ignore case

A pattern that ignores case is lower-cased as a whole, escapes and all, and so is the text it is
held against. The escapes come through untouched: no backslash, percent sign or underscore has case,
none is passed over when the neighbours of a letter are looked at, and none is the lower-case form
of another character. So the lower-cased pattern of a term is the pattern of the lower-cased term.

A filter that ignores case therefore means on a column what it means on a value, except for two of
its comparisons: the order of texts and exclusion from a list are compiled without the mode, and
compare texts as they are.
-/

namespace Roster

namespace Truth

theorem any_map_unknown {α : Type} (xs : List α) :
    any (xs.map fun _ => .unknown) = if xs.isEmpty then .no else .unknown := by
  induction xs with
  | nil => rfl
  | cons x xs ih =>
    rw [List.map_cons, any_cons, ih]
    cases xs <;> rfl

theorem any_map_ofBool {α : Type} (p : α → Bool) (xs : List α) :
    any (xs.map fun x => .ofBool (p x)) = .ofBool (xs.any p) := by
  induction xs with
  | nil => rfl
  | cons x xs ih =>
    rw [List.map_cons, any_cons, ih, List.any_cons]
    cases p x <;> cases xs.any p <;> rfl

end Truth

/-- The condition of the comparison takes the mode of its filter into account. -/
def Comparison.heedsMode : Comparison → Bool
  | .noneOf _ => false
  | .ordered _ _ => false
  | _ => true

namespace Sql

/-! ## Characters that patterns treat differently -/

/-- The character has to be escaped in a term. -/
def isWild (c : Char) : Bool := c = '\\' || c = '%' || c = '_'

theorem escapeTerm_cons (c : Char) (term : List Char) :
    escapeTerm (c :: term) = (if isWild c then ['\\', c] else [c]) ++ escapeTerm term := rfl

theorem escapeTerm_append (s t : List Char) :
    escapeTerm (s ++ t) = escapeTerm s ++ escapeTerm t := List.flatMap_append

/-- A text without such characters is its own pattern. -/
theorem escapeTerm_of_plain {s : List Char} (plain : ∀ c ∈ s, isWild c = false) :
    escapeTerm s = s := by
  induction s with
  | nil => rfl
  | cons c s ih =>
    have rest := ih fun d hd => plain d (List.mem_cons_of_mem c hd)
    rw [escapeTerm_cons, plain c List.mem_cons_self, rest]
    rfl

theorem isWild_cases {c : Char} (wild : isWild c = true) : c = '\\' ∨ c = '%' ∨ c = '_' := by
  simpa [isWild, or_assoc] using wild

/-- A letter does not see past such a character. -/
theorem meetsCased_of_isWild {c : Char} (wild : isWild c = true) (cs : List Char) :
    Text.meetsCased (c :: cs) = false := by
  have blocking : Text.isIgnorable c = false ∧ Text.isCased c = false := by
    obtain rfl | rfl | rfl := isWild_cases wild <;> decide
  rw [Text.meetsCased_cons, blocking.1, blocking.2]
  rfl

theorem lowerBetween_of_isWild {c : Char} (wild : isWild c = true) (before rest : List Char) :
    Text.lowerBetween before c rest = [c] := by
  obtain rfl | rfl | rfl := isWild_cases wild <;> rfl

theorem isWild_lowerChar {c : Char} (plain : isWild c = false) :
    isWild (Text.lowerChar c) = false := by
  obtain same | from_a := Text.lowerChar_eq_or c
  · rw [same, plain]
  · by_contra wild
    rw [Bool.not_eq_false] at wild
    obtain h | h | h := isWild_cases wild <;> rw [h] at from_a <;> revert from_a <;> decide

theorem isWild_lowerBetween {c : Char} (plain : isWild c = false) (before rest : List Char) :
    ∀ d ∈ Text.lowerBetween before c rest, isWild d = false := by
  unfold Text.lowerBetween
  split
  · simp [isWild]
  split
  · split <;> simp [isWild]
  · intro d hd
    rw [List.mem_singleton.mp hd]
    exact isWild_lowerChar plain

/-! ## Patterns in lower case -/

/-- Escapes do not change which letter comes first. -/
theorem meetsCased_escapeTerm {after : List Char} (ends : Text.meetsCased after = false)
    (term : List Char) : Text.meetsCased (escapeTerm term ++ after) = Text.meetsCased term := by
  induction term with
  | nil => exact ends
  | cons c term ih =>
    rw [escapeTerm_cons, List.append_assoc]
    cases wild : isWild c with
    | true =>
      rw [meetsCased_of_isWild wild]
      exact meetsCased_of_isWild (c := '\\') rfl _
    | false =>
      rw [Text.meetsCased_cons c term, ← ih]
      exact Text.meetsCased_cons c _

/-- **Lower-casing goes through escapes.** The context of the pattern may differ from that of the
term, as long as both meet the same letter. -/
theorem lowercaseFrom_escapeTerm (after : List Char) (ends : Text.meetsCased after = false)
    (term : List Char) : ∀ before before' : List Char,
      Text.meetsCased before = Text.meetsCased before' →
      Text.lowercaseFrom before' (escapeTerm term ++ after) =
        escapeTerm (Text.lowercaseFrom before term) ++
          Text.lowercaseFrom ((escapeTerm term).reverse ++ before') after := by
  induction term with
  | nil =>
    intro before before' _
    rfl
  | cons c term ih =>
    intro before before' same
    rw [escapeTerm_cons, List.append_assoc]
    cases wild : isWild c with
    | true =>
      have context : Text.meetsCased (c :: before) = Text.meetsCased (c :: '\\' :: before') := by
        rw [meetsCased_of_isWild wild, meetsCased_of_isWild wild]
      have backslash : Text.lowerBetween before' '\\' (c :: (escapeTerm term ++ after)) = ['\\'] :=
        lowerBetween_of_isWild rfl _ _
      simp only [if_true, List.cons_append, List.nil_append, Text.lowercaseFrom_cons, backslash,
        lowerBetween_of_isWild wild, escapeTerm_cons, wild, List.reverse_cons, List.append_assoc,
        ih _ _ context]
    | false =>
      have form : Text.lowerBetween before' c (escapeTerm term ++ after) =
          Text.lowerBetween before c term :=
        Text.lowerBetween_congr same.symm (meetsCased_escapeTerm ends term) c
      simp only [Bool.false_eq_true, if_false, List.cons_append, List.nil_append,
        Text.lowercaseFrom_cons, form, escapeTerm_append,
        escapeTerm_of_plain (isWild_lowerBetween wild before term), List.reverse_cons,
        List.append_assoc, ih _ _ (Text.meetsCased_cons_congr same c)]

/-- **The lower-cased pattern of a term is the pattern of the lower-cased term.** -/
theorem lowercase_patternOf (place : TextMatch) (term : String) :
    (Text.lowercase (String.ofList (patternOf place term.toList))).toList =
      patternOf place (Text.lowercase term).toList := by
  have percent : ∀ before, Text.lowercaseFrom before ['%'] = ['%'] := fun _ => rfl
  have leading : ∀ rest, Text.lowercaseFrom [] ('%' :: rest) = '%' :: Text.lowercaseFrom ['%'] rest :=
    fun _ => rfl
  unfold Text.lowercase
  simp only [String.toList_ofList]
  cases place with
  | contains =>
    rw [patternOf, leading, lowercaseFrom_escapeTerm _ rfl _ [] ['%'] rfl, percent]
    rfl
  | startsWith =>
    rw [patternOf, lowercaseFrom_escapeTerm _ rfl _ [] [] rfl, percent]
    rfl
  | endsWith =>
    have whole := lowercaseFrom_escapeTerm [] rfl term.toList [] ['%'] rfl
    rw [List.append_nil] at whole
    rw [patternOf, leading, whole]
    simp [Text.lowercaseFrom, patternOf]

theorem lowercase_escapeTerm (term : String) :
    (Text.lowercase (String.ofList (escapeTerm term.toList))).toList =
      escapeTerm (Text.lowercase term).toList := by
  have whole := lowercaseFrom_escapeTerm [] rfl term.toList [] [] rfl
  rw [List.append_nil] at whole
  simp [Text.lowercase, whole, Text.lowercaseFrom]

/-- A term without a place matches nothing but itself. -/
theorem likes_escapeTerm (term text : String) :
    likes (escapeTerm term.toList) text.toList = (text == term) := by
  have read := readPattern_escapeTerm term.toList []
  rw [List.append_nil] at read
  rw [Bool.eq_iff_iff, likes, read, readPattern, Option.map_some, Option.any_some, List.append_nil,
    matchesItems_term, String.toList_inj, beq_iff_eq]
  exact eq_comm

/-! ## Cells -/

variable {v : Json} {s : Scalar} {ss : List Scalar}

namespace Cell

/-- A text is like the pattern of a term where the term stands in it, case apart. -/
theorem like_patternOf_ignoring (h : FieldKind.text.stores v = true) (place : TextMatch)
    (term : String) :
    (ofJson v).like true (patternOf place term.toList) = textualTruth true place v term := by
  cases v with
  | str text =>
    have folded := likes_patternOf place (Text.lowercase text) (Text.lowercase term)
    simp [ofJson, like, textualTruth, comparedText, lowercase_patternOf, folded]
  | null => rfl
  | num n => cases n <;> cases h
  | _ => cases h

/-- A text is like a whole term if it equals the term, case apart. -/
theorem like_escapeTerm (h : FieldKind.text.stores v = true) (term : String) :
    (ofJson v).like true (escapeTerm term.toList) =
      if v.isNull then .unknown else .ofBool (equalTo true v (.text term)) := by
  cases v with
  | str text =>
    have folded := likes_escapeTerm (Text.lowercase term) (Text.lowercase text)
    have equal : equalTo true (.str text) (.text term) =
        (Text.lowercase text == Text.lowercase term) := by
      rw [Bool.eq_iff_iff, equalTo_text_iff, beq_iff_eq]
      simp only [Json.str.injEq, exists_eq_left', comparedText, if_true]
    simp [ofJson, like, comparedText, lowercase_escapeTerm, folded, equal, Json.isNull]
  | null => rfl
  | num n => cases n <;> cases h
  | _ => cases h

end Cell

/-! ## Comparisons -/

theorem text_of_admits (admits : FieldKind.text.admits s = true) : ∃ t, s = .text t := by
  cases s with
  | text t => exact ⟨t, rfl⟩
  | _ => cases admits

variable {db : Database} {env : Alias → Record} {column : Column}

section

variable (reads : env column.row column.name = .ofJson v) (h : FieldKind.text.stores v = true)

include reads h

/-- The column holds a text, case apart. -/
theorem truth_matchesValue (admits : FieldKind.text.admits s = true) :
    (matchesValue true column s).truth db env =
      if v.isNull then .unknown else .ofBool (equalTo true v s) := by
  obtain ⟨t, rfl⟩ := text_of_admits admits
  rw [matchesValue, Condition.truth, reads, Cell.like_escapeTerm h]

/-- The column holds a text, case apart, or null where that is the operand. -/
theorem truth_matchesValue_nullable (admits : FieldKind.text.admitsNullable s = true) :
    (matchesValue true column s).truth db env = equalsTruth true v s := by
  rw [equalsTruth]
  cases hs : s.isNull with
  | true =>
    have same : matchesValue true column s = .isNull column := by
      cases s with
      | null => rfl
      | _ => cases hs
    simp [same, Condition.truth, reads, Cell.isNull_ofJson h]
  | false =>
    have admits : FieldKind.text.admits s = true := by
      simpa [FieldKind.admitsNullable, hs] using admits
    rw [truth_matchesValue reads h admits, if_neg Bool.false_ne_true]

/-- The column holds something else, case apart. -/
theorem truth_differsFrom_ignoring (admits : FieldKind.text.admitsNullable s = true) :
    (differsFrom true column s).truth db env = differsTruth true v s := by
  rw [differsFrom, differsTruth]
  cases hs : s.isNull with
  | true => simp [Condition.truth, reads, Cell.isNull_ofJson h]
  | false =>
    have admits : FieldKind.text.admits s = true := by
      simpa [FieldKind.admitsNullable, hs] using admits
    simp only [Bool.false_eq_true, if_false, Condition.truth_any, List.map_cons, List.map_nil,
      Condition.truth, truth_matchesValue reads h admits, reads, Cell.isNull_ofJson h]
    cases v.isNull <;> cases equalTo true v s <;> rfl

/-- The column holds one of some texts, case apart. -/
theorem truth_holdsOneOf_ignoring (admits : ∀ s ∈ ss, FieldKind.text.admits s = true) :
    (holdsOneOf true column ss).truth db env = oneOfTruth true v ss := by
  rw [holdsOneOf, if_pos rfl, Condition.truth_any, List.map_map, oneOfTruth,
    any_isNull_of_admits admits]
  have each : ss.map (Condition.truth db env ∘ matchesValue true column) =
      ss.map fun s => if v.isNull then .unknown else .ofBool (equalTo true v s) :=
    List.map_congr_left fun s hs => truth_matchesValue reads h (admits s hs)
  rw [each]
  cases hv : v.isNull with
  | true =>
    simp only [if_true, Truth.any_map_unknown]
    cases ss <;> rfl
  | false => simp [Truth.any_map_ofBool]

/-- The condition of a comparison has its value, with case ignored where the mode is heeded. -/
theorem truth_ofComparison_ignoring {c : Comparison} (admitted : c.admittedOn .text = true) :
    (ofComparison true column c).truth db env = c.truth c.heedsMode v := by
  have exact : ∀ s, FieldKind.text.admits s = true → s.isExact = true := by
    intro s admits
    obtain ⟨t, rfl⟩ := text_of_admits admits
    rfl
  cases c with
  | equals operand => exact truth_matchesValue_nullable reads h admitted
  | differs operand => exact truth_differsFrom_ignoring reads h admitted
  | oneOf operands => exact truth_holdsOneOf_ignoring reads h (List.all_eq_true.mp admitted)
  | noneOf operands =>
    have admits := List.all_eq_true.mp admitted
    exact truth_holdsNoneOf reads h admits fun s hs => exact s (admits s hs)
  | ordered bound operand =>
    have precise : ∀ s ∈ [operand], s.isExact = true := by
      intro s hs
      rw [List.mem_singleton.mp hs]
      exact exact operand admitted
    exact truth_ofComparison (c := .ordered bound operand) reads h admitted precise
  | textual place term =>
    rw [ofComparison, Condition.truth, reads, Cell.like_patternOf_ignoring h]
    rfl

/-- **A filter that ignores case means on a text column what its comparisons mean, except that
exclusion and order compare texts as they are.** Where it has neither, it means there what it means
on a value. -/
theorem truth_ofFilter_ignoring {f : Filter} {place : String} {path : Path}
    (ignoring : f.ignoreCase = true) (valid : f.problems place path .text = []) :
    (ofFilter column f).truth db env =
        .all (f.comparisons.map fun c => c.truth c.heedsMode v) ∧
      ((∀ c ∈ f.comparisons, c.heedsMode = true) →
        (ofFilter column f).truth db env = f.truth v) := by
  have admitted := Filter.admitted_of_valid valid
  have parts : (ofFilter column f).truth db env =
      .all (f.comparisons.map fun c => c.truth c.heedsMode v) := by
    rw [ofFilter, Condition.truth_all, List.map_map, ignoring]
    exact congrArg Truth.all (List.map_congr_left fun c hc =>
      truth_ofComparison_ignoring reads h (admitted c hc))
  refine ⟨parts, fun heeded => ?_⟩
  rw [parts, Filter.truth, ignoring]
  exact congrArg Truth.all (List.map_congr_left fun c hc => by rw [heeded c hc])

end

/-- A text in capitals that is looked for with one in small letters, by four of the comparisons. -/
theorem truth_ofFilter_ignoring_capitals :
    let filter : Filter :=
      { equals := some (.text "ANN"), differs := some .null, oneOf := some [.text "bob", .text "Ann"]
        startsWith := some "AN", ignoreCase := true }
    let row : Record := fun _ => .text "ann"
    filter.problems "where" ⟨["firstName"]⟩ .text = [] ∧
      (ofFilter ⟨.main, "first_name"⟩ filter).truth (fun _ => []) (fun _ => row) =
        filter.truth (.str "ann") := by
  intro filter row
  have valid : filter.problems "where" ⟨["firstName"]⟩ .text = [] := by decide
  refine ⟨valid, (truth_ofFilter_ignoring (v := .str "ann") rfl rfl rfl valid).2 ?_⟩
  decide

/-- Exclusion does not: `ann` is not excluded by `Ann` on the column, and is on the value. Neither
does order: `ann` comes before `B` on the value alone. -/
theorem truth_ofFilter_unheeded :
    let excludes : Filter := { noneOf := some [.text "Ann"], ignoreCase := true }
    let bounds : Filter := { lt := some (.text "B"), ignoreCase := true }
    let column : Column := ⟨.main, "first_name"⟩
    let row : Record := fun _ => .text "ann"
    excludes.problems "where" ⟨["firstName"]⟩ .text = [] ∧
      (ofFilter column excludes).truth (fun _ => []) (fun _ => row) = .yes ∧
      excludes.truth (.str "ann") = .no ∧
      bounds.problems "where" ⟨["firstName"]⟩ .text = [] ∧
      (ofFilter column bounds).truth (fun _ => []) (fun _ => row) = .no ∧
      bounds.truth (.str "ann") = .yes := by
  decide

end Sql

end Roster
