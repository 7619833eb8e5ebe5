import Roster.Proofs.Predicate.Acceptance
import Roster.Proofs.Text.Surroundings

/-!
# What a filter finds when case is ignored

A filter that ignores case lower-cases the whole text and the whole term and then compares them.
Equal texts stay equal, so a value that is asked for is still found. A term that stands in a text is
still found if its lower-case form stands in the lower-case text, and that is for the term alone to
say: it is lost in some text exactly if a letter can change its form on a side on which the text may
go on (`TextMatch.accepts_lowercase_iff`). Only a capital sigma does that: "ΑΣ" ends a word and
becomes "ας", and "ΑΣΑ" does not end there and becomes "ασα".
-/

namespace Roster

/-! ## Terms -/

namespace TextMatch

/-- No letter beside the term changes its lower-case form, on the sides on which a text with the term
at that place may go on. -/
def Steady : TextMatch → String → Prop
  | .contains, term => Text.SteadyAfterLetter term ∧ Text.SteadyBeforeLetter term
  | .startsWith, term => Text.SteadyBeforeLetter term
  | .endsWith, term => Text.SteadyAfterLetter term

variable {place : TextMatch} {text term : String}

theorem steady_of_no_sigma (place : TextMatch) (plain : 'Σ' ∉ term.toList) : place.Steady term := by
  obtain ⟨before, after⟩ := Text.steady_of_no_sigma plain
  cases place with
  | contains => exact ⟨after, before⟩
  | startsWith => exact before
  | endsWith => exact after

/-- A steady term is found in lower case wherever it stands. -/
theorem accepts_lowercase (steady : place.Steady term) (found : place.accepts text term = true) :
    place.accepts (Text.lowercase text) (Text.lowercase term) = true := by
  unfold accepts at found ⊢
  cases place with
  | contains =>
    obtain ⟨front, back, parts⟩ := (occursIn_iff _ _).mp found
    exact (occursIn_iff _ _).mpr ⟨_, _,
      (Text.toList_lowercase_between parts.symm (.inr steady.1) (.inr steady.2)).symm⟩
  | startsWith =>
    obtain ⟨back, parts⟩ := List.isPrefixOf_iff_prefix.mp found
    have whole : text.toList = [] ++ term.toList ++ back := parts.symm
    exact List.isPrefixOf_iff_prefix.mpr ⟨_,
      (Text.toList_lowercase_between whole (.inl rfl) (.inr steady)).symm⟩
  | endsWith =>
    obtain ⟨front, parts⟩ := List.isSuffixOf_iff_suffix.mp found
    have whole : text.toList = front ++ term.toList ++ [] := by rw [List.append_nil, parts]
    refine List.isSuffixOf_iff_suffix.mpr ⟨Text.lowercaseBetween [] front (term.toList ++ []), ?_⟩
    rw [Text.toList_lowercase_between whole (.inr steady) (.inl rfl)]
    exact (List.append_nil _).symm

/-- **A term is found in lower case wherever it stands if and only if it is steady.** The two texts
that tell are the term with a letter in front and the term with a letter behind. -/
theorem accepts_lowercase_iff (place : TextMatch) (term : String) :
    (∀ text, place.accepts text term = true →
      place.accepts (Text.lowercase text) (Text.lowercase term) = true) ↔ place.Steady term := by
  refine ⟨fun kept => ?_, fun steady text found => accepts_lowercase steady found⟩
  have front : ("a" ++ term).toList = ['a'] ++ term.toList := String.toList_append
  have back : (term ++ "a").toList = term.toList ++ ['a'] := String.toList_append
  unfold accepts at kept
  cases place with
  | contains =>
    simp only [occursIn_iff] at kept
    exact ⟨Text.steadyAfterLetter_of_infix (kept _ ⟨['a'], [], by rw [front, List.append_nil]⟩),
      Text.steadyBeforeLetter_of_infix (kept _ ⟨[], ['a'], by rw [back, List.nil_append]⟩)⟩
  | startsWith =>
    simp only [List.isPrefixOf_iff_prefix] at kept
    exact Text.steadyBeforeLetter_of_infix (kept _ ⟨['a'], back.symm⟩).isInfix
  | endsWith =>
    simp only [List.isSuffixOf_iff_suffix] at kept
    exact Text.steadyAfterLetter_of_infix (kept _ ⟨['a'], front.symm⟩).isInfix

end TextMatch

/-! ## Comparisons -/

namespace Comparison

/-- The comparison asks for a value, one of several values or a term: it neither excludes nor orders. -/
def asks : Comparison → Bool
  | .equals _ => true
  | .oneOf _ => true
  | .textual _ _ => true
  | _ => false

/-- Lower-casing does not lose what the comparison asks for. -/
def Steady : Comparison → Prop
  | .textual place term => place.Steady term
  | _ => True

end Comparison

variable {v : Json} {operand : Scalar}

theorem equalTo_ignoringCase (equal : equalTo false v operand = true) :
    equalTo true v operand = true := by
  cases operand with
  | text value =>
    obtain ⟨text, rfl, same⟩ := equalTo_text_iff.mp equal
    exact equalTo_text_iff.mpr ⟨text, rfl, congrArg (comparedText true) same⟩
  | _ => cases v <;> exact equal

theorem any_equalTo_ignoringCase {operands : List Scalar}
    (equal : operands.any (equalTo false v) = true) : operands.any (equalTo true v) = true := by
  obtain ⟨operand, member, equal⟩ := List.any_eq_true.mp equal
  exact List.any_eq_true.mpr ⟨operand, member, equalTo_ignoringCase equal⟩

/-- **A steady comparison that passes still does when case is ignored.** -/
theorem Comparison.holds_ignoringCase {c : Comparison} (asks : c.asks = true) (steady : c.Steady)
    (passes : (c.truth false v).holds = true) : (c.truth true v).holds = true := by
  cases c with
  | equals operand =>
    rw [truth, equalsTruth] at passes ⊢
    split at passes
    case isTrue isNull => rwa [if_pos isNull]
    split at passes
    case isTrue => cases passes
    case isFalse named present =>
      rw [if_neg named, if_neg present, Truth.holds_ofBool]
      exact equalTo_ignoringCase (by rwa [Truth.holds_ofBool] at passes)
  | oneOf operands =>
    rw [truth, oneOfTruth] at passes ⊢
    split at passes
    case isTrue => cases passes
    case isFalse known =>
      rw [if_neg known, Truth.holds_ofBool]
      exact any_equalTo_ignoringCase (by rwa [Truth.holds_ofBool] at passes)
  | textual place term =>
    rw [truth] at passes ⊢
    obtain ⟨text, rfl, found⟩ := holds_textualTruth_iff.mp passes
    exact holds_textualTruth_iff.mpr ⟨text, rfl, TextMatch.accepts_lowercase steady found⟩
  | differs | noneOf | ordered => cases asks

/-! ## Filters -/

namespace Filter

variable {f : Filter}

/-- Whatever the filter accepts of a row, it also accepts when case is ignored. -/
def KeepsMatches (f : Filter) : Prop :=
  ∀ (path : Path) (row : Json),
    (Predicate.operator path { f with ignoreCase := false }).accepts row = true →
      (Predicate.operator path { f with ignoreCase := true }).accepts row = true

theorem keepsMatches_of_steady (asks : ∀ c ∈ f.comparisons, c.asks = true)
    (steady : ∀ c ∈ f.comparisons, c.Steady) : f.KeepsMatches := by
  intro path row matched
  rw [Predicate.accepts_operator, List.any_eq_true] at matched ⊢
  obtain ⟨v, reached, passes⟩ := matched
  rw [holds_truth, List.all_eq_true] at passes
  refine ⟨v, reached, ?_⟩
  rw [holds_truth, List.all_eq_true]
  exact fun c hc => Comparison.holds_ignoringCase (asks c hc) (steady c hc) (passes c hc)

/-- A row with a single column. -/
def rowWith (v : Json) : Json := .obj [("text", v)]

theorem accepts_rowWith (f : Filter) (text : String) :
    (Predicate.operator ⟨["text"]⟩ f).accepts (rowWith (.str text)) = (f.truth (.str text)).holds := by
  rw [Predicate.accepts_operator]
  exact Bool.or_false _

/-- A filter that only looks for a term and loses no match looks for a steady one. -/
theorem steady_of_keepsMatches {place : TextMatch} {term : String}
    (single : f.comparisons = [.textual place term]) (keeps : f.KeepsMatches) :
    place.Steady term := by
  refine (place.accepts_lowercase_iff term).mp fun text found => ?_
  have kept := keeps ⟨["text"]⟩ (rowWith (.str text))
  have looks (ignoring : Bool) : { f with ignoreCase := ignoring }.comparisons =
    [.textual place term] := single
  simp only [accepts_rowWith, holds_truth, looks, List.all_cons, List.all_nil, Bool.and_true,
    Comparison.truth, textualTruth, Truth.holds_ofBool] at kept
  exact kept found

/-- **Ignoring case loses no match as long as the terms are steady.** Terms without a capital sigma
are. A filter with a single comparison loses no match exactly then. -/
theorem keepsMatches_of_asks (asks : ∀ c ∈ f.comparisons, c.asks = true) :
    ((∀ c ∈ f.comparisons, c.Steady) → f.KeepsMatches) ∧
      ((∀ place term, .textual place term ∈ f.comparisons → 'Σ' ∉ term.toList) → f.KeepsMatches) ∧
        ∀ c, f.comparisons = [c] → (f.KeepsMatches ↔ c.Steady) := by
  refine ⟨keepsMatches_of_steady asks, fun plain => keepsMatches_of_steady asks ?_, ?_⟩
  · intro c hc
    cases c with
    | textual place term => exact place.steady_of_no_sigma (plain place term hc)
    | _ => trivial
  · intro c single
    refine ⟨fun keeps => ?_, fun steady => keepsMatches_of_steady asks ?_⟩
    · cases c with
      | textual place term => exact steady_of_keepsMatches single keeps
      | _ => trivial
    · rw [single]
      exact fun _ member => List.mem_singleton.mp member ▸ steady

/-- A sigma at the end of a text does not lose its form to what stands in front of the term. -/
theorem keepsMatches_of_asks_street :
    let f : Filter := { oneOf := some [.text "ΟΔΟΣ", .text "Road"], endsWith := some "ΔΟΣ" }
    let row := Json.obj [("address", .obj [("street", .str "ΟΔΟΣ")])]
    let leaf (ignoring : Bool) :=
      Predicate.operator ⟨["address", "street"]⟩ { f with ignoreCase := ignoring }
    (∀ c ∈ f.comparisons, c.asks = true) ∧ (∀ c ∈ f.comparisons, c.Steady) ∧
      (leaf false).accepts row = true ∧ (leaf true).accepts row = true := by
  intro f row leaf
  have asks : ∀ c ∈ f.comparisons, c.asks = true := by decide
  have steady : ∀ c ∈ f.comparisons, c.Steady := by
    have listed : f.comparisons =
      [.oneOf [.text "ΟΔΟΣ", .text "Road"], .textual .endsWith "ΔΟΣ"] := rfl
    rw [listed, List.forall_mem_cons, List.forall_mem_singleton]
    exact ⟨trivial, show Text.SteadyAfterLetter "ΔΟΣ" by decide +kernel⟩
  have found : (leaf false).accepts row = true := by decide +kernel
  exact ⟨asks, steady, found, (keepsMatches_of_asks asks).1 steady ⟨["address", "street"]⟩ row found⟩

/-- The sigma that ends the term is no final one in the text. -/
theorem not_keepsMatches_of_final_sigma :
    let f : Filter := { contains := some "ΑΣ" }
    let row := Json.obj [("firstName", .str "ΑΣΑ")]
    let leaf (ignoring : Bool) := Predicate.operator ⟨["firstName"]⟩ { f with ignoreCase := ignoring }
    (∀ c ∈ f.comparisons, c.asks = true) ∧ (leaf false).accepts row = true ∧
      (leaf true).accepts row = false ∧ ¬ f.KeepsMatches := by
  intro f row leaf
  have found : (leaf false).accepts row = true := by decide +kernel
  have lost : (leaf true).accepts row = false := by decide +kernel
  refine ⟨by decide, found, lost, fun keeps => ?_⟩
  have kept : (leaf true).accepts row = true := keeps ⟨["firstName"]⟩ row found
  rw [lost] at kept
  cases kept

end Filter

end Roster
