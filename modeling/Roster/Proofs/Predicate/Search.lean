import Roster.Predicate.Search
import Roster.Proofs.Predicate.Settled
import Roster.Proofs.Text.Words

/-!
# What a search accepts

A search keeps the filter that it is put on, but for an earlier search over the same fields, and asks
for every word of its text in some field. Its condition is a flat disjunction for one word, a
conjunction of disjunctions for several and nothing at all for a blank text, and it is put beside
conjuncts that may have been unwrapped; `Search.accepts_search_iff` says that none of this shows in what
is accepted. What a field has to have for a word to be in it is `SearchOperator.Stands`.
-/

namespace Roster

/-! ## One word -/

namespace SearchOperator

/-- How a word stands in a text. -/
def Stands (o : SearchOperator) (word text : String) : Prop :=
  match o with
  | .contains => word.toList <:+: text.toList
  | .startsWith => word.toList <+: text.toList
  | .endsWith => word.toList <:+ text.toList
  | .equals => text = word

/-- The filter of a word lets the texts pass in which the word stands, and nothing but texts. -/
theorem holds_truth_filter_iff (o : SearchOperator) (caseSensitive : Bool) (word : String)
    (v : Json) :
    ((o.filter caseSensitive word).truth v).holds = true ↔
      ∃ text, v = .str text ∧
        o.Stands (comparedText (!caseSensitive) word) (comparedText (!caseSensitive) text) := by
  rw [Filter.holds_truth, comparisons_filter, ignoreCase_filter, List.all_cons, List.all_nil,
    Bool.and_true]
  cases o with
  | contains =>
    refine holds_textualTruth_iff.trans (exists_congr fun text => and_congr_right' ?_)
    exact occursIn_iff _ _
  | startsWith =>
    refine holds_textualTruth_iff.trans (exists_congr fun text => and_congr_right' ?_)
    exact List.isPrefixOf_iff_prefix
  | endsWith =>
    refine holds_textualTruth_iff.trans (exists_congr fun text => and_congr_right' ?_)
    exact List.isSuffixOf_iff_suffix
  | equals => exact holds_equalsTruth_text_iff

/-- **The leaf of a word accepts the rows that have the word in a text behind the path**, case apart
unless the search is case-sensitive. -/
theorem accepts_filter_iff (o : SearchOperator) (caseSensitive : Bool) (word : String)
    (path : Path) (row : Json) :
    (Predicate.operator path (o.filter caseSensitive word)).accepts row = true ↔
      ∃ text, .str text ∈ path.valuesIn row ∧
        o.Stands (comparedText (!caseSensitive) word) (comparedText (!caseSensitive) text) := by
  rw [Predicate.accepts_operator, List.any_eq_true]
  simp only [holds_truth_filter_iff]
  constructor
  · rintro ⟨v, member, text, rfl, stands⟩
    exact ⟨text, member, stands⟩
  · rintro ⟨text, member, stands⟩
    exact ⟨_, member, text, rfl, stands⟩

end SearchOperator

/-! ## All words -/

namespace Search

open Predicate

variable {s : Search} {row : Json}

/-- Some field has the word. -/
def Finds (s : Search) (row : Json) (word : String) : Prop :=
  ∃ path ∈ s.fields,
    (Predicate.operator path (s.operator.filter s.caseSensitive word)).accepts row = true

/-- A word is found where it stands in a text behind some field. -/
theorem finds_iff (word : String) :
    s.Finds row word ↔ ∃ path ∈ s.fields, ∃ text, .str text ∈ path.valuesIn row ∧
      s.operator.Stands (comparedText (!s.caseSensitive) word)
        (comparedText (!s.caseSensitive) text) :=
  exists_congr fun path => and_congr_right' (s.operator.accepts_filter_iff _ word path row)

theorem any_branches_iff (word : String) :
    (s.branches word).any (·.accepts row) = true ↔ s.Finds row word := by
  rw [branches, List.any_map, List.any_eq_true]
  rfl

/-- What comes out of compiling becomes a condition: a conjunction stays, branches are joined. -/
theorem condition_of_branches {word : String} (single : s.compile = s.branches word)
    (searched : s.fields ≠ []) : s.condition = some (.or (s.branches word)) := by
  rw [condition, single, branches]
  cases hf : s.fields with
  | nil => exact absurd hf searched
  | cons path rest => rfl

/-- Several words compile to a conjunction with a disjunction for each. -/
theorem compile_of_words {first second : String} {others : List String}
    (words : Text.words s.text = first :: second :: others) (searched : s.fields ≠ []) :
    s.compile = [.and ((first :: second :: others).map fun word => .or (s.branches word))] := by
  rw [compile, words]
  exact if_neg (by simpa using searched)

/-- **The condition of a search asks for every word.** -/
theorem accepts?_condition_iff (searched : s.fields ≠ []) :
    accepts? s.condition row = true ↔ ∀ word ∈ Text.words s.text, s.Finds row word := by
  cases hw : Text.words s.text with
  | nil =>
    have nothing : s.compile = [] := by rw [compile, hw]
    simp [condition, nothing, accepts?]
  | cons word rest =>
    cases rest with
    | nil =>
      have single : s.compile = s.branches word := by rw [compile, hw]
      rw [condition_of_branches single searched, accepts?, Option.all_some, accepts_or,
        any_branches_iff, List.forall_mem_singleton]
    | cons second others =>
      rw [condition, compile_of_words hw searched, accepts?, Option.all_some, accepts_and,
        List.all_map, List.all_eq_true]
      refine forall₂_congr fun word _ => ?_
      rw [Function.comp_apply, accepts_or, any_branches_iff]

/-- Without fields there is nothing to search. -/
theorem condition_of_no_fields (none : s.fields = []) : s.condition = .none := by
  have nothing : s.compile = [] := by
    rw [compile]
    split
    · rfl
    · rw [branches, none, List.map_nil]
    · rw [if_pos (by simp [none])]
  rw [condition, nothing]

/-- A condition with the shape of a search over no fields does not exist. -/
theorem isSearch_of_no_fields (p : Predicate) : isSearch [] p = false := by
  have nowhere : ∀ path : Option Path, path.any ([] : List Path).contains = false := by
    rintro (_ | path) <;> rfl
  have alternatives : ∀ p, isAlternatives [] p = false := by
    intro p
    cases p with
    | or children => cases children <;> simp [isAlternatives, nowhere]
    | _ => rfl
  cases p with
  | and children => cases children <;> simp [isSearch, alternatives]
  | _ => simp [isSearch, alternatives]

/-- A filter without its search accepts what its other conjuncts accept. -/
theorem accepts?_clear (filter : Option Predicate) (fields : List Path) (row : Json) :
    accepts? (clear filter fields) row =
      ((conjunctsOf filter).filter fun c => !isSearch fields c).all (·.accepts row) := by
  cases filter with
  | none => rfl
  | some p =>
    rw [clear, accepts?_mergeAnd, List.all_map]
    rfl

/-- A search is put beside what is left of the filter. -/
theorem accepts?_apply (s : Search) (filter : Option Predicate) (row : Json) :
    accepts? (s.apply filter) row =
      (accepts? (clear filter s.fields) row && accepts? s.condition row) := by
  rw [apply, accepts?_mergeAnd, List.all_append, List.all_map, List.all_cons, List.all_nil,
    Bool.and_true, accepts?_conjunctsOf (clear filter s.fields) row]
  rfl

/-- **A search over fields accepts a row that passes the rest of the filter and has every word of the
text in some field.** Over no fields it leaves the filter as it is. -/
theorem accepts_search_iff (s : Search) (filter : Option Predicate) (row : Json) :
    (s.fields ≠ [] → (accepts? (s.apply filter) row = true ↔
      accepts? (clear filter s.fields) row = true ∧
        ∀ word, Text.IsWord word s.text → ∃ path ∈ s.fields,
          (Predicate.operator path (s.operator.filter s.caseSensitive word)).accepts row = true)) ∧
    (s.fields = [] → accepts? (s.apply filter) row = accepts? filter row) := by
  constructor
  · intro searched
    rw [accepts?_apply, Bool.and_eq_true, accepts?_condition_iff searched]
    simp only [Text.mem_words_iff, Finds]
  · intro none
    have whole : (conjunctsOf filter).filter (fun c => !isSearch [] c) = conjunctsOf filter :=
      List.filter_eq_self.mpr fun c _ => by rw [isSearch_of_no_fields, Bool.not_false]
    rw [accepts?_apply, condition_of_no_fields none, none, accepts?_clear, whole,
      ← accepts?_conjunctsOf filter row]
    exact Bool.and_true _

/-- Two words, each in another field, in place of an earlier search that the row would not pass. -/
theorem accepts_search_iff_two_words :
    let s : Search := { fields := [⟨["firstName"]⟩, ⟨["lastName"]⟩], text := " ann  lee" }
    let earlier : Search := { s with text := "bob" }
    let filter := earlier.apply (some (.equals ⟨["email"]⟩ (.text "lee@example.com")))
    let row := Json.obj [("firstName", .str "Lee"), ("lastName", .str "Annable"),
      ("email", .str "lee@example.com")]
    s.fields ≠ [] ∧ accepts? filter row = false ∧ accepts? (s.apply filter) row = true := by
  intro s earlier filter row
  have searched : s.fields ≠ [] := List.cons_ne_nil _ _
  refine ⟨searched, by decide +kernel, ((accepts_search_iff s filter row).1 searched).mpr
    ⟨by decide +kernel, fun word isWord => ?_⟩⟩
  have words : Text.words s.text = ["ann", "lee"] := by decide +kernel
  have member := Text.mem_words_iff.mpr isWord
  rw [words, List.mem_cons, List.mem_singleton] at member
  rcases member with rfl | rfl
  · exact ⟨⟨["lastName"]⟩, by decide, by decide +kernel⟩
  · exact ⟨⟨["firstName"]⟩, by decide, by decide +kernel⟩

end Search

end Roster
