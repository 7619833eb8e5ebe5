import Roster.Proofs.Predicate.Leaves
import Roster.Proofs.Store.Reach

/-!
# Conditions on columns

A predicate without relations on its paths is evaluated on the row as it stands, with nothing put
into it. The condition that is met most often is that a column has a certain text. Beside a filter
such a condition picks from the rows that the filter matches (`Tables.matching_mergeAnd_columns`).
-/

namespace Roster

/-- One of the values of a column is the text. -/
def Json.HasText (row : Json) (column text : String) : Prop :=
  .str text ∈ Path.valuesIn ⟨[column]⟩ row

/-- A column of an object has the one value that stands there, or the items of it. -/
theorem Path.valuesIn_column {row : Json} (object : row.isObject = true) (column : String) :
    Path.valuesIn ⟨[column]⟩ row = (row.field column).flatten := by
  rw [Path.valuesIn, walk, stepInto, List.flatMap_singleton, Json.flatten_of_isObject object,
    List.map_singleton, List.flatMap_singleton]

theorem equalTo_text {text : String} {v : Json} :
    equalTo false v (.text text) = true ↔ v = .str text := by
  simp [equalTo_text_iff, comparedText]

theorem holds_equalsTruth_text {text : String} {v : Json} :
    (equalsTruth false v (.text text)).holds = true ↔ v = .str text := by
  simp [holds_equalsTruth_text_iff, comparedText]

/-- Equality with a text accepts the rows that have it. -/
theorem Predicate.accepts_equals_text {path : Path} {text : String} {row : Json} :
    (Predicate.equals path (.text text)).accepts row = true ↔ .str text ∈ path.valuesIn row := by
  rw [accepts_equals, List.any_eq_true]
  constructor
  · rintro ⟨v, member, holds⟩
    exact holds_equalsTruth_text.mp holds ▸ member
  · intro member
    exact ⟨_, member, holds_equalsTruth_text.mpr rfl⟩

theorem holds_oneOfTruth_texts {keys : List String} {v : Json} :
    (oneOfTruth false v (keys.map .text)).holds = true ↔ ∃ key ∈ keys, v = .str key := by
  have listed : (keys.map Scalar.text).any (equalTo false v) = true ↔ ∃ key ∈ keys, v = .str key := by
    simp only [List.any_map, List.any_eq_true, Function.comp_apply, equalTo_text]
  rw [oneOfTruth]
  split
  · next unknown =>
    simp only [Bool.and_eq_true] at unknown
    constructor
    · intro h
      cases h
    · rintro ⟨key, -, rfl⟩
      cases unknown.1.1
  · rw [Truth.holds_ofBool]
    exact listed

/-- Membership among texts accepts the rows that have one of them. -/
theorem Predicate.accepts_oneOf_texts {path : Path} {keys : List String} {row : Json} :
    (Predicate.operator path { oneOf := some (keys.map .text) }).accepts row = true ↔
      ∃ key ∈ keys, .str key ∈ path.valuesIn row := by
  have test : ∀ v, (Filter.truth { oneOf := some (keys.map .text) } v).holds = true ↔
      ∃ key ∈ keys, v = .str key := by
    intro v
    rw [← holds_oneOfTruth_texts]
    simp [Filter.truth, Filter.comparisons, Comparison.truth]
  rw [accepts_operator, List.any_eq_true]
  constructor
  · rintro ⟨v, member, holds⟩
    obtain ⟨key, listed, rfl⟩ := (test v).mp holds
    exact ⟨key, listed, member⟩
  · rintro ⟨key, listed, member⟩
    exact ⟨_, member, (test _).mpr ⟨key, listed, rfl⟩⟩

namespace Hops

/-- Columns of the row itself lead along no relation. -/
theorem ofPredicate_of_columns {p : Predicate} (columns : ∀ path ∈ p.paths, path.relations = []) :
    ofPredicate p = none := by
  rw [ofPredicate]
  generalize p.paths = paths at columns
  induction paths with
  | nil => rfl
  | cons path rest ih =>
    rw [List.foldl_cons, columns path List.mem_cons_self, insert]
    exact ih fun other member => columns other (List.mem_cons_of_mem _ member)

end Hops

namespace Tables

variable {t : Tables} {r : Registry} {e : Entity} {row : Json}

/-- A copy that carries no relation is the row. -/
theorem embed_none : t.embed r e row Hops.none = row := by
  cases row <;> rfl

/-- A predicate on columns is evaluated on the row. -/
theorem passes_of_columns {p : Predicate} (columns : ∀ path ∈ p.paths, path.relations = []) :
    t.passes r e p row = p.accepts row := by
  rw [passes, Hops.ofPredicate_of_columns columns, embed_none]

/-! ## Merged filters -/

/-- **A row passes a merged filter when it passes every clause of it**, each evaluated on its own copy
of the row. -/
theorem passes_mergeAnd {clauses : List (Option Predicate)}
    (resolves : ∀ clause ∈ clauses, ∀ p ∈ clause, Resolves r e p) (row : Json) :
    (Predicate.mergeAnd clauses).all (t.passes r e · row) =
      clauses.all fun clause => clause.all (t.passes r e · row) := by
  -- one copy that carries the relations of all clauses
  let whole := Predicate.and (clauses.filterMap id)
  have tidy := Hops.tidy_ofPredicate whole
  have covers : ∀ clause ∈ clauses, ∀ p ∈ clause, ∀ path ∈ p.paths,
      (Hops.ofPredicate whole).Covers path.relations := by
    intro clause hclause p hp path hpath
    refine Hops.covers_ofPredicate ?_
    obtain ⟨leaf, hleaf, hpath⟩ := (Predicate.mem_paths_iff p).mp hpath
    have listed : p ∈ clauses.filterMap id := List.mem_filterMap.mpr ⟨clause, hclause, hp⟩
    exact (Predicate.mem_paths_iff whole).mpr
      ⟨leaf, Predicate.mem_leavesOfAll.mpr ⟨p, listed, hleaf⟩, hpath⟩
  have coversMerged : ∀ merged ∈ Predicate.mergeAnd clauses, ∀ path ∈ merged.paths,
      (Hops.ofPredicate whole).Covers path.relations := by
    intro merged hmerged path hpath
    obtain ⟨clause, hclause, p, hp, hpath⟩ := Predicate.exists_clause_of_mem_paths hmerged hpath
    exact covers clause hclause p hp path hpath
  have resolvesMerged : ∀ merged ∈ Predicate.mergeAnd clauses, Resolves r e merged := by
    intro merged hmerged path hpath
    obtain ⟨clause, hclause, p, hp, hpath⟩ := Predicate.exists_clause_of_mem_paths hmerged hpath
    exact resolves clause hclause p hp path hpath
  rw [← accepts?_embed tidy coversMerged resolvesMerged, Predicate.accepts?_mergeAnd,
    Bool.eq_iff_iff, List.all_eq_true, List.all_eq_true]
  refine forall₂_congr fun clause hclause => ?_
  rw [accepts?_embed tidy (covers clause hclause) (resolves clause hclause)]

/-- A condition on columns beside a filter picks rows from those that the filter matches. -/
theorem matching_mergeAnd_columns {p : Predicate} {filter : Option Predicate}
    (columns : ∀ path ∈ p.paths, path.relations = []) (resolves : Resolves r e p)
    (resolvesFilter : ∀ q ∈ filter, Resolves r e q) :
    t.matching r e (Predicate.mergeAnd [some p, filter]) =
      (t.matching r e filter).filter p.accepts := by
  have each : ∀ clause ∈ [some p, filter], ∀ q ∈ clause, Resolves r e q := by
    intro clause hclause q hq
    rcases List.mem_cons.mp hclause with rfl | hclause
    · exact Option.some.inj hq ▸ resolves
    · exact resolvesFilter q (List.mem_singleton.mp hclause ▸ hq)
  rw [matching_eq, matching_eq, List.filter_filter]
  refine List.filter_congr fun row _ => ?_
  rw [passes_mergeAnd each, List.all_cons, List.all_cons, List.all_nil, Bool.and_true,
    Option.all_some, passes_of_columns columns]

end Tables

end Roster
