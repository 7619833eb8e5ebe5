import Roster.Proofs.Predicate.Search

/-!
# One search in the place of another

A search takes out the search before it and is put beside the other conditions of the filter
(`Search.apply_eq`). What it takes out it finds among the conjuncts of the filter, and a conjunction
that is left alone is taken apart on the way, so that its parts are conjuncts of the result. The next
search then looks at these parts, which this one did not.

So the second of two searches replaces the first and nothing else exactly if what the first one leaves
is `Steady` (`Search.apply_apply_iff`): no condition in it looks like a search, and it is not a single
conjunction again. A filter of which something else than one conjunction is left is of this kind. In
the others a condition of the caller can be lost to the second search (`Search.apply_apply_of_nested`).
-/

namespace Roster.Search

open Predicate

variable {fields : List Path} {filter : Option Predicate} {s t : Search} {p : Predicate}

/-! ## Composition -/

theorem present_map_some (ps : List Predicate) :
    present (ps.map some) = ps.filter fun p => !p.isEmpty := by
  rw [present, List.filterMap_map]
  simp

/-- A conjunction has the conjuncts that it is composed of, but for a single conjunction, which is not
wrapped. -/
theorem conjunctsOf_compose_and {ps : List Predicate} (several : ∀ qs, ps ≠ [.and qs]) :
    conjunctsOf (compose .and ps) = ps := by
  match ps with
  | [] => rfl
  | [p] =>
    cases p with
    | and qs => exact absurd rfl (several qs)
    | _ => rfl
  | _ :: _ :: _ => rfl

/-- No conjunction is a part of itself. -/
theorem sizeOf_lt_of_mem {ps : List Predicate} (member : p ∈ ps) : sizeOf p < sizeOf (and ps) := by
  have part := List.sizeOf_lt_of_mem member
  rw [Predicate.and.sizeOf_spec]
  omega

/-- Conditions that one more condition is put beside can be told from the result. -/
theorem compose_concat_inj {ps qs : List Predicate}
    (same : compose .and (ps ++ [p]) = compose .and (qs ++ [p])) : ps = qs := by
  have wrapped : ∀ q rest, compose .and (q :: rest ++ [p]) = some (.and (q :: rest ++ [p])) := by
    intro q rest
    cases rest <;> rfl
  have apart : ∀ q rest, some p ≠ some (and (q :: rest ++ [p])) := by
    intro q rest h
    have part : sizeOf p < sizeOf (and (q :: rest ++ [p])) := sizeOf_lt_of_mem (by simp)
    rw [← Option.some.inj h] at part
    exact Nat.lt_irrefl _ part
  cases ps with
  | nil =>
    cases qs with
    | nil => rfl
    | cons q rest => exact absurd (same.trans (wrapped q rest)) (apart q rest)
  | cons q rest =>
    cases qs with
    | nil => exact absurd (same.symm.trans (wrapped q rest)) (apart q rest)
    | cons q' rest' =>
      rw [wrapped, wrapped] at same
      exact List.append_cancel_right (and.inj (Option.some.inj same))

/-! ## The shape of a search -/

theorem isAlternatives_branches (searched : s.fields ≠ []) (word : String) :
    isAlternatives s.fields (.or (s.branches word)) = true := by
  have paths : (s.branches word).map path? = s.fields.map some := by
    rw [branches, List.map_map]
    rfl
  have some_branch : s.branches word ≠ [] := by simpa [branches] using searched
  simp [isAlternatives, paths, some_branch]

/-- The condition of a search is one disjunction over its fields, or a conjunction of such. -/
theorem condition_cases {c : Predicate} (asked : s.condition = some c) :
    s.fields ≠ [] ∧ ((∃ word, s.compile = s.branches word ∧ c = .or (s.branches word)) ∨
      ∃ words ≠ [], s.compile = [c] ∧ c = .and (words.map fun word => .or (s.branches word))) := by
  have searched : s.fields ≠ [] := by
    intro none
    rw [condition_of_no_fields none] at asked
    cases asked
  refine ⟨searched, ?_⟩
  cases hw : Text.words s.text with
  | nil =>
    have nothing : s.compile = [] := by rw [compile, hw]
    rw [condition, nothing] at asked
    cases asked
  | cons word rest =>
    cases rest with
    | nil =>
      have single : s.compile = s.branches word := by rw [compile, hw]
      rw [condition_of_branches single searched] at asked
      exact .inl ⟨word, single, (Option.some.inj asked).symm⟩
    | cons second others =>
      have several := compile_of_words hw searched
      rw [condition, several] at asked
      have joined := (Option.some.inj asked).symm
      exact .inr ⟨_, List.cons_ne_nil _ _, several.trans (congrArg (fun c => [c]) joined.symm), joined⟩

/-- **A search has the shape by which the next one knows it.** -/
theorem isSearch_condition {c : Predicate} (asked : s.condition = some c) :
    isSearch s.fields c = true := by
  obtain ⟨searched, ⟨word, -, rfl⟩ | ⟨words, some_word, -, rfl⟩⟩ := condition_cases asked
  · exact isAlternatives_branches searched word
  · simp [isSearch, some_word, isAlternatives_branches searched]

theorem isSearch_of_isAlternatives (h : isAlternatives fields p = true) :
    isSearch fields p = true := by
  cases p with
  | and children => cases h
  | _ => exact h

/-- The parts of a search are searches. -/
theorem isSearch_of_mem_conjuncts {c : Predicate} (h : isSearch fields p = true)
    (member : c ∈ p.conjuncts) : isSearch fields c = true := by
  cases p with
  | and children =>
    rw [isSearch, Bool.and_eq_true, List.all_eq_true] at h
    exact isSearch_of_isAlternatives (h.2 c member)
  | _ => exact List.mem_singleton.mp member ▸ h

theorem isEmpty_of_isSearch (h : isSearch fields p = true) : p.isEmpty = false := by
  cases p with
  | and children =>
    cases children with
    | nil => cases h
    | cons => rfl
  | _ => rfl

/-! ## What a search leaves -/

/-- The conditions of a filter that say something and do not look like a search. -/
def others (fields : List Path) (filter : Option Predicate) : List Predicate :=
  (conjunctsOf filter).filter fun c => !isSearch fields c && !c.isEmpty

/-- The conditions that a search over the fields is put beside. -/
def rest (fields : List Path) (filter : Option Predicate) : List Predicate :=
  (conjunctsOf (clear filter fields)).filter fun c => !c.isEmpty

theorem mem_others_iff : p ∈ others fields filter ↔
    p ∈ conjunctsOf filter ∧ isSearch fields p = false ∧ p.isEmpty = false := by
  simp [others]

theorem mem_rest_iff : p ∈ rest fields filter ↔
    p ∈ conjunctsOf (clear filter fields) ∧ p.isEmpty = false := by
  simp [rest]

theorem clear_eq (filter : Option Predicate) (fields : List Path) :
    clear filter fields = compose .and (others fields filter) := by
  cases filter with
  | none => rfl
  | some p =>
    rw [clear, mergeAnd, present_map_some, List.filter_filter]
    exact congrArg (compose .and) (List.filter_congr fun c _ => Bool.and_comm _ _)

/-- **A search is put beside the conditions that it leaves.** -/
theorem apply_eq (s : Search) (filter : Option Predicate) :
    s.apply filter = compose .and (rest s.fields filter ++ s.condition.toList) := by
  have asked : present [s.condition] = s.condition.toList := by
    cases h : s.condition with
    | none => rfl
    | some c => simp [present, isEmpty_of_isSearch (isSearch_condition h)]
  have split : ∀ ps : List Predicate, present (ps.map some ++ [s.condition]) =
      present (ps.map some) ++ present [s.condition] := by simp [present]
  rw [apply, mergeAnd, split, present_map_some, asked]
  rfl

/-- Unless a single conjunction is left, nothing is taken apart. -/
theorem rest_eq_others (several : ∀ ps, others fields filter ≠ [.and ps]) :
    rest fields filter = others fields filter := by
  rw [rest, clear_eq, conjunctsOf_compose_and several]
  exact List.filter_eq_self.mpr fun c member => by simp [(mem_others_iff.mp member).2.2]

theorem rest_of_others_eq_single {ps : List Predicate} (single : others fields filter = [.and ps]) :
    rest fields filter = ps.filter fun c => !c.isEmpty := by
  rw [rest, clear_eq, single]
  rfl

/-- Where a search was put beside the conditions that it left, the next one leaves these again. -/
theorem others_apply (plain : ∀ p ∈ rest s.fields filter, isSearch s.fields p = false)
    (beside : rest s.fields filter = [] ∨
      ∀ qs, rest s.fields filter ++ s.condition.toList ≠ [.and qs]) :
    others s.fields (s.apply filter) = rest s.fields filter := by
  rw [apply_eq]
  rcases beside with nothing | several
  · -- the search stands alone, whole or in parts
    rw [nothing]
    refine List.filter_eq_nil_iff.mpr fun c member => ?_
    cases asked : s.condition with
    | none => rw [asked] at member; cases member
    | some q =>
      rw [asked] at member
      simp [isSearch_of_mem_conjuncts (isSearch_condition asked) member]
  · have kept : (rest s.fields filter).filter (fun c => !isSearch s.fields c && !c.isEmpty) =
        rest s.fields filter :=
      List.filter_eq_self.mpr fun c member => by simp [plain c member, (mem_rest_iff.mp member).2]
    have gone : s.condition.toList.filter (fun c => !isSearch s.fields c && !c.isEmpty) = [] :=
      List.filter_eq_nil_iff.mpr fun c member => by
        simp [isSearch_condition (Option.mem_toList.mp member)]
    rw [others, conjunctsOf_compose_and several, List.filter_append, kept, gone, List.append_nil]

/-! ## Searching again -/

/-- The next search finds what this one leaves as it is: no condition looks like a search, and it is
not one conjunction, which would be taken apart. -/
def Steady (fields : List Path) (filter : Option Predicate) : Prop :=
  (∀ p ∈ rest fields filter, isSearch fields p = false) ∧ ∀ ps, rest fields filter ≠ [.and ps]

theorem steady_of_others (several : ∀ ps, others fields filter ≠ [.and ps]) :
    Steady fields filter := by
  rw [Steady, rest_eq_others several]
  exact ⟨fun p member => (mem_others_iff.mp member).2.1, several⟩

/-- What a steady filter is searched for does not change what the next search leaves of it. -/
theorem rest_apply (steady : Steady s.fields filter) :
    rest s.fields (s.apply filter) = rest s.fields filter := by
  obtain ⟨plain, several⟩ := steady
  have left : others s.fields (s.apply filter) = rest s.fields filter := by
    refine others_apply plain ?_
    cases hrest : rest s.fields filter with
    | nil => exact .inl rfl
    | cons first more =>
      refine .inr fun qs h => ?_
      obtain ⟨rfl, nothing⟩ := List.cons.inj h
      rw [(List.append_eq_nil_iff.mp nothing).1] at hrest
      exact several qs hrest
  rw [rest_eq_others (left ▸ several), left]

/-- A filter of which the next search leaves as much is steady. -/
theorem steady_of_rest_apply (same : rest s.fields (s.apply filter) = rest s.fields filter) :
    Steady s.fields filter := by
  by_cases several : ∀ ps, others s.fields (s.apply filter) ≠ [.and ps]
  · rw [rest_eq_others several] at same
    rw [Steady, ← same]
    exact ⟨fun p member => (mem_others_iff.mp member).2.1, several⟩
  · -- a conjunction that is taken apart into the conditions among which it stands
    exfalso
    obtain ⟨ps, single⟩ := Classical.not_forall_not.mp several
    rw [rest_of_others_eq_single single] at same
    have inside : ∀ p ∈ rest s.fields filter, sizeOf p < sizeOf (and ps) := fun p member =>
      sizeOf_lt_of_mem (List.mem_filter.mp (same ▸ member)).1
    have member : and ps ∈ others s.fields (s.apply filter) := single ▸ List.mem_singleton_self _
    obtain ⟨member, plain, -⟩ := mem_others_iff.mp member
    rw [apply_eq] at member
    have listed : and ps ∉ rest s.fields filter ++ s.condition.toList := by
      intro h
      rcases List.mem_append.mp h with h | h
      · exact Nat.lt_irrefl _ (inside _ h)
      · rw [isSearch_condition (Option.mem_toList.mp h)] at plain
        cases plain
    by_cases wrapped : ∀ qs, rest s.fields filter ++ s.condition.toList ≠ [.and qs]
    · rw [conjunctsOf_compose_and wrapped] at member
      exact listed member
    · obtain ⟨qs, alone⟩ := Classical.not_forall_not.mp wrapped
      rw [alone] at member
      have part : sizeOf (and ps) < sizeOf (and qs) := sizeOf_lt_of_mem member
      have top : and qs ∈ rest s.fields filter ++ s.condition.toList :=
        alone ▸ List.mem_singleton_self _
      rcases List.mem_append.mp top with h | h
      · exact Nat.lt_asymm part (inside _ h)
      · rw [isSearch_of_mem_conjuncts (isSearch_condition (Option.mem_toList.mp h)) member] at plain
        cases plain

/-- **The second of two searches replaces the first and nothing else if what is left of the filter is
steady, and if it asks for a word only then.** What is left is steady unless it is one conjunction. -/
theorem apply_apply_iff (s t : Search) (same : s.fields = t.fields) (filter : Option Predicate) :
    (Steady t.fields filter → t.apply (s.apply filter) = t.apply filter) ∧
      (t.condition ≠ none →
        (t.apply (s.apply filter) = t.apply filter ↔ Steady t.fields filter)) ∧
      ((∀ ps, others t.fields filter ≠ [.and ps]) → Steady t.fields filter) := by
  have again : Steady t.fields filter → t.apply (s.apply filter) = t.apply filter := by
    intro steady
    rw [apply_eq t, apply_eq t filter, ← same, rest_apply (same ▸ steady)]
  refine ⟨again, fun asks => ⟨fun equal => ?_, again⟩, steady_of_others⟩
  obtain ⟨c, asked⟩ := Option.ne_none_iff_exists'.mp asks
  rw [apply_eq t, apply_eq t filter, asked] at equal
  have left := compose_concat_inj equal
  rw [← same] at left ⊢
  exact steady_of_rest_apply left

/-- Two words in the place of one, beside a disjunction over other fields and a nested conjunction. -/
theorem apply_apply_iff_two_words :
    let fields : List Path := [⟨["firstName"]⟩, ⟨["lastName"]⟩]
    let s : Search := { fields := fields, text := "ann" }
    let t : Search := { fields := fields, text := "bob lee", operator := .startsWith }
    let status : Predicate := .equals ⟨["status"]⟩ (.text "NEW")
    let filter := some (Predicate.and [.and [status], .or [status, .equals ⟨["firstName"]⟩ .null]])
    s.fields = t.fields ∧ t.condition ≠ none ∧ Steady t.fields filter ∧
      t.apply (s.apply filter) = t.apply filter := by
  intro fields s t status filter
  have law := apply_apply_iff s t rfl filter
  have asks : t.condition ≠ none := by
    have words : Text.words t.text = ["bob", "lee"] := by decide +kernel
    have several : t.compile = [.and (["bob", "lee"].map fun word => .or (t.branches word))] := by
      rw [compile, words]
      rfl
    rw [condition, several]
    exact Option.some_ne_none _
  have two : (others t.fields filter).length = 2 := by decide +kernel
  have steady : Steady t.fields filter := law.2.2 fun ps single => by
    rw [single] at two
    cases two
  exact ⟨rfl, asks, steady, (law.2.1 asks).mpr steady⟩

/-- A condition of the caller over the searched field, in a conjunction of its own: the first search
keeps it, also a blank one, and the second drops it. -/
theorem apply_apply_of_nested :
    let fields : List Path := [⟨["firstName"]⟩]
    let s : Search := { fields := fields, text := "lee" }
    let blank : Search := { fields := fields, text := " " }
    let own : Predicate := .or [.equals ⟨["firstName"]⟩ (.text "Ann")]
    let filter := some (Predicate.and [.and [.equals ⟨["status"]⟩ (.text "NEW"), own]])
    let row := Json.obj [("firstName", .str "Lee"), ("status", .str "NEW")]
    accepts? (s.apply filter) row = false ∧ accepts? (s.apply (s.apply filter)) row = true ∧
      accepts? (blank.apply filter) row = false ∧
      accepts? (blank.apply (blank.apply filter)) row = true ∧
      ¬ ∀ (s t : Search), s.fields = t.fields → ∀ filter,
        t.apply (s.apply filter) = t.apply filter := by
  intro fields s blank own filter row
  have once : accepts? (s.apply filter) row = false := by decide +kernel
  have twice : accepts? (s.apply (s.apply filter)) row = true := by decide +kernel
  refine ⟨once, twice, by decide +kernel, by decide +kernel, fun law => ?_⟩
  rw [law s s rfl filter, once] at twice
  cases twice

end Roster.Search
