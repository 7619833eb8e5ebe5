import Roster.Proofs.Predicate.Replacement

/-!
# Searches of a session

Someone who looks through a list searches it, adds a condition, and searches again. A `SearchStep` is
one such step over fixed fields, and a session is a list of them (`Search.run`).

A search leaves the leaves of the conditions that do not look like one, and adds its own
(`Search.leavesOn_apply`), so nothing is left of an earlier search that is still one of the conjuncts.
A merge keeps it one of them if it stands alone. If it stands beside another condition, a clause that
says something is put beside the two together, in a new conjunction, and no later search finds it any
more: the step buries it (`Search.buries`).

So after a search the leaves on the searched fields are those of the searches that were buried, and
then its own (`Search.leavesOn_run_search`). A session is rid of its earlier searches exactly if no
step has buried one, and three steps are enough for that (`Search.leavesOn_run_of_merge`).
-/

namespace Roster

/-- A step of a session over some searched fields. -/
inductive SearchStep where
  /-- The filter is searched. -/
  | search (text : String) (operator : SearchOperator) (caseSensitive : Bool)
  /-- Clauses are put before and after the filter, in one conjunction. -/
  | merge (before after : List (Option Predicate))

namespace Search

open Predicate

variable {fields : List Path} {filter start : Option Predicate} {s : Search} {p : Predicate}
  {ps qs : List Predicate}

/-! ## Leaves on the searched fields -/

/-- The leaf stands on one of the fields. -/
def isOver (fields : List Path) (leaf : Predicate) : Bool := leaf.path?.any fields.contains

/-- The leaves of predicates on some fields, from left to right. -/
def leavesOnAll (fields : List Path) (ps : List Predicate) : List Predicate :=
  (leavesOfAll ps).filter (isOver fields)

/-- The leaves of a filter on some fields. -/
def leavesOn (fields : List Path) (filter : Option Predicate) : List Predicate :=
  (leavesOf filter).filter (isOver fields)

theorem leavesOnAll_append (ps qs : List Predicate) :
    leavesOnAll fields (ps ++ qs) = leavesOnAll fields ps ++ leavesOnAll fields qs := by
  rw [leavesOnAll, leavesOfAll_append, List.filter_append]
  rfl

theorem leavesOnAll_append_eq_nil_iff :
    leavesOnAll fields (ps ++ qs) = [] ↔ leavesOnAll fields ps = [] ∧ leavesOnAll fields qs = [] := by
  rw [leavesOnAll_append, List.append_eq_nil_iff]

theorem leavesOn_some (p : Predicate) :
    leavesOn fields (some p) = leavesOnAll fields [p] := by
  rw [leavesOn, leavesOnAll, leavesOfAll, leavesOfAll, List.append_nil, leavesOf_some]

theorem leavesOn_eq (filter : Option Predicate) :
    leavesOn fields filter = leavesOnAll fields (conjunctsOf filter) := by
  rw [leavesOn, leavesOnAll, leavesOfAll_conjunctsOf]

theorem leavesOn_compose_and (ps : List Predicate) :
    leavesOn fields (compose .and ps) = leavesOnAll fields ps := by
  rw [leavesOn, leavesOf_compose_and]
  rfl

/-- Predicates that say nothing have no leaves. -/
theorem leavesOnAll_filter_isEmpty (ps : List Predicate) :
    leavesOnAll fields (ps.filter fun c => !c.isEmpty) = leavesOnAll fields ps := by
  induction ps with
  | nil => rfl
  | cons p ps ih =>
    have head : ∀ qs, leavesOnAll fields (p :: qs) = leavesOnAll fields [p] ++ leavesOnAll fields qs :=
      leavesOnAll_append [p]
    cases empty : p.isEmpty with
    | true =>
      have none : leavesOnAll fields [p] = [] := by
        simp [leavesOnAll, leavesOfAll, leaves_of_isEmpty empty]
      rw [List.filter_cons_of_neg (by simp [empty]), ih, head, none, List.nil_append]
    | false => rw [List.filter_cons_of_pos (by simp [empty]), head, ih, ← head]

/-- The clauses that say something have the leaves of all clauses. -/
theorem leavesOnAll_present_eq_nil {clauses : List (Option Predicate)}
    (clean : ∀ clause ∈ clauses, leavesOn fields clause = []) :
    leavesOnAll fields (present clauses) = [] := by
  rw [present, leavesOnAll_filter_isEmpty]
  induction clauses with
  | nil => rfl
  | cons clause clauses ih =>
    have tail := ih fun other member => clean other (List.mem_cons_of_mem _ member)
    cases clause with
    | none => exact tail
    | some p =>
      have head := clean (some p) List.mem_cons_self
      rw [leavesOn_some] at head
      change leavesOnAll fields ([p] ++ clauses.filterMap id) = []
      exact leavesOnAll_append_eq_nil_iff.mpr ⟨head, tail⟩

/-! ## The leaves of a search -/

/-- Alternatives compare something, and only on the fields. -/
theorem leaves_of_isAlternatives (h : isAlternatives fields p = true) :
    p.leaves ≠ [] ∧ ∀ leaf ∈ p.leaves, isOver fields leaf = true := by
  cases p with
  | or children =>
    simp only [isAlternatives, Bool.and_eq_true, List.all_map, List.all_eq_true] at h
    obtain ⟨⟨full, onFields⟩, -⟩ := h
    have single : ∀ child ∈ children, child.leaves = [child] := by
      intro child member
      obtain ⟨path, hpath, -⟩ := (Option.any_eq_true _ _).mp (onFields child member)
      exact leaves_of_path? hpath
    constructor
    · obtain ⟨child, more, rfl⟩ := List.exists_cons_of_ne_nil (by simpa using full)
      rw [leaves, leavesOfAll, single child List.mem_cons_self]
      exact List.cons_ne_nil _ _
    · intro leaf member
      obtain ⟨child, hchild, hleaf⟩ := mem_leavesOfAll.mp member
      rw [single child hchild, List.mem_singleton] at hleaf
      rw [hleaf]
      exact onFields child hchild
  | _ => cases h

/-- So does a search. -/
theorem leaves_of_isSearch (h : isSearch fields p = true) :
    p.leaves ≠ [] ∧ ∀ leaf ∈ p.leaves, isOver fields leaf = true := by
  cases p with
  | and children =>
    simp only [isSearch, Bool.and_eq_true, List.all_eq_true] at h
    obtain ⟨full, each⟩ := h
    constructor
    · obtain ⟨child, more, rfl⟩ := List.exists_cons_of_ne_nil (by simpa using full)
      rw [leaves, leavesOfAll]
      exact List.append_ne_nil_of_left_ne_nil
        (leaves_of_isAlternatives (each child List.mem_cons_self)).1 _
    · intro leaf member
      obtain ⟨child, hchild, hleaf⟩ := mem_leavesOfAll.mp member
      exact (leaves_of_isAlternatives (each child hchild)).2 leaf hleaf
  | _ => exact leaves_of_isAlternatives h

/-- All leaves of searches are on the fields. -/
theorem leavesOnAll_of_isSearch (searches : ∀ p ∈ ps, isSearch fields p = true) :
    leavesOnAll fields ps = leavesOfAll ps := by
  refine List.filter_eq_self.mpr fun leaf member => ?_
  obtain ⟨p, hp, hleaf⟩ := mem_leavesOfAll.mp member
  exact (leaves_of_isSearch (searches p hp)).2 leaf hleaf

/-- Conditions without leaves on the fields are no searches. -/
theorem isSearch_of_leavesOnAll (clean : leavesOnAll fields ps = []) :
    ∀ p ∈ ps, isSearch fields p = false := by
  intro p member
  rw [← Bool.not_eq_true]
  intro search
  obtain ⟨full, onFields⟩ := leaves_of_isSearch search
  obtain ⟨leaf, more, hleaves⟩ := List.exists_cons_of_ne_nil full
  have hleaf : leaf ∈ p.leaves := hleaves ▸ List.mem_cons_self
  have listed : leaf ∈ leavesOnAll fields ps :=
    List.mem_filter.mpr ⟨mem_leavesOfAll.mpr ⟨p, member, hleaf⟩, onFields leaf hleaf⟩
  rw [clean] at listed
  cases listed

/-- The condition of a search has the leaves that the search is compiled to. -/
theorem leavesOfAll_condition (s : Search) :
    leavesOfAll s.condition.toList = leavesOfAll s.compile := by
  cases asked : s.condition with
  | none =>
    have nothing : s.compile = [] := by
      rw [condition] at asked
      split at asked
      · assumption
      · cases asked
      · cases asked
    rw [nothing]
    rfl
  | some c =>
    obtain ⟨-, ⟨word, compiled, rfl⟩ | ⟨words, -, compiled, -⟩⟩ := condition_cases asked
    · rw [compiled]
      exact List.append_nil _
    · rw [compiled]
      rfl

/-! ## What a search finds and what it leaves standing -/

/-- The conditions of a filter that look like a search. -/
def found (fields : List Path) (filter : Option Predicate) : List Predicate :=
  (conjunctsOf filter).filter (isSearch fields)

/-- The leaves on the fields of the conditions that do not look like a search. -/
def standing (fields : List Path) (filter : Option Predicate) : List Predicate :=
  leavesOnAll fields (others fields filter)

theorem leavesOnAll_rest (fields : List Path) (filter : Option Predicate) :
    leavesOnAll fields (rest fields filter) = standing fields filter := by
  rw [rest, leavesOnAll_filter_isEmpty, ← leavesOn_eq, clear_eq, leavesOn_compose_and]
  rfl

/-- **A search keeps the leaves that stand, and adds its own.** -/
theorem leavesOn_apply (s : Search) (filter : Option Predicate) :
    leavesOn s.fields (s.apply filter) = standing s.fields filter ++ leavesOfAll s.compile := by
  have asked : ∀ c ∈ s.condition.toList, isSearch s.fields c = true :=
    fun c member => isSearch_condition (Option.mem_toList.mp member)
  rw [apply_eq, leavesOn_compose_and, leavesOnAll_append, leavesOnAll_rest,
    leavesOnAll_of_isSearch asked, leavesOfAll_condition]

/-! ## Filters of a session -/

/-- A filter as it occurs in a session: what stands on the fields comes before what is found, and if
anything stands there, it is not in a single condition, which would be taken apart. -/
structure Orderly (fields : List Path) (filter : Option Predicate) : Prop where
  order : leavesOn fields filter = standing fields filter ++ leavesOfAll (found fields filter)
  firm : standing fields filter = [] ∨ 2 ≤ (others fields filter).length

/-- In a filter without leaves on the fields nothing is found and nothing stands. -/
theorem found_of_clean (clean : leavesOn fields filter = []) : found fields filter = [] := by
  rw [leavesOn_eq] at clean
  exact List.filter_eq_nil_iff.mpr fun p member => by simp [isSearch_of_leavesOnAll clean p member]

theorem standing_of_clean (clean : leavesOn fields filter = []) : standing fields filter = [] := by
  rw [leavesOn_eq, leavesOnAll, List.filter_eq_nil_iff] at clean
  refine List.filter_eq_nil_iff.mpr fun leaf member => ?_
  obtain ⟨p, hp, hleaf⟩ := mem_leavesOfAll.mp member
  exact clean leaf (mem_leavesOfAll.mpr ⟨p, (mem_others_iff.mp hp).1, hleaf⟩)

theorem Orderly.of_clean (clean : leavesOn fields filter = []) : Orderly fields filter where
  order := by
    rw [clean, standing_of_clean clean, found_of_clean clean]
    rfl
  firm := .inl (standing_of_clean clean)

/-- What is found after a search is the search. -/
theorem leavesOfAll_found_apply (plain : ∀ p ∈ rest s.fields filter, isSearch s.fields p = false)
    (beside : rest s.fields filter = [] ∨
      ∀ qs, rest s.fields filter ++ s.condition.toList ≠ [.and qs]) :
    leavesOfAll (found s.fields (s.apply filter)) = leavesOfAll s.compile := by
  rw [← leavesOfAll_condition, apply_eq]
  rcases beside with nothing | several
  · rw [nothing, List.nil_append, ← leavesOf_compose_and s.condition.toList,
      ← leavesOfAll_conjunctsOf, found]
    refine congrArg leavesOfAll (List.filter_eq_self.mpr fun c member => ?_)
    cases asked : s.condition with
    | none => rw [asked] at member; cases member
    | some q =>
      rw [asked] at member
      exact isSearch_of_mem_conjuncts (isSearch_condition asked) member
  · have left : (rest s.fields filter).filter (isSearch s.fields) = [] :=
      List.filter_eq_nil_iff.mpr fun c member => by simp [plain c member]
    have asked : s.condition.toList.filter (isSearch s.fields) = s.condition.toList :=
      List.filter_eq_self.mpr fun c member => isSearch_condition (Option.mem_toList.mp member)
    rw [found, conjunctsOf_compose_and several, List.filter_append, left, asked, List.nil_append]

/-- **A search of an orderly filter leaves standing what stood before.** -/
theorem Orderly.apply (orderly : Orderly s.fields filter) :
    Orderly s.fields (s.apply filter) ∧
      standing s.fields (s.apply filter) = standing s.fields filter := by
  have whole : standing s.fields filter = [] ∨
      rest s.fields filter = others s.fields filter ∧ 2 ≤ (others s.fields filter).length := by
    refine orderly.firm.imp_right fun two => ⟨rest_eq_others fun ps single => ?_, two⟩
    rw [single, List.length_singleton] at two
    exact absurd two (by decide)
  have plain : ∀ p ∈ rest s.fields filter, isSearch s.fields p = false := by
    rcases whole with nothing | ⟨same, -⟩
    · exact isSearch_of_leavesOnAll ((leavesOnAll_rest s.fields filter).trans nothing)
    · exact fun p member => (mem_others_iff.mp (same ▸ member)).2.1
  by_cases beside : rest s.fields filter = [] ∨
      ∀ qs, rest s.fields filter ++ s.condition.toList ≠ [.and qs]
  · have left := others_apply plain beside
    have stands : standing s.fields (s.apply filter) = standing s.fields filter := by
      rw [standing, left, leavesOnAll_rest]
    refine ⟨⟨?_, ?_⟩, stands⟩
    · rw [leavesOn_apply, stands, leavesOfAll_found_apply plain beside]
    · rw [stands, left]
      exact whole.imp_right fun ⟨same, two⟩ => same ▸ two
  · -- a blank search that takes a conjunction apart
    obtain ⟨full, nested⟩ := not_or.mp beside
    obtain ⟨qs, single⟩ := Classical.not_forall_not.mp nested
    obtain ⟨first, more, hrest⟩ := List.exists_cons_of_ne_nil full
    rw [hrest] at single
    obtain ⟨-, nothing⟩ := List.cons.inj single
    obtain ⟨alone, blank⟩ := List.append_eq_nil_iff.mp nothing
    have stood : standing s.fields filter = [] := by
      refine whole.resolve_right fun ⟨same, two⟩ => ?_
      rw [← same, hrest, alone, List.length_singleton] at two
      exact absurd two (by decide)
    have clean : leavesOn s.fields (s.apply filter) = [] := by
      rw [leavesOn_apply, stood, ← leavesOfAll_condition, blank]
      rfl
    exact ⟨.of_clean clean, by rw [stood, standing_of_clean clean]⟩

/-! ## Steps -/

/-- What a step makes of a filter. -/
def step (fields : List Path) (filter : Option Predicate) : SearchStep → Option Predicate
  | .search text operator caseSensitive =>
    Search.apply { fields, text, operator, caseSensitive } filter
  | .merge before after => mergeAnd (before ++ filter :: after)

/-- What the steps of a session make of a filter. -/
def run (fields : List Path) (start : Option Predicate) (steps : List SearchStep) :
    Option Predicate := steps.foldl (step fields) start

/-- The clauses that a step adds have no leaf on the fields. -/
def Foreign (fields : List Path) : SearchStep → Prop
  | .search _ _ _ => True
  | .merge before after => ∀ clause ∈ before ++ after, leavesOn fields clause = []

/-- The step puts a clause that says something beside a filter in which a search stands beside other
conditions. -/
def buries (fields : List Path) (filter : Option Predicate) : SearchStep → Bool
  | .search _ _ _ => false
  | .merge before after => !(present (before ++ after)).isEmpty && !(found fields filter).isEmpty &&
      !filter.any (isSearch fields)

/-- The leaves of the search that the step buries. -/
def buriedBy (fields : List Path) (filter : Option Predicate) (st : SearchStep) : List Predicate :=
  if buries fields filter st then leavesOfAll (found fields filter) else []

/-- The leaves of all searches that the steps of a session bury, one step after the other. -/
def buried (fields : List Path) : Option Predicate → List SearchStep → List Predicate
  | _, [] => []
  | filter, st :: steps => buriedBy fields filter st ++ buried fields (step fields filter st) steps

theorem present_append (clauses more : List (Option Predicate)) :
    present (clauses ++ more) = present clauses ++ present more := by
  simp [present]

/-- Where nothing is found nothing is buried. -/
theorem buriedBy_of_found (nothing : found fields filter = []) (st : SearchStep) :
    buriedBy fields filter st = [] := by
  rw [buriedBy, nothing]
  split <;> rfl

/-- A filter among other conditions without leaves on the fields is found as a whole if it looks like a
search, and stands as a whole if it does not. -/
theorem orderly_among {first last : List Predicate} (full : p.isEmpty = false)
    (cleanFirst : leavesOnAll fields first = []) (cleanLast : leavesOnAll fields last = [])
    (said : ∀ c ∈ first ++ last, c.isEmpty = false) (beside : first ++ last ≠ []) :
    Orderly fields (compose .and (first ++ ([p] ++ last))) ∧
      standing fields (compose .and (first ++ ([p] ++ last))) =
        if isSearch fields p then [] else leavesOn fields (some p) := by
  have several : 2 ≤ (first ++ ([p] ++ last)).length := by
    have positive := List.length_pos_iff.mpr beside
    simp only [List.length_append, List.length_singleton] at positive ⊢
    omega
  have wrapped : ∀ qs, first ++ ([p] ++ last) ≠ [.and qs] := by
    intro qs single
    rw [single, List.length_singleton] at several
    exact absurd several (by decide)
  have plain : ∀ c ∈ first ++ last, isSearch fields c = false :=
    isSearch_of_leavesOnAll (leavesOnAll_append_eq_nil_iff.mpr ⟨cleanFirst, cleanLast⟩)
  have leaves : leavesOn fields (compose .and (first ++ ([p] ++ last))) = leavesOn fields (some p) := by
    rw [leavesOn_compose_and, leavesOnAll_append, leavesOnAll_append, cleanFirst, cleanLast,
      List.nil_append, List.append_nil, leavesOn_some]
  have keep : ∀ ps : List Predicate, ps ⊆ first ++ last →
      ps.filter (fun c => !isSearch fields c && !c.isEmpty) = ps ∧ ps.filter (isSearch fields) = [] :=
    fun ps within => ⟨List.filter_eq_self.mpr fun c member => by
      simp [plain c (within member), said c (within member)],
      List.filter_eq_nil_iff.mpr fun c member => by simp [plain c (within member)]⟩
  obtain ⟨keepFirst, dropFirst⟩ := keep first (List.subset_append_left _ _)
  obtain ⟨keepLast, dropLast⟩ := keep last (List.subset_append_right _ _)
  have left : others fields (compose .and (first ++ ([p] ++ last))) =
      first ++ ((if isSearch fields p then [] else [p]) ++ last) := by
    rw [others, conjunctsOf_compose_and wrapped, List.filter_append, List.filter_append, keepFirst,
      keepLast]
    cases h : isSearch fields p <;> simp [h, full]
  have taken : found fields (compose .and (first ++ ([p] ++ last))) =
      if isSearch fields p then [p] else [] := by
    rw [found, conjunctsOf_compose_and wrapped, List.filter_append, List.filter_append, dropFirst,
      dropLast]
    cases h : isSearch fields p <;> simp [h]
  have stands : standing fields (compose .and (first ++ ([p] ++ last))) =
      if isSearch fields p then [] else leavesOn fields (some p) := by
    rw [standing, left, leavesOnAll_append, leavesOnAll_append, cleanFirst, cleanLast]
    cases h : isSearch fields p
    · simp [leavesOn_some]
    · rfl
  refine ⟨⟨?_, ?_⟩, stands⟩
  · rw [leaves, stands, taken]
    cases h : isSearch fields p with
    | true =>
      have whole : leavesOnAll fields [p] = leavesOfAll [p] :=
        leavesOnAll_of_isSearch fun c member => List.mem_singleton.mp member ▸ h
      rw [leavesOn_some, whole]
      rfl
    | false => exact (List.append_nil _).symm
  · rw [stands, left]
    cases h : isSearch fields p with
    | true => exact .inl rfl
    | false => exact .inr several

/-- **A merge of an orderly filter leaves standing what stood before, and the search that it
buries.** -/
theorem Orderly.merge (orderly : Orderly fields filter) {before after : List (Option Predicate)}
    (foreign : Foreign fields (.merge before after)) :
    Orderly fields (mergeAnd (before ++ filter :: after)) ∧
      standing fields (mergeAnd (before ++ filter :: after)) =
        standing fields filter ++ buriedBy fields filter (.merge before after) := by
  have cleanBefore : leavesOnAll fields (present before) = [] :=
    leavesOnAll_present_eq_nil fun clause member => foreign clause (List.mem_append_left _ member)
  have cleanAfter : leavesOnAll fields (present after) = [] :=
    leavesOnAll_present_eq_nil fun clause member => foreign clause (List.mem_append_right _ member)
  have around : mergeAnd (before ++ filter :: after) =
      compose .and (present before ++ (present [filter] ++ present after)) := by
    rw [mergeAnd, present_append, List.singleton_append.symm, present_append]
  by_cases clean : leavesOn fields filter = []
  · -- nothing on the fields, before or after
    have merged : leavesOn fields (mergeAnd (before ++ filter :: after)) = [] := by
      have middle : leavesOnAll fields (present [filter]) = [] :=
        leavesOnAll_present_eq_nil fun clause member => List.mem_singleton.mp member ▸ clean
      rw [around, leavesOn_compose_and, leavesOnAll_append_eq_nil_iff, leavesOnAll_append_eq_nil_iff]
      exact ⟨cleanBefore, middle, cleanAfter⟩
    refine ⟨.of_clean merged, ?_⟩
    rw [standing_of_clean merged, standing_of_clean clean, buriedBy_of_found (found_of_clean clean)]
    rfl
  · obtain ⟨p, rfl, full⟩ : ∃ p, filter = some p ∧ p.isEmpty = false := by
      cases filter with
      | none => exact absurd rfl clean
      | some p =>
        refine ⟨p, rfl, isEmpty_of_leaves fun none => clean ?_⟩
        rw [leavesOn, leavesOf_some, none]
        rfl
    have itself : present [some p] = [p] := by simp [present, full]
    rw [itself] at around
    cases alone : (present (before ++ after)).isEmpty with
    | true =>
      -- nothing is put beside the filter
      rw [List.isEmpty_iff, present_append, List.append_eq_nil_iff] at alone
      have same : mergeAnd (before ++ some p :: after) = some p := by
        rw [around, alone.1, alone.2]
        rfl
      have kept : buries fields (some p) (.merge before after) = false := by
        rw [buries, present_append, alone.1, alone.2]
        rfl
      rw [same, buriedBy, kept]
      exact ⟨orderly, (List.append_nil _).symm⟩
    | false =>
      rw [List.isEmpty_eq_false_iff, present_append] at alone
      have said : ∀ c ∈ present before ++ present after, c.isEmpty = false := by
        rw [← present_append]
        exact fun c member => by simpa using (List.mem_filter.mp member).2
      rw [around]
      obtain ⟨among, stands⟩ := orderly_among full cleanBefore cleanAfter said alone
      refine ⟨among, stands.trans ?_⟩
      rw [buriedBy, buries, present_append, List.isEmpty_eq_false_iff.mpr alone, Option.any_some]
      cases search : isSearch fields p with
      | true =>
        -- the search stays one of the conditions, and it was the whole filter
        have nothing : others fields (some p) = [] :=
          List.filter_eq_nil_iff.mpr fun c member => by
            simp [isSearch_of_mem_conjuncts search member]
        rw [standing, nothing]
        simp [leavesOnAll, leavesOfAll]
      | false =>
        rw [orderly.order]
        cases h : found fields (some p) with
        | nil => rfl
        | cons c more => simp

/-! ## Sessions -/

/-- **A step keeps a filter orderly, and what stands after it is what stood before and the search that
it buries.** -/
theorem Orderly.step (orderly : Orderly fields filter) {st : SearchStep}
    (foreign : Foreign fields st) :
    Orderly fields (step fields filter st) ∧
      standing fields (step fields filter st) =
        standing fields filter ++ buriedBy fields filter st := by
  cases st with
  | search text operator caseSensitive =>
    obtain ⟨searched, same⟩ :=
      Orderly.apply (s := { fields, text, operator, caseSensitive }) orderly
    exact ⟨searched, same.trans (List.append_nil _).symm⟩
  | merge before after => exact orderly.merge foreign

/-- **What stands after a session are the searches that it has buried.** -/
theorem standing_run {steps : List SearchStep} (foreign : ∀ st ∈ steps, Foreign fields st)
    (orderly : Orderly fields start) :
    standing fields (run fields start steps) =
      standing fields start ++ buried fields start steps := by
  induction steps generalizing start with
  | nil => exact (List.append_nil _).symm
  | cons st steps ih =>
    obtain ⟨next, stands⟩ := orderly.step (foreign st List.mem_cons_self)
    have further : standing fields (run fields (Search.step fields start st) steps) =
        standing fields (Search.step fields start st) ++
          buried fields (Search.step fields start st) steps :=
      ih (fun other member => foreign other (List.mem_cons_of_mem _ member)) next
    calc
      standing fields (run fields start (st :: steps)) =
          standing fields (Search.step fields start st) ++
            buried fields (Search.step fields start st) steps := further
      _ = standing fields start ++ buried fields start (st :: steps) := by
        rw [stands, List.append_assoc, buried]

/-- A search that is buried leaves something behind. -/
theorem buriedBy_eq_nil_iff {st : SearchStep} :
    buriedBy fields filter st = [] ↔ buries fields filter st = false := by
  cases h : buries fields filter st with
  | false => simp [buriedBy, h]
  | true =>
    have some_search : found fields filter ≠ [] := by
      cases st with
      | search _ _ _ => cases h
      | merge before after =>
        simp only [buries, Bool.and_eq_true, Bool.not_eq_true', List.isEmpty_eq_false_iff] at h
        exact h.1.2
    obtain ⟨c, more, hfound⟩ := List.exists_cons_of_ne_nil some_search
    have search : isSearch fields c = true :=
      (List.mem_filter.mp (hfound ▸ List.mem_cons_self : c ∈ found fields filter)).2
    simp [buriedBy, h, hfound, leavesOfAll, (leaves_of_isSearch search).1]

/-- Nothing is buried by a session none of whose steps buries a search. -/
theorem buried_eq_nil_iff {steps : List SearchStep} :
    buried fields start steps = [] ↔ ∀ before st after, steps = before ++ st :: after →
      buries fields (run fields start before) st = false := by
  induction steps generalizing start with
  | nil => simp [buried]
  | cons first steps ih =>
    rw [buried, List.append_eq_nil_iff, buriedBy_eq_nil_iff, ih]
    constructor
    · rintro ⟨head, tail⟩ before st after split
      cases before with
      | nil =>
        obtain ⟨rfl, -⟩ := List.cons.inj split
        exact head
      | cons other before =>
        obtain ⟨rfl, later⟩ := List.cons.inj split
        exact tail before st after later
    · intro each
      exact ⟨each [] first steps rfl, fun before st after split =>
        each (first :: before) st after (congrArg (first :: ·) split)⟩

/-- **After every search of a session that starts without leaves on the fields and merges none, the
leaves on the fields are those of the searches that were buried and then those of the search.** They
are those of the search alone exactly if no step before it has buried one. -/
theorem leavesOn_run_search (clean : leavesOn fields start = []) {steps : List SearchStep}
    (foreign : ∀ st ∈ steps, Foreign fields st) (text : String) (operator : SearchOperator)
    (caseSensitive : Bool) :
    let last : Search := { fields, text, operator, caseSensitive }
    let leaves := leavesOn fields (run fields start (steps ++ [.search text operator caseSensitive]))
    leaves = buried fields start steps ++ leavesOfAll last.compile ∧
      (leaves = leavesOfAll last.compile ↔ ∀ before st after, steps = before ++ st :: after →
        buries fields (run fields start before) st = false) := by
  intro last leaves
  have parts : leaves = buried fields start steps ++ leavesOfAll last.compile := by
    have final : run fields start (steps ++ [.search text operator caseSensitive]) =
        last.apply (run fields start steps) := List.foldl_append
    have stands := standing_run foreign (.of_clean clean)
    rw [standing_of_clean clean, List.nil_append] at stands
    calc
      leaves = standing fields (run fields start steps) ++ leavesOfAll last.compile :=
        (congrArg (leavesOn fields) final).trans (leavesOn_apply last _)
      _ = buried fields start steps ++ leavesOfAll last.compile := by rw [stands]
  refine ⟨parts, ?_⟩
  rw [parts, ← buried_eq_nil_iff, List.append_left_eq_self]

/-- A search that a condition is put beside while it stands alone is replaced by the next one. -/
theorem leavesOn_run_search_alone :
    let fields : List Path := [⟨["firstName"]⟩, ⟨["lastName"]⟩]
    let status : Predicate := .equals ⟨["status"]⟩ (.text "NEW")
    let steps : List SearchStep :=
      [.search "ann lee" .contains false, .merge [none] [some status], .search " " .endsWith true]
    let last : Search := { fields, text := "bob", operator := .startsWith }
    leavesOn fields none = [] ∧ (∀ st ∈ steps, Foreign fields st) ∧
      leavesOn fields (run fields none (steps ++ [.search "bob" .startsWith false])) =
        leavesOfAll last.compile := by
  intro fields status steps last
  have merged : Foreign fields (.merge [none] [some status]) :=
    List.forall_mem_cons.mpr ⟨rfl, List.forall_mem_singleton.mpr (by rfl)⟩
  have foreign : ∀ st ∈ steps, Foreign fields st :=
    List.forall_mem_cons.mpr ⟨trivial, List.forall_mem_cons.mpr ⟨merged,
      List.forall_mem_singleton.mpr trivial⟩⟩
  have nothing : buried fields none steps = [] :=
    List.isEmpty_iff.mp (by decide +kernel)
  have clean : leavesOn fields none = [] := rfl
  refine ⟨clean, foreign, ?_⟩
  rw [(leavesOn_run_search clean foreign "bob" .startsWith false).1, nothing, List.nil_append]

/-- Three steps: a word is searched, a condition is added, and another word is searched. The leaf of
the first word stays, and a row with the second one is not found. -/
theorem leavesOn_run_of_merge :
    let fields : List Path := [⟨["firstName"]⟩]
    let start := some (Predicate.equals ⟨["status"]⟩ (.text "NEW"))
    let email : Predicate := .equals ⟨["email"]⟩ (.text "lee@example.com")
    let steps : List SearchStep := [.search "ann" .contains false, .merge [] [some email]]
    let last : Search := { fields, text := "lee" }
    let filter := run fields start (steps ++ [.search "lee" .contains false])
    let row := Json.obj [("firstName", .str "Lee"), ("status", .str "NEW"),
      ("email", .str "lee@example.com")]
    leavesOn fields start = [] ∧ (∀ st ∈ steps, Foreign fields st) ∧
      leavesOn fields filter ≠ leavesOfAll last.compile ∧ accepts? filter row = false := by
  intro fields start email steps last filter row
  have foreign : ∀ st ∈ steps, Foreign fields st :=
    List.forall_mem_cons.mpr ⟨trivial,
      List.forall_mem_singleton.mpr (List.forall_mem_singleton.mpr (by rfl))⟩
  refine ⟨rfl, foreign, fun same => ?_, by decide +kernel⟩
  have two : (leavesOn fields filter).length = 2 := by decide +kernel
  have one : (leavesOfAll last.compile).length = 1 := by decide +kernel
  rw [same, one] at two
  cases two

end Search

end Roster
