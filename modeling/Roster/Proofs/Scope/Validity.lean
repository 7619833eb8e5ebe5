import Roster.Proofs.Schema.Resolve
import Roster.Proofs.Scope.Confinement

/-!
# A narrowed query is valid

What narrowing adds to a valid query are conditions of overlays, and these are valid themselves
(`ValidConditions`). So the query that an answer carries passes the checks of the schema again.
-/

namespace Roster

/-- A part that can be missing has no problems when it has none where it is there. -/
theorem getD_map_eq_nil {α β : Type} {part : Option α} {problems : α → List β} :
    (part.map problems).getD [] = [] ↔ ∀ a ∈ part, problems a = [] := by
  cases part <;> simp

namespace Predicate

variable {r : Registry} {e : Entity} {place : String}

mutual

/-- A predicate is valid when its leaves are. -/
theorem problems_eq_nil_iff : (p : Predicate) →
    (p.problems r e place = [] ↔ ∀ leaf ∈ p.leaves, leaf.problems r e place = [])
  | .equals path value => by simp [leaves]
  | .operator path filter => by simp [leaves]
  | .and children => problemsOfAll_eq_nil_iff children
  | .or children => problemsOfAll_eq_nil_iff children
  | .not inner => problems_eq_nil_iff inner

theorem problemsOfAll_eq_nil_iff : (ps : List Predicate) →
    (problemsOfAll r e place ps = [] ↔ ∀ leaf ∈ leavesOfAll ps, leaf.problems r e place = [])
  | [] => by simp [problemsOfAll, leavesOfAll]
  | p :: rest => by
    rw [problemsOfAll, leavesOfAll, List.append_eq_nil_iff, problems_eq_nil_iff p,
      problemsOfAll_eq_nil_iff rest, List.forall_mem_append]

end

end Predicate

namespace Caller

variable {c : Caller} {r : Registry} {e target : Entity}

/-- A filter as narrowing leaves it. -/
def narrowFilter (c : Caller) (r : Registry) (e : Entity) (filter : Option Predicate) :
    Option Predicate :=
  (c.rule e.name).overlay.apply (c.strip r e filter)

/-- What the overlays of the caller ask for is valid. -/
def ValidConditions (c : Caller) (r : Registry) : Prop :=
  ∀ e, r.Registered e → ∀ place, (c.rule e.name).overlay.condition.problems r e place = []

theorem problems_narrowFilter (conditions : c.ValidConditions r) (registered : r.Registered e)
    {place : String} {filter : Option Predicate}
    (valid : ∀ p ∈ filter, p.problems r e place = []) :
    ∀ p ∈ c.narrowFilter r e filter, p.problems r e place = [] := by
  intro p hp
  rw [Predicate.problems_eq_nil_iff]
  intro leaf hleaf
  have hleaf : leaf ∈ Predicate.leavesOf (c.narrowFilter r e filter) := by rwa [hp]
  rcases Overlay.mem_leavesOf_apply hleaf with asked | own
  · have asked := (mem_leavesOf_strip asked).1
    cases filter with
    | none => cases asked
    | some q => exact (Predicate.problems_eq_nil_iff q).mp (valid q rfl) leaf asked
  · exact (Predicate.problems_eq_nil_iff _).mp (conditions e registered place) leaf own

/-! ## Includes -/

/-- An entry is valid when its parts are. -/
theorem problems_of_parts {entry : IncludeEntry} {place : String}
    (filter : ∀ p ∈ entry.filter?, p.problems r target (place ++ ".where") = [])
    (select : ∀ s ∈ entry.select?, selectProblems target (place ++ ".select") s = [])
    (inc : IncludeEntry.includeProblems r target (place ++ ".include") entry.include? = []) :
    entry.problems r target place = [] := by
  cases entry with
  | null => rfl
  | flag _ => rfl
  | nested inner selected asked =>
    rw [IncludeEntry.problems, List.append_eq_nil_iff, List.append_eq_nil_iff]
    exact ⟨⟨getD_map_eq_nil.mpr filter, getD_map_eq_nil.mpr select⟩, inc⟩

/-- A tree is narrowed entry by entry. -/
theorem narrowTree_cons {name : String} (ht : r.target? e name = some target)
    (entry : IncludeEntry) (rest : List (String × IncludeEntry)) :
    c.narrowTree r e ((name, entry) :: rest) =
      ((c.narrowEntry r target entry).map fun narrowed => (name, narrowed)).toList ++
        c.narrowTree r e rest := by
  rw [narrowTree, ht]
  cases h : c.narrowEntry r target entry <;> simp [h]

/-- A narrowed entry is valid if its includes are: its filter is narrowed, and its selection stays. -/
theorem problems_narrowEntry_of_includes (conditions : c.ValidConditions r)
    (registered : r.Registered target) {place : String} {asked entry : IncludeEntry}
    (valid : asked.problems r target place = []) (h : c.narrowEntry r target asked = some entry)
    (inner : IncludeEntry.includeProblems r target (place ++ ".include")
      (asked.include?.map (c.narrowTree r target)) = []) :
    entry.problems r target place = [] := by
  obtain ⟨validFilter, validSelect, -⟩ := IncludeEntry.valid_parts valid
  cases requested : entry.isRequested with
  | false =>
    cases entry with
    | nested => cases requested
    | _ => rfl
  | true =>
    obtain ⟨-, -, hfilter, hselect, hinc⟩ := narrowEntry_parts h requested
    refine problems_of_parts ?_ ?_ ?_
    · rw [hfilter]
      exact problems_narrowFilter conditions registered validFilter
    · rw [hselect]
      exact validSelect
    · rw [hinc]
      exact inner

mutual

/-- **Narrowing keeps an entry valid.** -/
theorem problems_narrowEntry (conditions : c.ValidConditions r) {target : Entity}
    (registered : r.Registered target) {place : String} : (asked : IncludeEntry) →
      asked.problems r target place = [] → {entry : IncludeEntry} →
        c.narrowEntry r target asked = some entry → entry.problems r target place = []
  | .null, valid, entry, h =>
    problems_narrowEntry_of_includes conditions registered valid h rfl
  | .flag wanted, valid, entry, h =>
    problems_narrowEntry_of_includes conditions registered valid h rfl
  | .nested inc select filter, valid, entry, h => by
    have below := valid
    rw [IncludeEntry.problems, List.append_eq_nil_iff] at below
    exact problems_narrowEntry_of_includes conditions registered valid h
      (problems_narrowInclude conditions inc below.2)

theorem problems_narrowInclude (conditions : c.ValidConditions r) {e : Entity} {place : String} :
    (asked : Option (List (String × IncludeEntry))) →
      IncludeEntry.includeProblems r e place asked = [] →
        IncludeEntry.includeProblems r e place (asked.map (c.narrowTree r e)) = []
  | none, _ => rfl
  | some tree, valid => problems_narrowTree conditions tree valid

theorem problems_narrowTree (conditions : c.ValidConditions r) {e : Entity} {place : String} :
    (asked : List (String × IncludeEntry)) → IncludeEntry.treeProblems r e place asked = [] →
      IncludeEntry.treeProblems r e place (c.narrowTree r e asked) = []
  | [], _ => rfl
  | (name, entry) :: rest, valid => by
    obtain ⟨target, ht, validEntry⟩ := IncludeEntry.valid_of_mem valid List.mem_cons_self
    rw [IncludeEntry.treeProblems, List.append_eq_nil_iff] at valid
    have tail := problems_narrowTree conditions rest valid.2
    rw [narrowTree_cons ht]
    cases hentry : c.narrowEntry r target entry with
    | none => exact tail
    | some narrowed =>
      have head := problems_narrowEntry conditions (Registry.registered_of_target? ht) entry
        validEntry hentry
      simp [IncludeEntry.treeProblems, ht, head, tail]

end

/-! ## Queries -/

/-- **A valid query stays valid when it is narrowed.** -/
theorem problems_narrowed (conditions : c.ValidConditions r) (registered : r.Registered e)
    {q : Descriptor} (valid : r.problems e q = []) : r.problems e (c.narrowed r e q) = [] := by
  simp only [Registry.problems, List.append_eq_nil_iff] at valid ⊢
  obtain ⟨⟨⟨hfilter, horder⟩, hselect⟩, hinc⟩ := valid
  refine ⟨⟨⟨?_, ?_⟩, hselect⟩, ?_⟩
  · have narrowed := problems_narrowFilter conditions registered (getD_map_eq_nil.mp hfilter)
    exact getD_map_eq_nil.mpr narrowed
  · rw [List.flatMap_eq_nil_iff] at horder ⊢
    intro k hk
    change k ∈ (q.orderBy.bind (narrowOrder (c.rule e.name).restricted)).getD [] at hk
    cases hkeys : q.orderBy with
    | none =>
      rw [hkeys] at hk
      cases hk
    | some keys =>
      rw [hkeys] at hk horder
      exact horder k (mem_narrowOrder hk).1
  · change IncludeEntry.includeProblems r e "include" (c.narrowInclude r e q.include?) = []
    rw [show c.narrowInclude r e q.include? = q.include?.map (c.narrowTree r e) by
      cases q.include? <;> rfl]
    exact problems_narrowInclude conditions q.include? hinc

end Caller

end Roster
