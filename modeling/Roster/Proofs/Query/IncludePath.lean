import Roster.Proofs.Schema.Resolve

/-!
# Places in an include tree

`IncludeTree.At` says which entry stands under a chain of relation names, at any depth. Statements
about every node of a tree are statements about every such place, and the entity that a node's
records belong to is the one that the same chain leads to in the registry.

A tree that the schema has nothing against leads to a registered entity at every place, and what
stands there is in order for that entity.
-/

namespace Roster

namespace IncludeEntry

/-- The filter of an entry; an entry without directives has none. -/
def filter? (entry : IncludeEntry) : Option Predicate := entry.node?.bind (·.filter)

/-- The selection of an entry. -/
def select? (entry : IncludeEntry) : Option Select := entry.node?.bind (·.select)

/-- The includes of an entry. -/
def include? (entry : IncludeEntry) : Option IncludeTree := entry.node?.bind (·.include?)

end IncludeEntry

namespace IncludeTree

/-- The entry that stands under a chain of relation names. -/
inductive At : IncludeTree → List String → IncludeEntry → Prop
  | here {tree : IncludeTree} {name : String} {entry : IncludeEntry} :
      (name, entry) ∈ tree → At tree [name] entry
  | deeper {tree inner : IncludeTree} {name : String} {outer entry : IncludeEntry}
      {names : List String} :
      (name, outer) ∈ tree → outer.include? = some inner → At inner names entry →
        At tree (name :: names) entry

/-- Every place of the tree belongs to an entity of the registry. -/
def Known (r : Registry) (e : Entity) (tree : IncludeTree) : Prop :=
  ∀ names entry, tree.At names entry → ∃ owner, r.follow e names = .ok owner

end IncludeTree

namespace Registry

variable {r : Registry} {e target : Entity} {name : String}

theorem follow_cons (h : r.target? e name = some target) (names : List String) :
    r.follow e (name :: names) = r.follow target names := by
  rw [follow, h]

end Registry

namespace IncludeTree

variable {r : Registry} {e target : Entity} {tree inner : IncludeTree} {name : String}
  {entry : IncludeEntry}

/-- The places below an entry of a known tree are known. -/
theorem Known.includes (known : Known r e tree) (member : (name, entry) ∈ tree)
    (ht : r.target? e name = some target) (hinner : entry.include? = some inner) :
    Known r target inner := by
  intro names lower at_
  obtain ⟨owner, h⟩ := known _ _ (.deeper member hinner at_)
  exact ⟨owner, by rwa [Registry.follow_cons ht] at h⟩

theorem Known.target? (known : Known r e tree) (member : (name, entry) ∈ tree) :
    ∃ target, r.target? e name = some target := by
  obtain ⟨owner, h⟩ := known _ _ (.here member)
  obtain ⟨target, ht, -⟩ := Registry.follow_of_cons h
  exact ⟨target, ht⟩

end IncludeTree

namespace IncludeEntry

open IncludeTree

variable {r : Registry} {e target : Entity} {tree : IncludeTree} {name place : String}
  {entry : IncludeEntry}

/-! ## Trees without problems -/

/-- An entry of a valid tree stands under a relation, and is valid for its target. -/
theorem valid_of_mem (valid : treeProblems r e place tree = []) (member : (name, entry) ∈ tree) :
    ∃ target, r.target? e name = some target ∧
      entry.problems r target (place ++ "." ++ name) = [] := by
  induction tree with
  | nil => cases member
  | cons first rest ih =>
    obtain ⟨relation, head⟩ := first
    rw [treeProblems, List.append_eq_nil_iff] at valid
    rcases List.mem_cons.mp member with same | member
    · obtain ⟨rfl, rfl⟩ := Prod.mk.inj same
      cases ht : r.target? e name with
      | none => simp [ht] at valid
      | some target =>
        rw [ht] at valid
        exact ⟨target, rfl, valid.1⟩
    · exact ih valid.2 member

/-- The includes, the selection and the filter of a valid entry are valid. -/
theorem valid_parts (valid : entry.problems r target place = []) :
    (∀ p, entry.filter? = some p → p.problems r target (place ++ ".where") = []) ∧
      (∀ select, entry.select? = some select →
        selectProblems target (place ++ ".select") select = []) ∧
      ∀ inner, entry.include? = some inner →
        treeProblems r target (place ++ ".include") inner = [] := by
  cases entry with
  | null => exact ⟨nofun, nofun, nofun⟩
  | flag wanted => exact ⟨nofun, nofun, nofun⟩
  | nested inc select filter =>
    rw [problems, List.append_eq_nil_iff, List.append_eq_nil_iff] at valid
    obtain ⟨⟨hfilter, hselect⟩, hinc⟩ := valid
    refine ⟨fun p hp => ?_, fun s hs => ?_, fun inner hinner => ?_⟩
    · obtain rfl : filter = some p := hp
      exact hfilter
    · obtain rfl : select = some s := hs
      exact hselect
    · obtain rfl : inc = some inner := hinner
      exact hinc

/-- **Every place of a valid tree leads to an entity, and what stands there is valid for it.** -/
theorem valid_at {names : List String} (at_ : tree.At names entry) :
    ∀ {e : Entity} {place : String}, treeProblems r e place tree = [] →
      ∃ owner place', r.follow e names = .ok owner ∧ entry.problems r owner place' = [] := by
  induction at_ with
  | here member =>
    intro e place valid
    obtain ⟨target, ht, hentry⟩ := valid_of_mem valid member
    exact ⟨target, _, by rw [Registry.follow_cons ht, Registry.follow], hentry⟩
  | deeper member hinner _ ih =>
    intro e place valid
    obtain ⟨target, ht, hentry⟩ := valid_of_mem valid member
    obtain ⟨owner, place', hfollow, hproblems⟩ := ih ((valid_parts hentry).2.2 _ hinner)
    exact ⟨owner, place', by rw [Registry.follow_cons ht, hfollow], hproblems⟩

theorem known_of_valid (valid : treeProblems r e place tree = []) : Known r e tree := by
  intro names entry at_
  obtain ⟨owner, -, hfollow, -⟩ := valid_at at_ valid
  exact ⟨owner, hfollow⟩

/-! ## Truncation -/

mutual

/-- Cutting an entry off adds no problem. -/
theorem problems_truncate (target : Entity) (place : String) (limit : Nat) :
    (entry : IncludeEntry) → entry.problems r target place = [] →
      (entry.truncate limit).problems r target place = []
  | .null, _ => rfl
  | .flag _, _ => rfl
  | .nested inc select filter, valid => by
    rw [truncate]
    split
    · rfl
    · rw [problems, List.append_eq_nil_iff] at valid ⊢
      exact ⟨valid.1, problems_truncateInclude target _ (limit - 1) inc valid.2⟩

theorem problems_truncateInclude (e : Entity) (place : String) (limit : Nat) :
    (inc : Option (List (String × IncludeEntry))) → includeProblems r e place inc = [] →
      includeProblems r e place (truncateInclude limit inc) = []
  | none, _ => rfl
  | some tree, valid => problems_truncateTree e place limit tree valid

theorem problems_truncateTree (e : Entity) (place : String) (limit : Nat) :
    (tree : List (String × IncludeEntry)) → treeProblems r e place tree = [] →
      treeProblems r e place (truncateTree limit tree) = []
  | [], _ => rfl
  | (name, entry) :: rest, valid => by
    rw [treeProblems, List.append_eq_nil_iff] at valid
    rw [truncateTree, treeProblems, List.append_eq_nil_iff]
    refine ⟨?_, problems_truncateTree e place limit rest valid.2⟩
    have head := valid.1
    cases ht : r.target? e name with
    | none => simp [ht] at head
    | some target =>
      rw [ht] at head
      exact problems_truncate target _ limit entry head

end

end IncludeEntry

end Roster
