import Roster.Proofs.Scope.Echo
import Roster.Proofs.Store.Resemblance

/-!
# Narrowing narrowed includes

An include tree that was cut and narrowed is cut and narrowed once more. What comes out resembles
it (`resembles_narrowTree`): the same relations are wanted at every place, with the same selections,
and with filters that accept the same rows. An entry that was cut down to `true` by the limit got
the overlay's condition as its filter; the second cut takes that away, and the second narrowing puts
it back.
-/

namespace Roster

open IncludeEntry

namespace IncludeNode

/-- The directives below a limit of depth; at the limit there are none. -/
def cut (n : IncludeNode) (limit : Nat) : IncludeNode :=
  if limit = 0 then {} else { n with include? := truncateInclude (limit - 1) n.include? }

end IncludeNode

namespace IncludeEntry

/-- The directives of an entry; `true` has none. -/
def directives (entry : IncludeEntry) : IncludeNode := entry.node?.getD {}

theorem isRequested_truncate (entry : IncludeEntry) (limit : Nat) :
    (entry.truncate limit).isRequested = entry.isRequested := by
  cases entry with
  | nested inc select filter =>
    rw [truncate]
    split <;> rfl
  | _ => rfl

/-- Cutting an entry cuts its directives. -/
theorem directives_truncate (entry : IncludeEntry) (limit : Nat) :
    (entry.truncate limit).directives = entry.directives.cut limit := by
  cases entry with
  | nested inc select filter =>
    rw [truncate]
    by_cases h : limit = 0 <;> simp [h, directives, node?, IncludeNode.cut]
  | _ =>
    by_cases h : limit = 0 <;> simp [h, truncate, directives, node?, IncludeNode.cut,
      truncateInclude]

theorem filter?_eq_directives (entry : IncludeEntry) :
    entry.filter? = entry.directives.filter := by
  cases entry <;> rfl

theorem include?_eq_directives (entry : IncludeEntry) :
    entry.include? = entry.directives.include? := by
  cases entry <;> rfl

end IncludeEntry

namespace Caller

variable {c : Caller} {r : Registry} {e target : Entity}

theorem directives_entryOf (n : IncludeNode) : (entryOf n).directives = n := by
  obtain ⟨inc, select, filter⟩ := n
  cases inc <;> cases select <;> cases filter <;> rfl

theorem isRequested_entryOf (n : IncludeNode) : (entryOf n).isRequested = true :=
  (entryOf_parts n).2.2.2

/-- Directives as narrowing leaves them. -/
def narrowNode (c : Caller) (r : Registry) (e : Entity) (n : IncludeNode) : IncludeNode where
  include? := c.narrowInclude r e n.include?
  select := n.select
  filter := c.narrowFilter r e n.filter

/-- A wanted entry is narrowed by its directives, unless the caller may not read the entity. -/
theorem narrowEntry_of_isRequested {asked : IncludeEntry} (wanted : asked.isRequested = true) :
    c.narrowEntry r target asked =
      if (c.rule target.name).overlay.isDeny then none
      else some (entryOf (c.narrowNode r target asked.directives)) := by
  cases asked with
  | null => cases wanted
  | flag flag =>
    obtain rfl : flag = true := wanted
    rfl
  | nested inc select filter => rfl

/-- Directives that ask for the same records make entries that do. -/
theorem resembles_entryOf {n n' : IncludeNode}
    (includes : IncludeResembles r target n.include? n'.include?)
    (select : n.select = n'.select) (same : SameMatches r target n.filter n'.filter)
    (filters : n.filter.isNone = n'.filter.isNone) :
    Resembles r target (entryOf n) (entryOf n') := by
  rw [entryOf, entryOf, filters, includes.isNone, select]
  split
  · exact rfl
  · exact ⟨includes, select, same⟩

/-! ## Rules whose overlays can be put on twice -/

/-- The caller's overlays are valid conditions, stripping treats them as a whole, and the parents
that they ask for are entities. -/
structure Echoes (c : Caller) (r : Registry) : Prop where
  conditions : c.ValidConditions r
  restores : ∀ e, r.Registered e → Restores c r e
  parents : ∀ {e foreignKey parent ownerField ownerPath owner}, r.Registered e →
    (c.rule e.name).overlay = .parentOwner foreignKey parent ownerField ownerPath owner →
      ∃ target, r.entity? parent = some target

/-- At every place of a tree where a parent has to be owned, what is left of the filter is
settled. -/
def SettlesTree (c : Caller) (r : Registry) (e : Entity) (tree : IncludeTree) : Prop :=
  ∀ names entry owner, tree.At names entry → r.follow e names = .ok owner →
    c.Settles r owner entry.filter?

theorem SettlesTree.tail {p : String × IncludeEntry} {rest : IncludeTree}
    (settles : c.SettlesTree r e (p :: rest)) : c.SettlesTree r e rest := by
  intro names entry owner at_ hfollow
  refine settles names entry owner ?_ hfollow
  cases at_ with
  | here member => exact .here (List.mem_cons_of_mem _ member)
  | deeper member hinner below => exact .deeper (List.mem_cons_of_mem _ member) hinner below

section Entry

variable {name : String} {entry : IncludeEntry} {rest : IncludeTree}

theorem SettlesTree.head (settles : c.SettlesTree r e ((name, entry) :: rest))
    (ht : r.target? e name = some target) : c.Settles r target entry.filter? :=
  settles _ _ target (.here List.mem_cons_self) (by rw [Registry.follow_cons ht, Registry.follow])

theorem SettlesTree.includes (settles : c.SettlesTree r e ((name, entry) :: rest))
    (ht : r.target? e name = some target) {inner : IncludeTree}
    (hinner : entry.include? = some inner) : c.SettlesTree r target inner := by
  intro names below owner at_ hfollow
  exact settles _ below owner (.deeper List.mem_cons_self hinner at_)
    (by rwa [Registry.follow_cons ht])

end Entry

/-! ## Filters of places -/

/-- The paths of a valid filter lead to fields. -/
theorem resolves_of_problems (linked : r.Linked) (registered : r.Registered e) {place : String}
    {filter : Option Predicate} (valid : ∀ p ∈ filter, p.problems r e place = []) :
    ∀ p ∈ filter, Tables.Resolves r e p := by
  intro p hp path hpath
  obtain ⟨owner, field, h⟩ := Predicate.resolves_of_valid p (valid p hp) path hpath
  have hfollow := (Registry.follow_of_resolve h).2.1
  exact ⟨owner, field, h, linked.apart (Registry.registered_of_follow _ registered hfollow)⟩

theorem sameMatches_narrowFilter (linked : r.Linked) (echoes : Echoes c r)
    (registered : r.Registered e) {place : String} {filter : Option Predicate}
    (valid : ∀ p ∈ filter, p.problems r e place = []) (settles : c.Settles r e filter) :
    SameMatches r e (c.narrowFilter r e filter)
      (c.narrowFilter r e (c.narrowFilter r e filter)) := by
  have once := problems_narrowFilter echoes.conditions registered valid
  have twice := problems_narrowFilter echoes.conditions registered once
  exact ⟨resolves_of_problems linked registered once, resolves_of_problems linked registered twice,
    fun row => (accepts?_narrowFilter (echoes.restores e registered) settles row).symm⟩

/-! ## Entries and trees -/

/-- A wanted entry, cut and narrowed twice, if its includes resemble each other. -/
theorem resembles_narrowNode (linked : r.Linked) (echoes : Echoes c r)
    (registered : r.Registered target) (place : String) {n : IncludeNode} (limit : Nat)
    (valid : ∀ p ∈ n.filter, p.problems r target place = [])
    (settles : c.Settles r target (n.cut limit).filter)
    (inner : limit ≠ 0 → IncludeResembles r target
      (c.narrowInclude r target (truncateInclude (limit - 1) n.include?))
      (c.narrowInclude r target (truncateInclude (limit - 1)
        (c.narrowInclude r target (truncateInclude (limit - 1) n.include?))))) :
    Resembles r target (entryOf (c.narrowNode r target (n.cut limit)))
      (entryOf (c.narrowNode r target ((c.narrowNode r target (n.cut limit)).cut limit))) := by
  by_cases h : limit = 0
  · have cut (n : IncludeNode) : n.cut limit = {} := if_pos h
    rw [cut, cut]
    have once : ∀ p ∈ c.narrowFilter r target none, p.problems r target place = [] :=
      problems_narrowFilter echoes.conditions registered nofun
    have resolves := resolves_of_problems linked registered once
    exact resembles_entryOf trivial rfl ⟨resolves, resolves, fun _ => rfl⟩ rfl
  · have cut (n : IncludeNode) :
        n.cut limit = { n with include? := truncateInclude (limit - 1) n.include? } := if_neg h
    rw [cut] at settles
    rw [cut, cut]
    exact resembles_entryOf (inner h) rfl
      (sameMatches_narrowFilter linked echoes registered valid settles) isNone_narrowFilter.symm

/-- A wanted entry is cut and narrowed twice by its directives. -/
theorem narrowEntry_twice {asked once : IncludeEntry} {limit : Nat}
    (wanted : asked.isRequested = true)
    (h : c.narrowEntry r target (asked.truncate limit) = some once)
    (alike : Resembles r target (entryOf (c.narrowNode r target (asked.directives.cut limit)))
      (entryOf (c.narrowNode r target
        ((c.narrowNode r target (asked.directives.cut limit)).cut limit)))) :
    ∃ twice, c.narrowEntry r target (once.truncate limit) = some twice ∧
      Resembles r target once twice := by
  rw [narrowEntry_of_isRequested ((isRequested_truncate asked limit).trans wanted),
    directives_truncate] at h
  split at h
  · cases h
  · next visible =>
    obtain rfl := Option.some.inj h
    refine ⟨_, ?_, alike⟩
    rw [narrowEntry_of_isRequested
      ((isRequested_truncate _ limit).trans (isRequested_entryOf _)), if_neg visible,
      directives_truncate, directives_entryOf]

mutual

/-- **An entry that was cut and narrowed asks for the same records when this is done again.** -/
theorem resembles_narrowEntry (linked : r.Linked) (echoes : Echoes c r) {target : Entity}
    (registered : r.Registered target) {place : String} (limit : Nat) :
    (asked : IncludeEntry) → asked.problems r target place = [] →
      c.Settles r target (asked.truncate limit).filter? →
      (∀ inner, (asked.truncate limit).include? = some inner → c.SettlesTree r target inner) →
      {once : IncludeEntry} → c.narrowEntry r target (asked.truncate limit) = some once →
        ∃ twice, c.narrowEntry r target (once.truncate limit) = some twice ∧
          Resembles r target once twice
  | .null, _, _, _, once, h => by
    cases h
    exact ⟨.null, rfl, trivial⟩
  | .flag false, _, _, _, once, h => by
    cases h
    exact ⟨.flag false, rfl, rfl⟩
  | .flag true, _, settles, _, once, h => by
    rw [filter?_eq_directives, directives_truncate] at settles
    refine narrowEntry_twice rfl h ?_
    exact resembles_narrowNode linked echoes registered place limit nofun settles
      fun _ => trivial
  | .nested inc select filter, valid, settles, below, once, h => by
    obtain ⟨validFilter, -, -⟩ := valid_parts valid
    rw [IncludeEntry.problems, List.append_eq_nil_iff] at valid
    rw [filter?_eq_directives, directives_truncate] at settles
    rw [include?_eq_directives, directives_truncate] at below
    refine narrowEntry_twice rfl h ?_
    refine resembles_narrowNode linked echoes registered _ limit validFilter settles
      fun deep => ?_
    rw [IncludeNode.cut, if_neg deep] at below
    exact resembles_narrowInclude linked echoes (limit - 1) inc valid.2 below

theorem resembles_narrowInclude (linked : r.Linked) (echoes : Echoes c r) {e : Entity}
    {place : String} (limit : Nat) : (asked : Option (List (String × IncludeEntry))) →
      includeProblems r e place asked = [] →
      (∀ tree, truncateInclude limit asked = some tree → c.SettlesTree r e tree) →
        IncludeResembles r e (c.narrowInclude r e (truncateInclude limit asked))
          (c.narrowInclude r e (truncateInclude limit
            (c.narrowInclude r e (truncateInclude limit asked))))
  | none, _, _ => trivial
  | some tree, valid, settles =>
    resembles_narrowTree linked echoes limit tree valid (settles _ rfl)

theorem resembles_narrowTree (linked : r.Linked) (echoes : Echoes c r) {e : Entity}
    {place : String} (limit : Nat) : (asked : List (String × IncludeEntry)) →
      treeProblems r e place asked = [] → c.SettlesTree r e (truncateTree limit asked) →
        TreeResembles r e (c.narrowTree r e (truncateTree limit asked))
          (c.narrowTree r e (truncateTree limit (c.narrowTree r e (truncateTree limit asked))))
  | [], _, _ => trivial
  | (name, asked) :: rest, valid, settles => by
    obtain ⟨target, ht, validEntry⟩ := valid_of_mem valid List.mem_cons_self
    rw [treeProblems, List.append_eq_nil_iff] at valid
    rw [truncateTree] at settles
    have tail := resembles_narrowTree linked echoes limit rest valid.2 settles.tail
    rw [truncateTree, narrowTree_cons ht]
    cases hentry : c.narrowEntry r target (asked.truncate limit) with
    | none => exact tail
    | some once =>
      obtain ⟨twice, htwice, alike⟩ := resembles_narrowEntry linked echoes
        (Registry.registered_of_target? ht) limit asked validEntry (settles.head ht)
        (fun inner hinner => settles.includes ht hinner) hentry
      have again : c.narrowTree r e (truncateTree limit
          ((name, once) :: c.narrowTree r e (truncateTree limit rest))) =
          (name, twice) :: c.narrowTree r e (truncateTree limit
            (c.narrowTree r e (truncateTree limit rest))) := by
        rw [truncateTree, narrowTree_cons ht, htwice]
        rfl
      have first : ((some once).map fun narrowed => (name, narrowed)).toList ++
          c.narrowTree r e (truncateTree limit rest) =
          (name, once) :: c.narrowTree r e (truncateTree limit rest) := rfl
      rw [first, again]
      exact ⟨rfl, ⟨target, ht, alike⟩, tail⟩

end

end Caller

end Roster
