import Roster.Schema.Validate

/-!
# Where paths lead

A path that the schema resolves ends in a field, and the relations before the field are followed
from one registered entity to the next. The schema has nothing against a predicate only if it
resolves every path of it.
-/

namespace Roster

/-- No field of the entity has the name of one of its relations. -/
def Entity.Apart (e : Entity) : Prop :=
  ∀ name field, e.field? name = some field → e.relation? name = none

/-- A field that is found is one of the entity, and has the name. -/
theorem Entity.field?_eq_some {e : Entity} {name : String} {field : Field}
    (h : e.field? name = some field) : field ∈ e.fields ∧ field.name = name := by
  have same := List.find?_some h
  exact ⟨List.mem_of_find?_eq_some h, beq_iff_eq.mp same⟩

namespace Registry

variable {r : Registry} {e owner : Entity} {path : Path} {field : Field}

/-- The entity is in the registry. -/
def Registered (r : Registry) (e : Entity) : Prop := ∃ name, r.entity? name = some e

/-- Relations are told apart from fields, and each leads to a registered entity, from a field to a
field. -/
structure Linked (r : Registry) : Prop where
  apart {e : Entity} : r.Registered e → e.Apart
  links {e : Entity} {l : Relation} : r.Registered e → l ∈ e.relations →
    ∃ target, r.entity? l.target = some target ∧ (e.field? l.localField).isSome ∧
      (target.field? l.foreignField).isSome

/-- A registry whose relations are linked, by columns that paths can name. -/
structure Spelled (r : Registry) : Prop extends r.Linked where
  spelled {e : Entity} {l : Relation} : r.Registered e → l ∈ e.relations →
    Path.ofText l.foreignField = ⟨[l.foreignField]⟩

/-- A relation goes from a field of its entity to a field of its target. -/
theorem Linked.ends (linked : r.Linked) {target : Entity} {l : Relation}
    (registered : r.Registered e) (member : l ∈ e.relations)
    (ht : r.entity? l.target = some target) :
    ∃ f g, e.field? l.localField = some f ∧ target.field? l.foreignField = some g := by
  obtain ⟨found, hfound, hlocal, hforeign⟩ := linked.links registered member
  obtain rfl : target = found := Option.some.inj (ht.symm.trans hfound)
  obtain ⟨f, hf⟩ := Option.isSome_iff_exists.mp hlocal
  obtain ⟨g, hg⟩ := Option.isSome_iff_exists.mp hforeign
  exact ⟨f, g, hf, hg⟩

/-- The fields that relations go along are no relations themselves. -/
theorem Linked.columns (linked : r.Linked) {target : Entity} {l : Relation}
    (registered : r.Registered e) (member : l ∈ e.relations)
    (ht : r.entity? l.target = some target) :
    e.relation? l.localField = none ∧ target.relation? l.foreignField = none := by
  obtain ⟨f, g, hf, hg⟩ := linked.ends registered member ht
  exact ⟨linked.apart registered _ _ hf, linked.apart ⟨_, ht⟩ _ _ hg⟩

/-- What a hop to another entity goes along: a relation, between a field of each of the two. -/
theorem Linked.hop (linked : r.Linked) {name : String} {target : Entity}
    (registered : r.Registered e) (h : r.target? e name = some target) :
    ∃ l f g, e.relation? name = some l ∧ l ∈ e.relations ∧ r.entity? l.target = some target ∧
      e.field? l.localField = some f ∧ target.field? l.foreignField = some g := by
  obtain ⟨l, hl, ht⟩ := Option.bind_eq_some_iff.mp h
  have member := List.mem_of_find?_eq_some hl
  obtain ⟨f, g, hf, hg⟩ := linked.ends registered member ht
  exact ⟨l, f, g, hl, member, ht, hf, hg⟩

/-- Relations are followed from the first on. -/
theorem follow_of_cons {hop : String} {rest : List String}
    (h : r.follow e (hop :: rest) = .ok owner) :
    ∃ target, r.target? e hop = some target ∧ r.follow target rest = .ok owner := by
  rw [follow] at h
  split at h
  · next target ht => exact ⟨target, ht, h⟩
  · cases h

/-- A resolved path is not empty, and its last name is a field of the entity that the relations
before it lead to. -/
theorem follow_of_resolve (h : r.resolve e path = .ok (owner, field)) :
    path.segments ≠ [] ∧ r.follow e path.relations = .ok owner ∧
      owner.field? path.leaf = some field := by
  rw [resolve] at h
  split at h
  · cases h
  · next nonempty =>
    refine ⟨fun empty => nonempty (by rw [empty]; rfl), ?_⟩
    cases hf : r.follow e path.relations with
    | error fault => rw [hf] at h; cases h
    | ok found =>
      rw [hf] at h
      dsimp only [Except.bind, bind] at h
      split at h
      · next found' hfield =>
        obtain ⟨rfl, rfl⟩ := Prod.mk.inj (Except.ok.inj h)
        exact ⟨rfl, hfield⟩
      · cases h

/-- The converse: a way along relations to a field is a resolved path. -/
theorem resolve_of_follow (nonempty : path.segments ≠ [])
    (hfollow : r.follow e path.relations = .ok owner)
    (hfield : owner.field? path.leaf = some field) :
    r.resolve e path = .ok (owner, field) := by
  rw [resolve, if_neg (by simpa using nonempty), hfollow]
  simp only [bind, Except.bind, hfield]

/-- The path that related rows are looked up by leads to a field of the target. -/
theorem Spelled.resolve_foreign (spelled : r.Spelled) {target : Entity} {l : Relation}
    (registered : r.Registered e) (member : l ∈ e.relations)
    (ht : r.entity? l.target = some target) :
    ∃ g, r.resolve target (Path.ofText l.foreignField) = .ok (target, g) := by
  obtain ⟨-, g, -, hg⟩ := spelled.ends registered member ht
  rw [spelled.spelled registered member]
  exact ⟨g, resolve_of_follow (List.cons_ne_nil _ _) rfl hg⟩

theorem registered_of_target? {name : String} {target : Entity}
    (h : r.target? e name = some target) : r.Registered target := by
  obtain ⟨l, -, ht⟩ := Option.bind_eq_some_iff.mp h
  exact ⟨l.target, ht⟩

/-- Relations lead from a registered entity to registered ones. -/
theorem registered_of_follow (names : List String) : ∀ {e : Entity}, r.Registered e →
    r.follow e names = .ok owner → r.Registered owner := by
  induction names with
  | nil =>
    intro e registered h
    exact Except.ok.inj h ▸ registered
  | cons name rest ih =>
    intro e _ h
    obtain ⟨target, ht, h⟩ := follow_of_cons h
    exact ih (registered_of_target? ht) h

end Registry

namespace Predicate

variable {r : Registry} {e : Entity} {place : String}

mutual

/-- **Every path of a valid predicate leads to a field.** -/
theorem resolves_of_valid : (p : Predicate) → p.problems r e place = [] →
    ∀ path ∈ p.paths, ∃ owner field, r.resolve e path = .ok (owner, field)
  | .equals path value, valid => by
    intro path' hp
    obtain rfl : path' = path := List.mem_singleton.mp hp
    rw [problems] at valid
    split at valid
    · next owner field h => exact ⟨owner, field, h⟩
    · cases valid
  | .operator path filter, valid => by
    intro path' hp
    obtain rfl : path' = path := List.mem_singleton.mp hp
    rw [problems] at valid
    split at valid
    · next owner field h => exact ⟨owner, field, h⟩
    · cases valid
  | .and children, valid => resolves_of_allValid children valid
  | .or children, valid => resolves_of_allValid children valid
  | .not inner, valid => resolves_of_valid inner valid

theorem resolves_of_allValid : (ps : List Predicate) → problemsOfAll r e place ps = [] →
    ∀ path ∈ pathsOfAll ps, ∃ owner field, r.resolve e path = .ok (owner, field)
  | [], _ => fun path hp => nomatch hp
  | p :: rest, valid => by
    intro path hp
    rw [problemsOfAll, List.append_eq_nil_iff] at valid
    rcases List.mem_append.mp hp with hp | hp
    · exact resolves_of_valid p valid.1 path hp
    · exact resolves_of_allValid rest valid.2 path hp

end

end Predicate

end Roster
