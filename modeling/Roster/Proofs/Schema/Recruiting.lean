import Roster.Proofs.Keyed
import Roster.Proofs.Schema.Resolve
import Roster.Schema.Recruiting

/-!
# The schema of the office is linked

What is true of every entity of the office is checked entity by entity, for there are four of them.
-/

namespace Roster

namespace Registry

theorem recruiting_eq : recruiting = [("applications", applications), ("candidates", candidates),
    ("jobs", jobs), ("users", users)] := rfl

/-- An entity is registered under its own name, and there are four of them. -/
theorem entity?_recruiting {name : String} {e : Entity} (h : recruiting.entity? name = some e) :
    e.name = name ∧ (e = applications ∨ e = candidates ∨ e = jobs ∨ e = users) := by
  rw [recruiting_eq] at h
  have member := Keyed.mem_of_get? h
  simp only [List.mem_cons, Prod.mk.injEq, List.not_mem_nil, or_false] at member
  rcases member with ⟨rfl, rfl⟩ | ⟨rfl, rfl⟩ | ⟨rfl, rfl⟩ | ⟨rfl, rfl⟩
  · exact ⟨rfl, .inl rfl⟩
  · exact ⟨rfl, .inr (.inl rfl)⟩
  · exact ⟨rfl, .inr (.inr (.inl rfl))⟩
  · exact ⟨rfl, .inr (.inr (.inr rfl))⟩

theorem eq_of_registered {e : Entity} (registered : recruiting.Registered e) :
    e = applications ∨ e = candidates ∨ e = jobs ∨ e = users := by
  obtain ⟨name, h⟩ := registered
  exact (entity?_recruiting h).2

/-- Field names and relation names of an entity are told apart by looking at the fields. -/
theorem apart_of_fields {e : Entity} (h : ∀ f ∈ e.fields, e.relation? f.name = none) : e.Apart := by
  intro name field hfield
  obtain ⟨member, rfl⟩ := Entity.field?_eq_some hfield
  exact h field member

theorem linked_recruiting : recruiting.Linked where
  apart registered := by
    rcases eq_of_registered registered with rfl | rfl | rfl | rfl <;>
      exact apart_of_fields (by decide)
  links {e l} registered member := by
    rcases eq_of_registered registered with rfl | rfl | rfl | rfl <;>
      simp only [applications, candidates, jobs, users, List.mem_cons, List.not_mem_nil,
        or_false] at member
    · rcases member with rfl | rfl <;> exact ⟨_, rfl, rfl, rfl⟩
    · subst member
      exact ⟨_, rfl, rfl, rfl⟩
    · rcases member with rfl | rfl <;> exact ⟨_, rfl, rfl, rfl⟩

/-- Relations go along columns whose names have no points in them. -/
theorem spelled_recruiting : recruiting.Spelled where
  toLinked := linked_recruiting
  spelled {e l} registered member := by
    have spelled : ∀ l ∈ e.relations, Path.ofText l.foreignField = ⟨[l.foreignField]⟩ := by
      rcases eq_of_registered registered with rfl | rfl | rfl | rfl <;> decide
    exact spelled l member

end Registry

end Roster
