import Roster.Proofs.Schema.Recruiting
import Roster.Proofs.Scope.EchoIncludes
import Roster.Proofs.Scope.VisibleStore
import Roster.Proofs.Uuid

/-!
# The rules over the recruiting schema

They are sealed, and their overlays can be put on twice.

The rules of visibility are written against the four entities of the office, and this is where the
two meet. For every caller the keys that relations go along are fields that the caller may see, the
conditions of the overlays are on such fields, and the one that is not, the owner of the job of an
application, is a field by which recruiters see jobs.

A rule depends on the caller's role alone but for the caller's identifier, which stands only in
operands. So each fact is checked role by role.
-/

namespace Roster

namespace Caller

open Registry

variable {c : Caller}

/-- A field of the entity that is not restricted is readable. -/
theorem reads_own {r : Registry} {e : Entity} {name : String} {field : Field}
    (hfield : e.field? name = some field)
    (free : (c.rule e.name).restricted.contains (Path.ofText name) = false) :
    c.Reads r e ⟨[name]⟩ := by
  refine ⟨?_, e, field, Registry.resolve_of_follow (by simp) rfl hfield⟩
  rw [← free]
  rfl

theorem identified_recruiting {e : Entity} (registered : recruiting.Registered e) :
    c.Reads recruiting e ⟨["id"]⟩ := by
  obtain ⟨id, role⟩ := c
  rcases eq_of_registered registered with rfl | rfl | rfl | rfl <;>
    exact reads_own rfl (by cases role <;> rfl)

/-- A relation to entities that are not denied goes along keys that are seen. -/
theorem links_recruiting {e : Entity} {name : String} {l : Relation} {target : Entity}
    (registered : recruiting.Registered e) (hl : e.relation? name = some l)
    (ht : recruiting.entity? l.target = some target)
    (seen : (c.rule target.name).overlay.isDeny = false) :
    SeesLink c e l target ∧ Path.ofText l.foreignField = ⟨[l.foreignField]⟩ ∧
      c.Reads recruiting target ⟨[l.foreignField]⟩ := by
  obtain ⟨id, role⟩ := c
  have member := List.mem_of_find?_eq_some hl
  rcases eq_of_registered registered with rfl | rfl | rfl | rfl <;>
    simp only [applications, candidates, jobs, users, List.mem_cons, List.not_mem_nil,
      or_false] at member
  · rcases member with rfl | rfl
    · cases ht
      exact ⟨⟨rfl, by cases role <;> rfl, rfl, by cases role <;> rfl⟩, by decide,
        reads_own rfl (by cases role <;> rfl)⟩
    · cases ht
      exact ⟨⟨rfl, by cases role <;> rfl, rfl, by cases role <;> rfl⟩, by decide,
        reads_own rfl (by cases role <;> rfl)⟩
  · subst member
    cases ht
    exact ⟨⟨rfl, by cases role <;> rfl, rfl, by cases role <;> rfl⟩, by decide,
      reads_own rfl (by cases role <;> rfl)⟩
  · rcases member with rfl | rfl
    · cases ht
      -- a candidate does not see whom a job belongs to, nor any user
      cases role with
      | candidate => cases seen
      | admin => exact ⟨⟨rfl, rfl, rfl, rfl⟩, by decide, reads_own rfl rfl⟩
      | recruiter => exact ⟨⟨rfl, rfl, rfl, rfl⟩, by decide, reads_own rfl rfl⟩
    · cases ht
      exact ⟨⟨rfl, by cases role <;> rfl, rfl, by cases role <;> rfl⟩, by decide,
        reads_own rfl (by cases role <;> rfl)⟩

/-- A recruiter is led from an application to the owner of its job. -/
theorem leadsToOwner_recruiting (id : Uuid) :
    LeadsToOwner ⟨id, .recruiter⟩ recruiting applications "job" "ownerId"
      ⟨"job", "jobs", "jobId", "id", true⟩ jobs
      [.equals ⟨["ownerId"]⟩ (.text id.text), .equals ⟨["status"]⟩ (.text "OPEN")] where
  relation := rfl
  target := rfl
  singular := rfl
  sees := ⟨rfl, rfl, rfl, rfl⟩
  overlay := rfl
  owned := List.mem_cons_self
  reads := reads_own rfl rfl

theorem conditions_recruiting {e : Entity} {path : Path} (registered : recruiting.Registered e)
    (hp : path ∈ (c.rule e.name).overlay.condition.paths) :
    c.Reads recruiting e path ∨ ∃ hop column l parent alternatives, path = ⟨[hop, column]⟩ ∧
      (c.rule e.name).overlay.condition = .equals path c.asScalar ∧
      LeadsToOwner c recruiting e hop column l parent alternatives := by
  obtain ⟨id, role⟩ := c
  cases role with
  | admin => cases hp
  | recruiter =>
    rcases eq_of_registered registered with rfl | rfl | rfl | rfl
    · obtain rfl := List.mem_singleton.mp hp
      exact .inr ⟨_, _, _, _, _, rfl, rfl, leadsToOwner_recruiting id⟩
    · cases hp
    · left
      rcases List.mem_cons.mp hp with rfl | hp
      · exact reads_own rfl rfl
      · obtain rfl := List.mem_singleton.mp hp
        exact reads_own rfl rfl
    · cases hp
  | candidate =>
    left
    rcases eq_of_registered registered with rfl | rfl | rfl | rfl
    · obtain rfl := List.mem_singleton.mp hp
      exact reads_own rfl rfl
    · obtain rfl := List.mem_singleton.mp hp
      exact reads_own rfl rfl
    · obtain rfl := List.mem_singleton.mp hp
      exact reads_own rfl rfl
    · cases hp

/-- The parents whose owners are looked up are jobs. -/
theorem parents_recruiting {e : Entity} {foreignKey path : Path} {parent ownerField : String}
    {owner : Scalar} (registered : recruiting.Registered e)
    (overlay : (c.rule e.name).overlay = .parentOwner foreignKey parent ownerField path owner) :
    ∃ target alternatives, recruiting.entity? parent = some target ∧
      Path.ofText ownerField = ⟨[ownerField]⟩ ∧
      (c.rule target.name).overlay = .anyOf alternatives ∧
      Predicate.equals ⟨[ownerField]⟩ c.asScalar ∈ alternatives ∧
      c.Reads recruiting target ⟨[ownerField]⟩ := by
  obtain ⟨id, role⟩ := c
  cases role with
  | admin => cases overlay
  | recruiter =>
    rcases eq_of_registered registered with rfl | rfl | rfl | rfl <;> cases overlay
    have leads := leadsToOwner_recruiting id
    exact ⟨jobs, _, rfl, by decide, leads.overlay, leads.owned, leads.reads⟩
  | candidate =>
    rcases eq_of_registered registered with rfl | rfl | rfl | rfl <;> cases overlay

/-- **Nothing hidden shows through the rules over the recruiting schema.** -/
theorem sealed_recruiting (c : Caller) : Sealed c recruiting where
  named h := (entity?_recruiting h).1
  apart := linked_recruiting.apart
  identified := identified_recruiting
  links := links_recruiting
  conditions := conditions_recruiting
  parents := parents_recruiting

/-! ## Overlays put on twice -/

theorem problems_equals {r : Registry} {e owner : Entity} {field : Field} {path : Path}
    {value : Scalar} (place : String) (h : r.resolve e path = .ok (owner, field))
    (admits : field.kind.admits value = true) :
    (Predicate.equals path value).problems r e place = [] := by
  simp [Predicate.problems, h, FieldKind.admitsNullable, admits]

/-- The caller's identifier is one. -/
theorem admits_asScalar : FieldKind.uuid.admits c.asScalar = true := by
  rw [asScalar, FieldKind.admits, Uuid.parse?_text]
  rfl

theorem validConditions_recruiting : c.ValidConditions recruiting := by
  intro e registered place
  obtain ⟨id, role⟩ := c
  cases role with
  | admin => rfl
  | recruiter =>
    rcases eq_of_registered registered with rfl | rfl | rfl | rfl
    · exact problems_equals place rfl admits_asScalar
    · rfl
    · exact List.append_eq_nil_iff.mpr ⟨problems_equals place rfl admits_asScalar, rfl⟩
    · rfl
  | candidate =>
    rcases eq_of_registered registered with rfl | rfl | rfl | rfl
    · exact problems_equals place rfl admits_asScalar
    · exact problems_equals place rfl admits_asScalar
    · rfl
    · rfl

/-- Recruiters may not filter applications by what is behind their jobs. -/
theorem blocks_behind_job (id : Uuid) {path : Path}
    (h : path.startsWith ⟨["job", "ownerId"]⟩ = true) :
    blocks ⟨id, .recruiter⟩ recruiting applications path = true := by
  obtain ⟨rest, hpath⟩ := List.isPrefixOf_iff_prefix.mp h
  have relations : path.relations = "job" :: ("ownerId" :: rest).dropLast := by
    rw [Path.relations, ← hpath]
    rfl
  rw [blocks, relations]
  rfl

theorem restores_recruiting {e : Entity} (registered : recruiting.Registered e) :
    Restores c recruiting e := by
  -- of the paths of an overlay only the one to an owner goes through a relation
  have readable (plain : ((c.rule e.name).overlay.condition.paths.all fun path =>
      !path.isNested) = true) : Restores c recruiting e := by
    refine .seen fun path hp => ?_
    rcases conditions_recruiting registered hp with reads | owner
    · exact reads.1
    · obtain ⟨hop, column, -, -, -, rfl, -⟩ := owner
      have single := List.all_eq_true.mp plain _ hp
      cases single
  obtain ⟨id, role⟩ := c
  cases role with
  | admin => exact readable rfl
  | recruiter =>
    rcases eq_of_registered registered with rfl | rfl | rfl | rfl
    · exact .owner rfl fun path => blocks_behind_job id
    · exact readable rfl
    · exact readable rfl
    · exact readable rfl
  | candidate =>
    rcases eq_of_registered registered with rfl | rfl | rfl | rfl <;> exact readable rfl

/-- **The overlays over the recruiting schema can be put on twice.** -/
theorem echoes_recruiting (c : Caller) : Echoes c recruiting where
  conditions := validConditions_recruiting
  restores _ := restores_recruiting
  parents registered overlay := by
    obtain ⟨target, -, htarget, -⟩ := parents_recruiting registered overlay
    exact ⟨target, htarget⟩

end Caller

end Roster
