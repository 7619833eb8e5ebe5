import Roster.Proofs.Service.Echo
import Roster.Proofs.Sql.Comparison
import Roster.Proofs.Store.Columns

/-!
# Which jobs are looked up

A recruiter who names jobs in a filter of applications has to own them. A filter names a job where it
holds `jobId` to it: at a leaf under conjunctions alone, however deep (`Predicate.HoldsTo`). The check
goes through the top conditions of the filter and no further (`Predicate.HoldsAtTop`), and what it
finds there decides how the narrowing ends.

So a job that only a conjunction inside the conjunction names is not looked up
(`Caller.narrow_nested_job`), and the check is complete for the filters that name no such job
(`Caller.narrow_ownership`).
-/

namespace Roster

open Caller

namespace Predicate

/-! ## The values a filter holds a path to -/

/-- The values that a leaf holds a path to. -/
def pins (path : Path) : Predicate → List Scalar
  | .equals p value => if p = path then [value] else []
  | .operator p f => if p = path then f.pinnedValues else []
  | _ => []

/-- The predicate is the whole, or it stands in it under conjunctions alone. -/
inductive Conjunct : Predicate → Predicate → Prop
  | self (p : Predicate) : Conjunct p p
  | and {part child : Predicate} {children : List Predicate} :
      child ∈ children → Conjunct part child → Conjunct part (.and children)

/-- A filter holds a path to a value: a leaf under conjunctions alone does. -/
def HoldsTo (filter : Option Predicate) (path : Path) (value : Scalar) : Prop :=
  ∃ p ∈ filter, ∃ leaf, Conjunct leaf p ∧ value ∈ leaf.pins path

/-- One of the top conditions of a filter holds a path to a value. -/
def HoldsAtTop (filter : Option Predicate) (path : Path) (value : Scalar) : Prop :=
  ∃ leaf ∈ conjunctsOf filter, value ∈ leaf.pins path

variable {filter : Option Predicate} {path : Path} {leaf part p : Predicate} {value : Scalar}

/-- The top conditions are conjuncts. -/
theorem HoldsAtTop.holdsTo (h : HoldsAtTop filter path value) : HoldsTo filter path value := by
  obtain ⟨leaf, top, pinned⟩ := h
  cases filter with
  | none => cases top
  | some p =>
    refine ⟨p, rfl, leaf, ?_, pinned⟩
    change leaf ∈ p.conjuncts at top
    unfold conjuncts at top
    split at top
    · exact .and top (.self leaf)
    · exact List.mem_singleton.mp top ▸ .self p

/-- What a filter is looked through for: the texts of its top conditions. -/
theorem mem_pinnedTexts_iff {text : String} :
    text ∈ pinnedTexts filter path ↔
      ∃ value, HoldsAtTop filter path value ∧ value.spelled? = some text := by
  have found : pinnedTexts filter path =
      (((conjunctsOf filter).flatMap (pins path)).filterMap Scalar.spelled?).eraseDups := by
    refine congrArg (fun values => (List.filterMap Scalar.spelled? values).eraseDups) ?_
    refine congrArg (List.flatMap · (conjunctsOf filter)) (funext fun p => ?_)
    cases p <;> rfl
  rw [found, List.mem_eraseDups, List.mem_filterMap]
  simp only [List.mem_flatMap, HoldsAtTop]

/-- Only leaves hold a path to anything. -/
theorem leaves_of_mem_pins (h : value ∈ leaf.pins path) : leaf.leaves = [leaf] := by
  cases leaf with
  | equals p value => rfl
  | operator p f => rfl
  | _ => cases h

/-- The leaves of a conjunct are leaves of the whole. -/
theorem Conjunct.leaves_subset (h : Conjunct part p) : ∀ leaf ∈ part.leaves, leaf ∈ p.leaves := by
  induction h with
  | self => exact fun leaf member => member
  | and member _ ih =>
    intro leaf hleaf
    exact mem_leavesOfAll.mpr ⟨_, member, ih leaf hleaf⟩

/-- A leaf that holds a path to a value is one of the filter. -/
theorem HoldsTo.exists_leaf (h : HoldsTo filter path value) :
    ∃ leaf ∈ leavesOf filter, value ∈ leaf.pins path := by
  obtain ⟨p, some_, leaf, conjunct, pinned⟩ := h
  refine ⟨leaf, ?_, pinned⟩
  rw [some_, leavesOf_some]
  exact conjunct.leaves_subset leaf (leaves_of_mem_pins pinned ▸ List.mem_cons_self)

/-- What a valid leaf holds a path to can be compared with the field. -/
theorem admits_of_mem_pins {r : Registry} {e owner : Entity} {field : Field} {place : String}
    (hresolve : r.resolve e path = .ok (owner, field)) (valid : leaf.problems r e place = [])
    (pinned : value ∈ leaf.pins path) : field.kind.admitsNullable value = true := by
  cases leaf with
  | equals p operand =>
    rw [pins] at pinned
    split at pinned
    · next same =>
      obtain rfl := List.mem_singleton.mp pinned
      subst same
      rw [problems, hresolve] at valid
      by_contra refused
      dsimp only at valid
      rw [if_neg refused] at valid
      cases valid
    · cases pinned
  | operator p f =>
    rw [pins] at pinned
    split at pinned
    · next same =>
      subst same
      rw [problems, hresolve] at valid
      have admitted := Filter.admitted_of_valid valid
      rcases List.mem_append.mp pinned with equals | oneOf
      · refine admitted (.equals value) ?_
        simp [Filter.comparisons, Option.mem_toList.mp equals]
      · cases listed : f.oneOf with
        | none =>
          rw [listed] at oneOf
          cases oneOf
        | some values =>
          rw [listed] at oneOf
          have all : (Comparison.oneOf values).admittedOn field.kind = true :=
            admitted _ (by simp [Filter.comparisons, listed])
          have one := List.all_eq_true.mp all value oneOf
          rw [FieldKind.admitsNullable, one, Bool.or_true]
    · cases pinned
  | _ => cases pinned

end Predicate

/-- Identifiers are compared with null and with texts. -/
theorem FieldKind.uuid_admits {value : Scalar} (h : FieldKind.uuid.admitsNullable value = true) :
    value = .null ∨ ∃ text, value = .text text := by
  cases value with
  | null => exact .inl rfl
  | text text => exact .inr ⟨text, rfl⟩
  | _ => cases h

/-! ## Owning a job -/

/-- A job of the tables has the id, and the caller is its owner. -/
def Tables.OwnsJob (t : Tables) (c : Caller) (job : String) : Prop :=
  ∃ row ∈ t.of "jobs", row.HasText "id" job ∧ row.HasText "ownerId" c.id.text

/-- The lookup of a job finds it where it is the caller's. -/
theorem Tables.owns_iff {t : Tables} {c : Caller} {job : String} :
    t.Owns .recruiting c Registry.jobs "ownerId" job ↔ t.OwnsJob c job := by
  have id : Path.ofText "id" = ⟨["id"]⟩ := by decide
  have ownerId : Path.ofText "ownerId" = ⟨["ownerId"]⟩ := by decide
  rw [Owns, count, id, ownerId, ne_eq, List.length_eq_zero_iff, List.eq_nil_iff_forall_not_mem]
  simp only [matching_eq, List.mem_filter, Option.all_some, not_forall, not_not]
  refine exists_congr fun row => and_congr_right fun _ => ?_
  have columns : ∀ path ∈ (Predicate.and [.equals ⟨["id"]⟩ (.text job),
      .equals ⟨["ownerId"]⟩ c.asScalar]).paths, path.relations = [] := by
    intro path member
    simp only [Predicate.paths, Predicate.pathsOfAll, List.cons_append, List.nil_append,
      List.mem_cons, List.not_mem_nil, or_false] at member
    rcases member with rfl | rfl <;> rfl
  rw [passes_of_columns columns, Predicate.accepts_and, List.all_cons, List.all_cons, List.all_nil,
    Bool.and_true, Bool.and_eq_true, Predicate.accepts_equals_text, asScalar,
    Predicate.accepts_equals_text]
  rfl

/-- Jobs that are the caller's, one for each id. -/
def Tables.jobsOf (c : Caller) (ids : List String) : Tables :=
  ⟨[("jobs", ids.map fun job => .obj [("id", .str job), ("ownerId", .str c.id.text)])]⟩

theorem Tables.ownsJob_jobsOf {c : Caller} {ids : List String} {job : String} :
    (jobsOf c ids).OwnsJob c job ↔ job ∈ ids := by
  have rows : (jobsOf c ids).of "jobs" =
      ids.map fun job => .obj [("id", .str job), ("ownerId", .str c.id.text)] := rfl
  have id (own : String) : Json.HasText (.obj [("id", .str own), ("ownerId", .str c.id.text)])
      "id" job ↔ job = own := by
    rw [Json.HasText, Path.valuesIn_column rfl]
    change Json.str job ∈ [Json.str own] ↔ _
    rw [List.mem_singleton, Json.str.injEq]
  have owner (own : String) : Json.HasText (.obj [("id", .str own), ("ownerId", .str c.id.text)])
      "ownerId" c.id.text := by
    rw [Json.HasText, Path.valuesIn_column rfl]
    exact List.mem_cons_self
  simp only [OwnsJob, rows, List.mem_map]
  constructor
  · rintro ⟨_, ⟨own, member, rfl⟩, same, -⟩
    exact (id own).mp same ▸ member
  · intro member
    exact ⟨_, ⟨job, member, rfl⟩, (id job).mpr rfl, owner job⟩

namespace Caller

variable {t : Tables} {q : Descriptor}

/-- A query for applications, narrowed on tables. -/
abbrev narrowApplications (c : Caller) (t : Tables) (q : Descriptor) : Except ScopeFault Descriptor :=
  (c.narrow (m := Id) .recruiting (t.storage .recruiting) Registry.applications q).run

/-- The filter of a query for applications, without what the caller may not filter on. -/
abbrev stripApplications (c : Caller) (q : Descriptor) : Option Predicate :=
  c.strip .recruiting Registry.applications q.filter

/-- The narrowing looks at every job that the filter names: it refuses one of those that are not the
caller's, and where there is none it succeeds. -/
def ChecksJobs (c : Caller) (t : Tables) (q : Descriptor) : Prop :=
  let named (job : String) := Predicate.HoldsTo (c.stripApplications q) ⟨["jobId"]⟩ (.text job)
  ((∃ job, named job ∧ ¬ t.OwnsJob c job) →
      ∃ job, named job ∧ ¬ t.OwnsJob c job ∧
        c.narrowApplications t q = .error (.notOwned "jobs" job)) ∧
    ((∀ job, named job → t.OwnsJob c job) → ∃ resolved, c.narrowApplications t q = .ok resolved)

/-- What a filter holds `jobId` to is null or a text. -/
theorem null_or_text_of_holdsTo {c : Caller} {value : Scalar}
    (accepted : Registry.recruiting.accepts Registry.applications q = true)
    (held : Predicate.HoldsTo (c.stripApplications q) ⟨["jobId"]⟩ value) :
    value = .null ∨ ∃ job, value = .text job := by
  obtain ⟨leaf, hleaf, pinned⟩ := held.exists_leaf
  have asked := (mem_leavesOf_strip hleaf).1
  cases hfilter : q.filter with
  | none =>
    rw [hfilter] at asked
    cases asked
  | some p =>
    rw [hfilter, Predicate.leavesOf_some] at asked
    have valid := Predicate.problems_eq_nil_iff p |>.mp ((valid_query accepted).1 p hfilter)
    exact FieldKind.uuid_admits (Predicate.admits_of_mem_pins rfl (valid leaf asked) pinned)

/-- The jobs that are looked up are those that the top conditions name. -/
theorem mem_pinnedTexts_jobId {c : Caller} {job : String}
    (accepted : Registry.recruiting.accepts Registry.applications q = true) :
    job ∈ pinnedTexts (c.stripApplications q) ⟨["jobId"]⟩ ↔
      Predicate.HoldsAtTop (c.stripApplications q) ⟨["jobId"]⟩ (.text job) := by
  rw [Predicate.mem_pinnedTexts_iff]
  constructor
  · rintro ⟨value, top, spelled⟩
    rcases null_or_text_of_holdsTo accepted top.holdsTo with rfl | ⟨text, rfl⟩
    · cases spelled
    · exact Option.some.inj spelled ▸ top
  · intro top
    exact ⟨_, top, rfl⟩

/-- **The top conditions decide.** Either all jobs that they name are the recruiter's and the query
is narrowed, or the narrowing refuses one of those that are not. -/
theorem narrowApplications_cases (id : Uuid)
    (accepted : Registry.recruiting.accepts Registry.applications q = true) :
    let c : Caller := ⟨id, .recruiter⟩
    let top (job : String) := Predicate.HoldsAtTop (c.stripApplications q) ⟨["jobId"]⟩ (.text job)
    ((∀ job, top job → t.OwnsJob c job) ∧
        c.narrowApplications t q = .ok (c.narrowed .recruiting Registry.applications q)) ∨
      ∃ job, top job ∧ ¬ t.OwnsJob c job ∧
        c.narrowApplications t q = .error (.notOwned "jobs" job) := by
  intro c top
  have visible : (c.rule Registry.applications.name).overlay.isDeny = false := rfl
  have check : c.checkParents (m := Id) .recruiting (t.storage .recruiting)
      (c.rule Registry.applications.name).overlay (c.stripApplications q) =
        c.checkOwned (t.storage .recruiting) Registry.jobs "ownerId"
          (pinnedTexts (c.stripApplications q) ⟨["jobId"]⟩) :=
    checkParents_eq rfl _
  rcases checkOwned_cases (t := t) (r := .recruiting) (c := c) Registry.jobs "ownerId"
      (pinnedTexts (c.stripApplications q) ⟨["jobId"]⟩) with
    ⟨passed, owned⟩ | ⟨job, member, foreign, refused⟩
  · left
    refine ⟨fun job named => ?_, ?_⟩
    · exact Tables.owns_iff.mp (owned job ((mem_pinnedTexts_jobId accepted).mpr named))
    · exact narrow_eq_ok_iff.mpr ⟨visible, by rw [check]; exact passed, rfl⟩
  · right
    refine ⟨job, (mem_pinnedTexts_jobId accepted).mp member, ?_, ?_⟩
    · exact fun owned => foreign (Tables.owns_iff.mpr owned)
    · exact Service.narrow_error visible (by rw [check]; exact refused)

/-- **Which jobs are checked.** A valid filter of applications holds `jobId` to null and to texts. The
jobs that its top conditions name decide: all of them are the recruiter's and the query is narrowed,
or one that is not is refused. This looks at every job that the filter names, whatever the tables
hold, just when no job is named by a nested conjunction alone. -/
theorem narrow_ownership (id : Uuid) (q : Descriptor)
    (accepted : Registry.recruiting.accepts Registry.applications q = true) :
    let c : Caller := ⟨id, .recruiter⟩
    let filter := c.stripApplications q
    let jobId : Path := ⟨["jobId"]⟩
    (∀ value, Predicate.HoldsTo filter jobId value → value = .null ∨ ∃ job, value = .text job) ∧
      (∀ t : Tables,
        ((∀ job, Predicate.HoldsAtTop filter jobId (.text job) → t.OwnsJob c job) ∧
            c.narrowApplications t q = .ok (c.narrowed .recruiting Registry.applications q)) ∨
          ∃ job, Predicate.HoldsAtTop filter jobId (.text job) ∧ ¬ t.OwnsJob c job ∧
            c.narrowApplications t q = .error (.notOwned "jobs" job)) ∧
      ((∀ t, c.ChecksJobs t q) ↔
        ∀ job, Predicate.HoldsTo filter jobId (.text job) →
          Predicate.HoldsAtTop filter jobId (.text job)) := by
  intro c filter jobId
  refine ⟨fun value => null_or_text_of_holdsTo accepted,
    fun t => narrowApplications_cases id accepted, ?_, ?_⟩
  · intro checks job named
    -- a recruiter who owns what is looked up, and no other job
    let t := Tables.jobsOf c (pinnedTexts filter jobId)
    rcases narrowApplications_cases (t := t) id accepted with ⟨-, narrowed⟩ | ⟨other, top, foreign, -⟩
    · by_contra hidden
      have foreign : ¬ t.OwnsJob c job := fun owned =>
        hidden ((mem_pinnedTexts_jobId accepted).mp (Tables.ownsJob_jobsOf.mp owned))
      obtain ⟨other, -, -, refused⟩ := (checks t).1 ⟨job, named, foreign⟩
      cases narrowed.symm.trans refused
    · exact absurd (Tables.ownsJob_jobsOf.mpr ((mem_pinnedTexts_jobId accepted).mpr top)) foreign
  · intro flat t
    rcases narrowApplications_cases (t := t) id accepted with
      ⟨owned, narrowed⟩ | ⟨job, top, foreign, refused⟩
    · refine ⟨?_, fun _ => ⟨_, narrowed⟩⟩
      rintro ⟨job, named, foreign⟩
      exact absurd (owned job (flat job named)) foreign
    · refine ⟨fun _ => ⟨job, top.holdsTo, foreign, refused⟩, fun all => ?_⟩
      exact absurd (all job top.holdsTo) foreign

/-- A filter by one of two jobs and by a state, sent by the owner of the first. -/
theorem narrow_ownership_of_two :
    let c : Caller := ⟨⟨0xb1⟩, .recruiter⟩
    let q : Descriptor :=
      { filter := some (.and [.operator ⟨["jobId"]⟩
          { oneOf := some [.text (Uuid.text ⟨1⟩), .text (Uuid.text ⟨2⟩)] },
        .equals ⟨["status"]⟩ (.text "NEW")]) }
    Registry.recruiting.accepts Registry.applications q = true ∧
      ∃ job, c.narrowApplications (Tables.jobsOf c [Uuid.text ⟨1⟩]) q =
        .error (.notOwned "jobs" job) := by
  intro c q
  have accepted : Registry.recruiting.accepts Registry.applications q = true := by decide +kernel
  obtain ⟨-, decided, -⟩ := narrow_ownership ⟨0xb1⟩ q accepted
  refine ⟨accepted, ?_⟩
  rcases decided (Tables.jobsOf c [Uuid.text ⟨1⟩]) with ⟨owned, -⟩ | ⟨job, -, -, refused⟩
  · -- the second job is named, and nobody owns it
    have second : Uuid.text ⟨2⟩ ∈ pinnedTexts (c.stripApplications q) ⟨["jobId"]⟩ := by
      decide +kernel
    have mine := owned _ ((mem_pinnedTexts_jobId accepted).mp second)
    have other : Uuid.text ⟨2⟩ ∉ [Uuid.text ⟨1⟩] := by decide +kernel
    exact absurd (Tables.ownsJob_jobsOf.mp mine) other
  · exact ⟨job, refused⟩

/-- **A job that a nested conjunction names is not looked up.** The clause names a job of somebody
else beside a state; under an `AND` of its own it is narrowed like any other filter. -/
theorem narrow_nested_job :
    let c : Caller := ⟨⟨0xb1⟩, .recruiter⟩
    let job := Uuid.text ⟨2⟩
    let q : Descriptor :=
      { filter := some (.and [.and [.equals ⟨["jobId"]⟩ (.text job),
          .equals ⟨["status"]⟩ (.text "NEW")]]) }
    let t : Tables := ⟨[("jobs",
      [.obj [("id", .str job), ("ownerId", .str (Uuid.text ⟨0xb2⟩))]])]⟩
    Registry.recruiting.accepts Registry.applications q = true ∧
      Predicate.HoldsTo (c.stripApplications q) ⟨["jobId"]⟩ (.text job) ∧ ¬ t.OwnsJob c job ∧
      (∃ resolved, c.narrowApplications t q = .ok resolved) ∧ ¬ c.ChecksJobs t q := by
  intro c job q t
  have stripped : c.stripApplications q = q.filter := by rfl
  have named : Predicate.HoldsTo (c.stripApplications q) ⟨["jobId"]⟩ (.text job) := by
    rw [stripped]
    refine ⟨_, rfl, .equals ⟨["jobId"]⟩ (.text job), ?_, List.mem_cons_self⟩
    exact .and List.mem_cons_self (.and List.mem_cons_self (.self _))
  have foreign : ¬ t.OwnsJob c job := by
    rw [← Tables.owns_iff]
    decide +kernel
  obtain ⟨resolved, narrowed⟩ : ∃ resolved, c.narrowApplications t q = .ok resolved := ⟨_, rfl⟩
  refine ⟨by decide +kernel, named, foreign, ⟨resolved, narrowed⟩, fun checks => ?_⟩
  obtain ⟨_, -, -, refused⟩ := checks.1 ⟨job, named, foreign⟩
  cases narrowed.symm.trans refused

end Caller

end Roster
