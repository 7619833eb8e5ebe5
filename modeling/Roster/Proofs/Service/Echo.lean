import Roster.Proofs.Json.Record
import Roster.Proofs.Service.Answer

/-!
# Sending an echoed query back

An answer carries the query as it was run. A caller who lists with that query gets the same rows
and the same count (`list_echo`), with one exception. A recruiter who lists applications may be told
that a job is not theirs: the second narrowing strips the condition on the owner, which can bring a
condition on one job to the top of the filter, and at the top jobs are looked up.

Where a parent has to be owned the filter has to be settled. If it is not, the second narrowing
drops parts of it that decided something (`list_echo_unsettled`).
-/

namespace Roster

open Caller IncludeEntry

/-! ## Looking up owners -/

/-- The caller owns the record of a parent. -/
def Tables.Owns (t : Tables) (r : Registry) (c : Caller) (parent : Entity)
    (ownerField id : String) : Prop :=
  t.count r parent (some (.and [.equals (Path.ofText "id") (.text id),
    .equals (Path.ofText ownerField) c.asScalar])) ≠ 0

instance (t : Tables) (r : Registry) (c : Caller) (parent : Entity) (ownerField id : String) :
    Decidable (t.Owns r c parent ownerField id) :=
  inferInstanceAs (Decidable (_ ≠ 0))

namespace Caller

variable {t : Tables} {r : Registry} {c : Caller} {e : Entity}

theorem checkOwned_cons (parent : Entity) (ownerField id : String) (rest : List String) :
    (c.checkOwned (m := Id) (t.storage r) parent ownerField (id :: rest)).run =
      if t.Owns r c parent ownerField id then
        (c.checkOwned (m := Id) (t.storage r) parent ownerField rest).run
      else .error (.notOwned parent.name id) := by
  have found (filter : Option Predicate) : ((t.storage (m := Id) r).count parent filter).adapt
      (fun fault => ScopeFault.lookup fault.message) = pure (t.count r parent filter) := rfl
  rw [checkOwned]
  dsimp only
  rw [found, pure_bind]
  split
  · next none_ =>
    rw [if_neg fun owns => owns none_]
    rfl
  · next some_ =>
    have owns : t.Owns r c parent ownerField id := some_
    rw [if_pos owns]

/-- A check of owners passes when the caller owns all records, or it names one that they do not. -/
theorem checkOwned_cases (parent : Entity) (ownerField : String) (ids : List String) :
    ((c.checkOwned (m := Id) (t.storage r) parent ownerField ids).run = .ok () ∧
        ∀ id ∈ ids, t.Owns r c parent ownerField id) ∨
      ∃ id ∈ ids, ¬ t.Owns r c parent ownerField id ∧
        (c.checkOwned (m := Id) (t.storage r) parent ownerField ids).run =
          .error (.notOwned parent.name id) := by
  induction ids with
  | nil => exact .inl ⟨rfl, nofun⟩
  | cons id rest ih =>
    rw [checkOwned_cons]
    by_cases owned : t.Owns r c parent ownerField id
    · rw [if_pos owned]
      rcases ih with ⟨passed, all⟩ | ⟨other, member, foreign, refused⟩
      · exact .inl ⟨passed, List.forall_mem_cons.mpr ⟨owned, all⟩⟩
      · exact .inr ⟨other, List.mem_cons_of_mem _ member, foreign, refused⟩
    · exact .inr ⟨id, List.mem_cons_self, owned, if_neg owned⟩

/-- The parents of a filter are looked up under the key that it pins. -/
theorem checkParents_eq {s : Storage Id} {foreignKey path : Path} {parent ownerField : String}
    {owner : Scalar} {target : Entity} (hparent : r.entity? parent = some target)
    (filter : Option Predicate) :
    c.checkParents r s (.parentOwner foreignKey parent ownerField path owner) filter =
      c.checkOwned s target ownerField (pinnedTexts filter foreignKey) := by
  rw [checkParents]
  split
  · next none_ => rw [none_, checkOwned]
  · simp only [hparent]

/-- The parents that a filter pins are the caller's own if the check passes. -/
theorem owns_of_checkParents {foreignKey path : Path} {parent ownerField : String}
    {owner : Scalar} {target : Entity} (hparent : r.entity? parent = some target)
    {filter : Option Predicate}
    (passed : (c.checkParents (m := Id) r (t.storage r)
      (.parentOwner foreignKey parent ownerField path owner) filter).run = .ok ()) :
    ∀ id ∈ pinnedTexts filter foreignKey, t.Owns r c target ownerField id := by
  rw [checkParents_eq hparent] at passed
  rcases checkOwned_cases target ownerField (pinnedTexts filter foreignKey) with
    ⟨-, all⟩ | ⟨id, -, -, refused⟩
  · exact all
  · cases passed.symm.trans refused

/-- The check of parents passes, or it names one that the filter pins and the caller does not
own. -/
theorem checkParents_cases (echoes : Echoes c r) (registered : r.Registered e)
    (filter : Option Predicate) :
    (c.checkParents (m := Id) r (t.storage r) (c.rule e.name).overlay filter).run = .ok () ∨
      ∃ foreignKey parent ownerField ownerPath owner target id,
        (c.rule e.name).overlay = .parentOwner foreignKey parent ownerField ownerPath owner ∧
          r.entity? parent = some target ∧ id ∈ pinnedTexts filter foreignKey ∧
          ¬ t.Owns r c target ownerField id ∧
          (c.checkParents (m := Id) r (t.storage r) (c.rule e.name).overlay filter).run =
            .error (.notOwned target.name id) := by
  cases overlay : (c.rule e.name).overlay with
  | parentOwner foreignKey parent ownerField ownerPath owner =>
    obtain ⟨target, htarget⟩ := echoes.parents registered overlay
    rw [checkParents_eq htarget]
    rcases checkOwned_cases target ownerField (pinnedTexts filter foreignKey) with
      ⟨passed, -⟩ | ⟨id, member, foreign, refused⟩
    · exact .inl passed
    · exact .inr ⟨_, _, _, _, _, target, id, rfl, htarget, member, foreign, refused⟩
  | _ => exact .inl rfl

theorem narrowOrder_narrowOrder (restricted : List Path) (orderBy : Option (List SortKey)) :
    (orderBy.bind (narrowOrder restricted)).bind (narrowOrder restricted) =
      orderBy.bind (narrowOrder restricted) := by
  cases orderBy with
  | none => rfl
  | some keys =>
    cases h : keys.filter fun k => !restricted.contains k.path with
    | nil => simp only [narrowOrder, h, Option.bind_some, Option.bind_none]
    | cons k rest =>
      have kept : (k :: rest).filter (fun k => !restricted.contains k.path) = k :: rest := by
        rw [← h, List.filter_filter]
        simp only [Bool.and_self]
      simp only [narrowOrder, h, Option.bind_some, kept]

/-- Where a parent has to be owned, what is left of the filters of a query is settled. -/
structure SettlesQuery (c : Caller) (r : Registry) (limits : Limits) (e : Entity) (q : Descriptor) :
    Prop where
  filter : c.Settles r e q.filter
  includes : ∀ tree, q.include? = some tree →
    c.SettlesTree r e (tree.sanitize limits.maxIncludeDepth)

end Caller

namespace Service

variable {t : Tables} {r : Registry} {limits : Limits} {entity : String} {c : Caller}
  {q resolved : Descriptor} {e : Entity} {page : Page}

/-! ## The query that is run -/

/-- The query that is run for a query: within limits, and narrowed. -/
def effective (limits : Limits) (r : Registry) (c : Caller) (e : Entity) (q : Descriptor) :
    Descriptor :=
  c.narrowed r e (limits.bound q)

theorem include?_bound (q : Descriptor) :
    (limits.bound q).include? = truncateInclude limits.maxIncludeDepth q.include? := by
  cases h : q.include? <;> simp [Limits.bound, Descriptor.clamp, Descriptor.window, h,
    truncateInclude, IncludeTree.sanitize]

/-- Within the limits a window stays as it is. -/
theorem bound_of_window {skip take : Nat} (hskip : q.skip = some skip) (htake : q.take = some take)
    (within : take ≤ limits.maxTake) :
    limits.bound q =
      { q with include? := truncateInclude limits.maxIncludeDepth q.include? } := by
  rw [← include?_bound]
  obtain ⟨filter, orderBy, inc, select, _, _⟩ := q
  subst hskip htake
  simp [Limits.bound, Descriptor.clamp, Descriptor.window, Nat.min_eq_right within]

/-- Every query that is run has a window, and it is within the limits. -/
theorem window_effective (limits : Limits) (r : Registry) (c : Caller) (e : Entity)
    (q : Descriptor) : ∃ skip, ∃ take ≤ limits.maxTake,
      (effective limits r c e q).skip = some skip ∧
        (effective limits r c e q).take = some take := by
  refine ⟨_, _, ?_, rfl, rfl⟩
  cases q.take with
  | none => exact Nat.min_le_right _ _
  | some take => exact Nat.min_le_left _ _

/-- **The second time, only filters are changed**, of the query and of its includes. -/
theorem effective_effective (limits : Limits) (r : Registry) (c : Caller) (e : Entity)
    (q : Descriptor) :
    effective limits r c e (effective limits r c e q) =
      { effective limits r c e q with
        filter := c.narrowFilter r e (c.narrowFilter r e q.filter)
        include? := c.narrowInclude r e (truncateInclude limits.maxIncludeDepth
          (c.narrowInclude r e (truncateInclude limits.maxIncludeDepth q.include?))) } := by
  obtain ⟨skip, take, within, hskip, htake⟩ := window_effective limits r c e q
  rw [effective, bound_of_window hskip htake within, narrowed]
  simp only [effective, narrowed, include?_bound]
  rw [narrowOrder_narrowOrder]
  rfl

/-- A valid query stays valid when it is brought within limits. -/
theorem problems_bound (valid : r.problems e q = []) : r.problems e (limits.bound q) = [] := by
  rw [Registry.problems, List.append_eq_nil_iff] at valid
  rw [Registry.problems, List.append_eq_nil_iff, include?_bound]
  exact ⟨valid.1, problems_truncateInclude e "include" limits.maxIncludeDepth q.include? valid.2⟩

/-- The query that is run a second time asks for the same rows and the same records. -/
theorem resembles_effective (linked : r.Linked) (echoes : Echoes c r) (registered : r.Registered e)
    (valid : r.problems e q = []) (settles : c.SettlesQuery r limits e q) :
    let once := effective limits r c e q
    let twice := effective limits r c e once
    SameMatches r e once.filter twice.filter ∧
      IncludeResembles r e once.include? twice.include? := by
  intro once twice
  have same : twice = _ := effective_effective limits r c e q
  have accepted : r.accepts e q = true := by rw [Registry.accepts, valid]; rfl
  have inc : once.include? =
      c.narrowInclude r e (truncateInclude limits.maxIncludeDepth q.include?) :=
    congrArg (c.narrowInclude r e) (include?_bound q)
  rw [same, inc]
  constructor
  · exact sameMatches_narrowFilter linked echoes registered (valid_query accepted).1 settles.filter
  · rw [Registry.problems, List.append_eq_nil_iff] at valid
    refine resembles_narrowInclude linked echoes _ q.include? valid.2 fun tree htree => ?_
    cases hq : q.include? with
    | none =>
      rw [hq] at htree
      cases htree
    | some asked =>
      rw [hq] at htree
      exact Option.some.inj htree ▸ settles.includes asked hq

/-! ## What a list answers -/

theorem narrow_error {fault : ScopeFault} (visible : (c.rule e.name).overlay.isDeny = false)
    (refused : (c.checkParents (m := Id) r (t.storage r) (c.rule e.name).overlay
      (c.strip r e q.filter)).run = .error fault) :
    (c.narrow (m := Id) r (t.storage r) e q).run = .error fault := by
  rw [narrow_eq, visible, if_neg Bool.false_ne_true, ExceptT.run_bind, refused]
  rfl

theorem list_error {fault : ListFault}
    (h : (resolve (m := Id) ⟨r, t.storage r, limits⟩ entity c q).run = .error fault) :
    (list (m := Id) ⟨r, t.storage r, limits⟩ entity c q).run = .error fault := by
  rw [list, ExceptT.run_bind, h]
  rfl

/-- A valid query that may not be narrowed is refused. -/
theorem resolve_error {fault : ScopeFault} (hentity : r.listable? entity = some e)
    (valid : r.problems e q = [])
    (h : (c.narrow (m := Id) r (t.storage r) e (limits.bound q)).run = .error fault) :
    (resolve (m := Id) ⟨r, t.storage r, limits⟩ entity c q).run = .error (.scope fault) := by
  have screened : screen (m := Id) ⟨r, t.storage r, limits⟩ entity q =
      .ok (e, limits.bound q) := by
    simp only [screen, hentity, valid]
  have refused : ((c.narrow (m := Id) r (t.storage r) e (limits.bound q)).adapt
      ListFault.scope).run = .error (.scope fault) := by
    change ((c.narrow (m := Id) r (t.storage r) e (limits.bound q)).run : Except _ _).mapError _ = _
    rw [h]
    rfl
  rw [resolve, screened, ExceptT.run_bind, ExceptT.run_mk]
  change ((c.narrow (m := Id) r (t.storage r) e (limits.bound q)).adapt
    ListFault.scope >>= fun q => pure (e, q)).run = _
  rw [ExceptT.run_bind, refused]
  rfl

/-- Listing with a query that asks for the same rows and records gives the same rows. -/
theorem list_of_resembles (spelled : r.Spelled) (registered : r.Registered e)
    {other : Descriptor} {loaded : List Json}
    (same : SameMatches r e resolved.filter other.filter)
    (includes : IncludeResembles r e resolved.include? other.include?)
    (parts : other = { resolved with filter := other.filter, include? := other.include? })
    (hresolve : (resolve (m := Id) ⟨r, t.storage r, limits⟩ entity c q).run = .ok (e, other))
    (hloaded : (Includes.loadNested (m := Id) (t.storage r) r limits.maxIncludeDepth 0 e
      (t.fetch r e resolved).rows resolved.include?).run = .ok loaded) :
    (list (m := Id) ⟨r, t.storage r, limits⟩ entity c q).run =
      .ok ⟨loaded.map (c.face r e resolved), (t.fetch r e resolved).total, other⟩ := by
  have fetched : t.fetch r e other = t.fetch r e resolved := by
    have order := congrArg Descriptor.orderBy parts
    have skip := congrArg Descriptor.skip parts
    have take := congrArg Descriptor.take parts
    simp only [Tables.fetch, order, skip, take, same.matching t]
  have shown : c.face r e other = c.face r e resolved := by
    funext row
    have select := congrArg Descriptor.select parts
    rw [face, face, select, project_congr includes.wants]
  rw [list_eq_ok_iff]
  refine ⟨e, other, loaded, hresolve, ?_, ?_⟩
  · rw [fetched, ← Includes.loadNested_congr _ spelled 0 registered _ _ includes]
    exact hloaded
  · rw [fetched, shown]

/-- **A list with the echoed query answers the same, or it names a parent that was not looked up
before.** -/
theorem list_effective (spelled : r.Spelled) (echoes : Echoes c r)
    (hentity : r.listable? entity = some e)
    (answered : (list (m := Id) ⟨r, t.storage r, limits⟩ entity c q).run = .ok page)
    (settles : c.SettlesQuery r limits e q) :
    (∃ again, (list (m := Id) ⟨r, t.storage r, limits⟩ entity c page.query).run = .ok again ∧
        again.data = page.data ∧ again.count = page.count) ∨
      ∃ foreignKey parent ownerField ownerPath owner target id,
        (c.rule e.name).overlay = .parentOwner foreignKey parent ownerField ownerPath owner ∧
          r.entity? parent = some target ∧
          (list (m := Id) ⟨r, t.storage r, limits⟩ entity c page.query).run =
            .error (.scope (.notOwned target.name id)) ∧
          id ∈ pinnedTexts (c.strip r e page.query.filter) foreignKey ∧
          id ∉ pinnedTexts (c.strip r e q.filter) foreignKey ∧
          ¬ t.Owns r c target ownerField id := by
  obtain ⟨e', resolved, loaded, hresolve, hloaded, rfl⟩ := list_eq_ok_iff.mp answered
  obtain ⟨hentity', valid, narrowed⟩ := resolve_eq_ok_iff.mp hresolve
  obtain rfl : e = e' := Option.some.inj (hentity.symm.trans hentity')
  obtain ⟨visible, checked, rfl⟩ := narrow_eq_ok_iff.mp narrowed
  have registered : r.Registered e := ⟨entity, (Option.filter_eq_some_iff.mp hentity).1⟩
  have validOnce : r.problems e (effective limits r c e q) = [] :=
    problems_narrowed echoes.conditions registered (problems_bound valid)
  obtain ⟨same, includes⟩ :=
    resembles_effective spelled.toLinked echoes registered valid settles
  rcases checkParents_cases (t := t) echoes registered
    (c.strip r e (effective limits r c e q).filter) with passed | refused
  · have hresolve : (resolve (m := Id) ⟨r, t.storage r, limits⟩ entity c
        (effective limits r c e q)).run =
          .ok (e, effective limits r c e (effective limits r c e q)) :=
      resolve_eq_ok_iff.mpr ⟨hentity, validOnce, narrow_eq_ok_iff.mpr ⟨visible, passed, rfl⟩⟩
    have parts := effective_effective limits r c e q
    exact .inl ⟨_, list_of_resembles spelled registered same includes (by rw [parts]) hresolve
      hloaded, rfl, rfl⟩
  · obtain ⟨foreignKey, parent, ownerField, ownerPath, owner, target, id, overlay, htarget, pinned,
      foreign, refused⟩ := refused
    refine .inr ⟨foreignKey, parent, ownerField, ownerPath, owner, target, id, overlay, htarget,
      list_error (resolve_error hentity validOnce (narrow_error visible refused)), pinned,
      fun before => foreign ?_, foreign⟩
    rw [overlay] at checked
    exact owns_of_checkParents htarget checked id before

/-- **A list with the echoed query gives the same rows and the same count**, if its filters are
settled where a job has to be owned. The exception is a recruiter who lists applications: a job that
only the second narrowing looks up may not be theirs. -/
theorem list_echo
    (answered : (list (m := Id) ⟨.recruiting, t.storage .recruiting, limits⟩ entity c q).run =
      .ok page)
    (settles : ∀ e, Registry.recruiting.listable? entity = some e →
      c.SettlesQuery .recruiting limits e q) :
    (∃ again, (list (m := Id) ⟨.recruiting, t.storage .recruiting, limits⟩ entity c
        page.query).run = .ok again ∧ again.data = page.data ∧ again.count = page.count) ∨
      c.role = .recruiter ∧ entity = "applications" ∧
        ∃ id, (list (m := Id) ⟨.recruiting, t.storage .recruiting, limits⟩ entity c
            page.query).run = .error (.scope (.notOwned "jobs" id)) ∧
          id ∈ pinnedTexts (c.strip .recruiting Registry.applications page.query.filter)
            ⟨["jobId"]⟩ ∧
          id ∉ pinnedTexts (c.strip .recruiting Registry.applications q.filter) ⟨["jobId"]⟩ ∧
          ¬ t.Owns .recruiting c Registry.jobs "ownerId" id := by
  obtain ⟨e, _, _, hresolve, -, -⟩ := list_eq_ok_iff.mp answered
  have hentity := (resolve_eq_ok_iff.mp hresolve).1
  have found := (Option.filter_eq_some_iff.mp hentity).1
  obtain ⟨named, -⟩ := Registry.entity?_recruiting found
  rcases list_effective Registry.spelled_recruiting (echoes_recruiting c) hentity answered
    (settles e hentity) with same | refused
  · exact .inl same
  · right
    obtain ⟨foreignKey, parent, ownerField, ownerPath, owner, target, id, overlay, htarget, refused,
      pinned, before, foreign⟩ := refused
    obtain ⟨uuid, role⟩ := c
    cases role with
    | admin => cases overlay
    | recruiter =>
      rcases Registry.eq_of_registered ⟨entity, found⟩ with rfl | rfl | rfl | rfl <;> cases overlay
      cases htarget
      exact ⟨rfl, named.symm, id, refused, pinned, before, foreign⟩
    | candidate =>
      rcases Registry.eq_of_registered ⟨entity, found⟩ with rfl | rfl | rfl | rfl <;> cases overlay

/-- A recruiter lists the applications in two states, with their jobs. One of them is for a job of
theirs. -/
theorem list_echo_applications :
    let c : Caller := ⟨⟨0xb1⟩, .recruiter⟩
    let row (id job status : String) : Json :=
      .obj [("id", .str id), ("jobId", .str job), ("status", .str status)]
    let t : Tables := ⟨[
      ("applications", [row "1" "4" "NEW", row "2" "4" "HIRED", row "3" "5" "NEW"]),
      ("jobs", [.obj [("id", .str "4"), ("ownerId", .str c.id.text)],
        .obj [("id", .str "5"), ("ownerId", .null)]])]⟩
    let s : Service Id := ⟨.recruiting, t.storage .recruiting, {}⟩
    let q : Descriptor :=
      { filter := some (.or [.equals ⟨["status"]⟩ (.text "NEW"), .equals ⟨["score"]⟩ (.int 5)])
        include? := some [("job", .flag true)] }
    ∃ page again, (s.list "applications" c q).run = .ok page ∧ page.count = 1 ∧
      (s.list "applications" c page.query).run = .ok again ∧ again.data = page.data ∧
      again.count = page.count := by
  intro c row t s q
  have answers : ((s.list "applications" c q).run.toOption.map fun page => (page.count,
      pinnedTexts (c.strip .recruiting Registry.applications page.query.filter) ⟨["jobId"]⟩)) =
        some (1, []) := by
    decide +kernel
  obtain ⟨page, answered, same⟩ := Option.map_eq_some_iff.mp answers
  obtain ⟨count, pinned⟩ := Prod.mk.inj same
  have answered := toOption_eq_some.mp answered
  have settles : ∀ e, Registry.recruiting.listable? "applications" = some e →
      c.SettlesQuery .recruiting {} e q := by
    intro e he
    obtain rfl : Registry.applications = e := Option.some.inj he
    refine ⟨?_, fun tree htree names entry owner at_ _ => ?_⟩
    · change Predicate.Settled (c.strip .recruiting Registry.applications q.filter)
      decide +kernel
    · obtain rfl := Option.some.inj htree
      cases at_ with
      | here member =>
        obtain ⟨-, rfl⟩ := Prod.mk.inj (List.mem_singleton.mp member)
        exact settles_none
      | deeper member hinner _ =>
        obtain ⟨-, rfl⟩ := Prod.mk.inj (List.mem_singleton.mp member)
        cases hinner
  rcases list_echo answered settles with ⟨again, h⟩ | ⟨-, -, id, -, member, -⟩
  · exact ⟨page, again, answered, count, h⟩
  · rw [pinned] at member
    cases member

/-- Two disjunctions that a recruiter filters applications by. Without alternatives, the disjunction
decides the first list and is gone from the second. With a single one it hides a job from the first
list, and the second looks it up. -/
theorem list_echo_unsettled :
    let c : Caller := ⟨⟨0xb1⟩, .recruiter⟩
    let job := Uuid.text ⟨1⟩
    let s (owner : Uuid) : Service Id :=
      ⟨.recruiting, Tables.storage ⟨[
        ("applications", [.obj [("id", .str (Uuid.text ⟨2⟩)), ("jobId", .str job)]]),
        ("jobs", [.obj [("id", .str job), ("ownerId", .str owner.text)]])]⟩ .recruiting, {}⟩
    (∃ page again, ((s ⟨0xb1⟩).list "applications" c { filter := some (.or []) }).run = .ok page ∧
        ((s ⟨0xb1⟩).list "applications" c page.query).run = .ok again ∧
        page.count = 0 ∧ again.count = 1) ∧
      ∃ page, ((s ⟨0xb2⟩).list "applications" c
          { filter := some (.or [.equals ⟨["jobId"]⟩ (.text job)]) }).run = .ok page ∧
        ((s ⟨0xb2⟩).list "applications" c page.query).run =
          .error (.scope (.notOwned "jobs" job)) := by
  intro c job s
  have counts : (((s ⟨0xb1⟩).list "applications" c { filter := some (.or []) }).run.toOption.bind
      fun page => ((s ⟨0xb1⟩).list "applications" c page.query).run.toOption.map
        fun again => (page.count, again.count)) = some (0, 1) := by
    decide +kernel
  have refused : (((s ⟨0xb2⟩).list "applications" c
      { filter := some (.or [.equals ⟨["jobId"]⟩ (.text job)]) }).run.toOption.map fun page =>
        match ((s ⟨0xb2⟩).list "applications" c page.query).run with
        | .ok _ => none
        | .error fault => some fault) = some (some (.scope (.notOwned "jobs" job))) := by
    decide +kernel
  constructor
  · obtain ⟨page, hpage, h⟩ := Option.bind_eq_some_iff.mp counts
    obtain ⟨again, hagain, same⟩ := Option.map_eq_some_iff.mp h
    obtain ⟨none_, one⟩ := Prod.mk.inj same
    exact ⟨page, again, toOption_eq_some.mp hpage, toOption_eq_some.mp hagain, none_, one⟩
  · obtain ⟨page, hpage, h⟩ := Option.map_eq_some_iff.mp refused
    refine ⟨page, toOption_eq_some.mp hpage, ?_⟩
    split at h
    · cases h
    · next fault hfault => rw [hfault, Option.some.inj h]

end Service

end Roster
