import Roster.Proofs.Scope.IncludeDepth
import Roster.Proofs.Service.Echo
import Roster.Proofs.Store.Loading

/-!
# What is resolved can be run

A query is checked once, before it is brought within limits and narrowed, and nothing is checked
again. What is done to it afterwards adds paths, which are those of the overlays, and takes away
levels of includes. So the query that is run has no problems either, its includes are within the
limit, and neither its statements nor the loading of its related records can fail for its shape
(`resolve_runs`).
-/

namespace Roster.Service

open Caller IncludeEntry

variable {limits : Limits} {entity : String} {c : Caller} {q resolved : Descriptor} {e : Entity}

/-- What is resolved is a valid query, within limits and narrowed. The storage looks up owners on the
way and can have a state of its own. -/
theorem effective_of_resolve {σ : Type} {r : Registry} {s : Storage (StateM σ)} {before : σ}
    (returned : ((resolve ⟨r, s, limits⟩ entity c q).run before).1 = .ok (e, resolved)) :
    r.listable? entity = some e ∧ r.problems e q = [] ∧ resolved = effective limits r c e q := by
  obtain ⟨⟨found, bounded⟩, after, screened, returned⟩ := exists_of_run_bind returned
  obtain ⟨hentity, valid, rfl⟩ := (screen_eq_ok_iff _).mp (congrArg Prod.fst screened)
  obtain ⟨narrowed, last, adapted, returned⟩ := exists_of_run_bind returned
  obtain ⟨rfl, rfl⟩ := Prod.mk.inj (Except.ok.inj returned)
  have adapted : ((c.narrow r s found (limits.bound q)).run after).1.mapError ListFault.scope =
      .ok narrowed := congrArg Prod.fst adapted
  obtain ⟨-, same⟩ := eq_narrowed (mapError_eq_ok.mp adapted)
  exact ⟨hentity, valid, same⟩

/-- **The query that is run has no problems**, and its includes are within the limit. -/
theorem accepts_effective (limits : Limits) (c : Caller)
    (registered : Registry.recruiting.Registered e)
    (valid : Registry.recruiting.problems e q = []) :
    Registry.recruiting.accepts e (effective limits .recruiting c e q) = true := by
  rw [Registry.accepts, List.isEmpty_iff]
  exact problems_narrowed validConditions_recruiting registered (problems_bound valid)

theorem depth_effective {r : Registry} {tree : IncludeTree}
    (h : (effective limits r c e q).include? = some tree) : tree.depth ≤ limits.maxIncludeDepth := by
  have inc : (effective limits r c e q).include? =
      c.narrowInclude r e (truncateInclude limits.maxIncludeDepth q.include?) :=
    congrArg (c.narrowInclude r e) (include?_bound q)
  rw [inc] at h
  cases hq : q.include? with
  | none =>
    rw [hq] at h
    cases h
  | some asked =>
    rw [hq] at h
    obtain rfl := Option.some.inj h
    calc treeDepth (c.narrowTree r e (truncateTree limits.maxIncludeDepth asked))
      _ ≤ treeDepth (truncateTree limits.maxIncludeDepth asked) := treeDepth_narrowTree c r e _
      _ ≤ limits.maxIncludeDepth := by
        rw [treeDepth_truncateTree]
        exact Nat.min_le_right _ _

/-- **A query that is resolved never fails for its shape.** Both of its statements can be written.
Whatever rows it brings, its related records are loaded without a detour: every name is a relation to
a registered entity, no tree is deeper than the limit, and every query for related records that the
storage is sent has both of its statements. -/
theorem resolve_runs {σ : Type} (s : Storage (StateM σ)) (limits : Limits) (entity : String)
    (c : Caller) (q : Descriptor) (before : σ) (e : Entity) (resolved : Descriptor)
    (returned : ((resolve ⟨.recruiting, s, limits⟩ entity c q).run before).1 = .ok (e, resolved)) :
    (∃ select, Sql.selectText .recruiting e resolved = .ok select) ∧
      (∃ count, Sql.countText .recruiting e resolved.filter = .ok count) ∧
      ∀ tree, resolved.include? = some tree →
        ∀ {m : Type → Type} [Monad m] [LawfulMonad m] (s' : Storage m) (d : Includes.Detours m)
          (unstated : Entity → Descriptor → ExceptT StorageFault m StoredRows) (rows : List Json),
          Includes.loadVia d (s'.answering .recruiting unstated) .recruiting limits.maxIncludeDepth 0
              e tree rows =
            Includes.load s' .recruiting limits.maxIncludeDepth 0 e tree rows := by
  obtain ⟨hentity, valid, rfl⟩ := effective_of_resolve returned
  have registered : Registry.recruiting.Registered e :=
    ⟨entity, (Option.filter_eq_some_iff.mp hentity).1⟩
  have accepted := accepts_effective limits c registered valid
  obtain ⟨select, count⟩ :=
    Sql.states_iff.mp (Sql.states_of_valid Registry.linked_recruiting registered accepted)
  refine ⟨select, count, ?_⟩
  -- the storage that loads may be another one, and may answer anything
  intro tree htree m _ _ s' d unstated rows
  obtain ⟨-, -, validTree⟩ := valid_query accepted
  have within : 0 + tree.depth ≤ limits.maxIncludeDepth := by
    rw [Nat.zero_add]
    exact depth_effective htree
  exact Includes.loadVia_eq d s' unstated limits.maxIncludeDepth Registry.spelled_recruiting registered
    (validTree tree htree) within rows

/-- A recruiter filters applications by a job of theirs, and asks for includes that are one level
deeper than allowed. The rules add the owner of the job to the filter, and a condition of their own to
each include that is left. -/
theorem resolve_runs_applications :
    let c : Caller := ⟨⟨0xb1⟩, .recruiter⟩
    let t : Tables := ⟨[("jobs", [.obj [("id", .str (Uuid.text ⟨4⟩)),
      ("ownerId", .str c.id.text)]])]⟩
    let s : Storage (StateM Nat) := t.storage .recruiting
    let q : Descriptor :=
      { filter := some (.and [.equals ⟨["jobId"]⟩ (.text (Uuid.text ⟨4⟩)),
          .operator ⟨["candidate", "lastName"]⟩ { contains := some "Ann", ignoreCase := true }])
        orderBy := some [⟨⟨["score"]⟩, .desc⟩]
        include? := some [("job", .nested
          (some [("applications", .nested (some [("candidate", .flag true)]) none none)]) none
          (some (.equals ⟨["status"]⟩ (.text "OPEN"))))] }
    let e := Registry.applications
    ∃ resolved tree,
      ((resolve ⟨.recruiting, s, {}⟩ "applications" c q).run 0).1 = .ok (e, resolved) ∧
        (∃ select, Sql.selectText .recruiting e resolved = .ok select) ∧
        (∃ count, Sql.countText .recruiting e resolved.filter = .ok count) ∧
        resolved.include? = some tree ∧ tree.depth = 1 ∧
        ∀ (d : Includes.Detours (StateM Nat))
          (unstated : Entity → Descriptor → ExceptT StorageFault (StateM Nat) StoredRows) rows,
          Includes.loadVia d (s.answering .recruiting unstated) .recruiting 1 0 e tree rows =
            Includes.load s .recruiting 1 0 e tree rows := by
  intro c t s q e
  have answers : (((resolve ⟨.recruiting, s, {}⟩ "applications" c q).run 0).1.toOption.map
      fun found => (found.1, found.2.include?.map IncludeTree.depth)) = some (e, some 1) := by
    decide +kernel
  obtain ⟨⟨found, resolved⟩, answered, same⟩ := Option.map_eq_some_iff.mp answers
  obtain ⟨rfl, depth⟩ := Prod.mk.inj same
  obtain ⟨tree, htree, depth⟩ := Option.map_eq_some_iff.mp depth
  have answered := toOption_eq_some.mp answered
  obtain ⟨select, count, loads⟩ := resolve_runs s {} "applications" c q 0 _ resolved answered
  exact ⟨resolved, tree, answered, select, count, htree, depth, loads tree htree s⟩

end Roster.Service
