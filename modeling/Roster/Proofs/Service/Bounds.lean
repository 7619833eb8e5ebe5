import Roster.Proofs.Service.Paging
import Roster.Proofs.Service.Runnable
import Roster.Proofs.Store.Fetches

/-!
# What a list costs

A query is brought within limits before it is narrowed, and narrowing builds its include tree anew. So
the bounds are stated for what comes out of both, and for what the storage is then asked:
`list_within_bounds`. The count of rows depends on nothing but the filter, and the fetches on the
places of the tree, not on rows. Looking up owners takes counts and no fetch, so nothing is fetched
before the page.
-/

namespace Roster

open Caller IncludeEntry

/-! ## What is fetched -/

section Recorded

variable {r : Registry} {limits : Limits} {c : Caller} {e : Entity} (s : Storage Id)

theorem Caller.checkOwned_recorded (parent : Entity) (ownerField : String) (ids : List String) :
    Records (c.checkOwned s.recorded parent ownerField ids) (c.checkOwned s parent ownerField ids)
      [] := by
  induction ids with
  | nil => exact .pure ()
  | cons id rest ih =>
    rw [checkOwned, checkOwned]
    refine ((s.count_recorded parent _).adapt _).bind_quiet fun count _ => ?_
    dsimp only
    split
    · exact (Records.throw _).bind_quiet fun _ passed => by cases passed
    · exact ih

theorem Caller.checkParents_recorded (overlay : Overlay) (filter : Option Predicate) :
    Records (c.checkParents r s.recorded overlay filter) (c.checkParents r s overlay filter) [] := by
  unfold checkParents
  split
  · split
    · exact .pure ()
    · split
      · exact checkOwned_recorded s _ _ _
      · exact .throw _
  · exact .pure ()

/-- Narrowing fetches nothing. -/
theorem Caller.narrow_recorded (q : Descriptor) :
    Records (c.narrow r s.recorded e q) (c.narrow r s e q) [] := by
  rw [narrow_eq, narrow_eq]
  split
  · exact .throw _
  · exact (checkParents_recorded s _ _).bind_quiet fun _ _ => .pure _

namespace Service

/-- Resolving a query fetches nothing. -/
theorem resolve_recorded (entity : String) (q : Descriptor) :
    Records (resolve ⟨r, s.recorded, limits⟩ entity c q) (resolve ⟨r, s, limits⟩ entity c q) [] := by
  have screened : Records (ExceptT.mk (pure (screen ⟨r, s.recorded, limits⟩ entity q)))
      (ExceptT.mk (pure (screen ⟨r, s, limits⟩ entity q))) [] := by
    intro before
    rw [List.append_nil]
    rfl
  exact screened.bind_quiet fun bounded _ =>
    ((c.narrow_recorded s bounded.2).adapt ListFault.scope).bind_quiet fun narrowed _ => .pure _

variable (limits e) in
/-- The records of a page are fetched for the places of its tree. -/
theorem loadRows_recorded (inc : Option IncludeTree) (rows : List Json) :
    ∃ fetches, Includes.Served r e (inc.getD []) (IncludeTree.requestedPlaces (inc.getD [])) fetches ∧
      Records (loadRows ⟨r, s.recorded, limits⟩ e inc rows) (loadRows ⟨r, s, limits⟩ e inc rows)
        fetches := by
  unfold loadRows
  split
  · next tree =>
    split
    · exact ⟨[], .nil, .pure rows⟩
    · obtain ⟨fetches, served, records⟩ :=
        Includes.load_recorded s r limits.maxIncludeDepth 0 e tree rows
      exact ⟨fetches, served, records.adapt _⟩
  · exact ⟨[], .nil, .pure rows⟩

/-- **A list fetches its page, and then for each wanted place of its tree at most once.** -/
theorem list_recorded {entity : String} {q resolved : Descriptor}
    (h : (resolve ⟨r, s, limits⟩ entity c q).run = .ok (e, resolved)) :
    ∃ fetches, Includes.Served r e (resolved.include?.getD [])
        (IncludeTree.requestedPlaces (resolved.include?.getD [])) fetches ∧
      Records (list ⟨r, s.recorded, limits⟩ entity c q) (list ⟨r, s, limits⟩ entity c q)
        ((e, resolved) :: fetches) := by
  have paged := (s.fetch_recorded e resolved).adapt fun fault => ListFault.storage fault.message
  obtain ⟨fetches, served, records⟩ := paged.bind
    (P := Includes.Served r e (resolved.include?.getD [])
      (IncludeTree.requestedPlaces (resolved.include?.getD []))) .nil fun found _ => by
    obtain ⟨fetches, served, records⟩ := loadRows_recorded limits e s resolved.include? found.rows
    exact ⟨fetches, served, records.bind_quiet fun rows _ => .pure
      (⟨rows.map (c.face r e resolved), found.total, resolved⟩ : Page)⟩
  exact ⟨fetches, served, (resolve_recorded s entity q).bind_ok h records⟩

end Service

end Recorded

/-! ## Bounds -/

namespace Service

variable {t : Tables} {r : Registry} {limits : Limits} {entity : String} {c : Caller}
  {q resolved : Descriptor} {e : Entity}

/-- A place that is resolved was asked for, and what is wanted there was wanted. -/
theorem asked_of_resolve {names : List String} {entry : IncludeEntry}
    (h : (resolve (m := Id) ⟨r, t.storage r, limits⟩ entity c q).run = .ok (e, resolved))
    (at_ : IncludeTree.At (resolved.include?.getD []) names entry) :
    ∃ wanted, IncludeTree.At (q.include?.getD []) names wanted ∧
      (entry.isRequested = true → wanted.isRequested = true) := by
  cases htree : resolved.include? with
  | none =>
    rw [htree] at at_
    nomatch at_
  | some tree =>
    rw [htree] at at_
    obtain ⟨asked, hasked, known, rfl⟩ := tree_of_resolve h htree
    obtain ⟨cut, owner, place, -, hentry⟩ := place_narrowTree at_ rfl known
    obtain ⟨-, wanted, whole, rfl⟩ := at_truncateTree_iff.mp place
    rw [hasked]
    refine ⟨wanted, whole, fun requested => ?_⟩
    rw [← isRequested_truncate wanted (limits.maxIncludeDepth + 1 - names.length)]
    exact (narrowEntry_parts hentry requested).1

theorem depth_of_resolve
    (h : (resolve (m := Id) ⟨r, t.storage r, limits⟩ entity c q).run = .ok (e, resolved)) :
    IncludeTree.depth (resolved.include?.getD []) ≤ limits.maxIncludeDepth := by
  obtain ⟨-, -, narrowed⟩ := resolve_eq_ok_iff.mp h
  obtain ⟨-, -, rfl⟩ := narrow_eq_ok_iff.mp narrowed
  cases htree : (c.narrowed r e (limits.bound q)).include? with
  | none => exact Nat.zero_le _
  | some tree => exact depth_effective htree

/-- The window that is resolved: the one that was asked for, or the default one, within the limit. -/
theorem window_of_resolve
    (h : (resolve (m := Id) ⟨r, t.storage r, limits⟩ entity c q).run = .ok (e, resolved)) :
    resolved.skip = some (q.skip.getD 0) ∧
      resolved.take = some (min (q.take.getD limits.defaultTake) limits.maxTake) := by
  obtain ⟨-, -, narrowed⟩ := resolve_eq_ok_iff.mp h
  obtain ⟨-, -, rfl⟩ := narrow_eq_ok_iff.mp narrowed
  refine ⟨rfl, congrArg some ?_⟩
  change (q.take.map (min limits.maxTake)).getD _ = _
  cases q.take with
  | none => rfl
  | some take => exact Nat.min_comm _ _

/-- The filter that is resolved depends on the filter that was asked for, and on nothing else. -/
theorem filter_of_resolve
    (h : (resolve (m := Id) ⟨r, t.storage r, limits⟩ entity c q).run = .ok (e, resolved)) :
    r.listable? entity = some e ∧
      resolved.filter = (c.rule e.name).overlay.apply (c.strip r e q.filter) := by
  obtain ⟨hentity, -, narrowed⟩ := resolve_eq_ok_iff.mp h
  obtain ⟨-, -, rfl⟩ := narrow_eq_ok_iff.mp narrowed
  exact ⟨hentity, rfl⟩

/-- **A list that is run is within its bounds.** The query that is run has the window that was asked
for, or the default one, within the limit; its includes are no deeper than the limit, and name no
relation that the request does not name there. Then the list is answered: with as many rows as the
window has at most, and with a count that is the same for every query with this filter. The storage
fetches the page and then, for some of the places that the query wants, one set of records each. -/
theorem list_within_bounds (r : Registry) (t : Tables) (limits : Limits) (entity : String)
    (c : Caller) (q : Descriptor) (e : Entity) (resolved : Descriptor)
    (returned : (resolve (m := Id) ⟨r, t.storage r, limits⟩ entity c q).run = .ok (e, resolved)) :
    let s : Storage Id := t.storage r
    let take := min (q.take.getD limits.defaultTake) limits.maxTake
    let tree := resolved.include?.getD []
    resolved.skip = some (q.skip.getD 0) ∧ resolved.take = some take ∧
      tree.depth ≤ limits.maxIncludeDepth ∧
      (∀ names entry, tree.At names entry → ∃ wanted, (q.include?.getD []).At names wanted ∧
        (entry.isRequested = true → wanted.isRequested = true)) ∧
      (∀ names, names ∈ tree.requestedPlaces ↔
        ∃ entry, tree.At names entry ∧ entry.isRequested = true) ∧
      ∃ page fetches, (list ⟨r, s, limits⟩ entity c q).run = .ok page ∧ page.query = resolved ∧
        page.data.length ≤ take ∧
        (∀ other answer, other.filter = q.filter →
          (list ⟨r, s, limits⟩ entity c other).run = .ok answer → answer.count = page.count) ∧
        Records (list ⟨r, s.recorded, limits⟩ entity c q) (list ⟨r, s, limits⟩ entity c q)
          ((e, resolved) :: fetches) ∧
        Includes.Served r e tree tree.requestedPlaces fetches ∧
        fetches.length ≤ tree.requestedPlaces.length := by
  intro s take tree
  obtain ⟨hskip, htake⟩ := window_of_resolve returned
  obtain ⟨fetches, served, records⟩ := list_recorded s returned
  -- the page is answered, since what it includes leads to entities
  obtain ⟨load, loaded, -⟩ := Includes.loadNested_map limits.maxIncludeDepth t 0 resolved.include?
    (known_of_resolve returned) (t.fetch r e resolved).rows
  refine ⟨hskip, htake, depth_of_resolve returned, fun names entry => asked_of_resolve returned,
    fun names => IncludeTree.mem_requestedPlaces_iff,
    _, fetches, list_eq_ok_iff.mpr ⟨e, resolved, _, returned, congrArg ExceptT.run loaded, rfl⟩, rfl,
    ?_, fun other answer same answered => ?_, records, served, served.length_le⟩
  · rw [List.length_map, List.length_map, Tables.fetch, htake]
    exact List.length_take_le _ _
  · obtain ⟨e', resolved', _, returned', -, rfl⟩ := list_eq_ok_iff.mp answered
    obtain ⟨hentity, hfilter⟩ := filter_of_resolve returned
    obtain ⟨hentity', hfilter'⟩ := filter_of_resolve returned'
    obtain rfl := Option.some.inj (hentity'.symm.trans hentity)
    rw [same, ← hfilter] at hfilter'
    exact congrArg (t.count r e') hfilter'

/-- A recruiter asks for more jobs than allowed, with their applications, whose candidates are one
level too deep, and without their owner. -/
theorem list_within_bounds_jobs :
    let c : Caller := ⟨⟨0xb1⟩, .recruiter⟩
    let job (id : String) : Json := .obj [("id", .str id), ("status", .str "OPEN")]
    let t : Tables := ⟨[("jobs", [job "b", job "c", job "a"])]⟩
    let limits : Limits := { maxTake := 2, maxIncludeDepth := 0 }
    let s : Service (StateM FetchRecord) :=
      ⟨.recruiting, (t.storage .recruiting).recorded, limits⟩
    let q : Descriptor :=
      { take := some 50
        include? := some [("owner", .flag false),
          ("applications", .nested (some [("candidate", .flag true)]) none none)] }
    ∃ page resolved fetches,
      (s.list "jobs" c q).run.run [] = (.ok page, (Registry.jobs, resolved) :: fetches) ∧
        page.data.length ≤ 2 ∧ fetches.length ≤ 1 := by
  intro c job t limits s q
  have resolves : ((resolve (m := Id) ⟨.recruiting, t.storage .recruiting, limits⟩ "jobs" c
      q).run.toOption.map fun found => (found.1,
        (IncludeTree.requestedPlaces (found.2.include?.getD [])).length)) =
      some (Registry.jobs, 1) := by
    decide +kernel
  obtain ⟨⟨e, resolved⟩, returned, same⟩ := Option.map_eq_some_iff.mp resolves
  obtain ⟨rfl, places⟩ := Prod.mk.inj same
  obtain ⟨-, -, -, -, -, page, fetches, answered, -, few, -, records, -, within⟩ :=
    list_within_bounds .recruiting t limits "jobs" c q _ resolved (toOption_eq_some.mp returned)
  refine ⟨page, resolved, fetches, ?_, few, places ▸ within⟩
  rw [records [], answered]
  rfl

end Service

end Roster
