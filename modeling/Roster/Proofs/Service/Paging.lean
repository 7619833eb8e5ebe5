import Mathlib.Data.List.Forall2
import Roster.Proofs.Client.Paging
import Roster.Proofs.Service.Answer
import Roster.Proofs.Service.Records

/-!
# Paging through a service

A service answers the windows of one query from one list of rows: the rows that its filter accepts, in
its order. `list_window` says what the answer to a window is, as long as the window is no larger than
the limit. A larger one is made smaller by the service, and a client who counts in its own pages then
misses rows (`pages_of_list_beyond_limit`).
-/

namespace Roster

open Caller Includes

/-! ## Rows as they are shown -/

/-- The same fields apart from some names. -/
def Json.AgreesOutside (names : List String) (a b : Json) : Prop :=
  ∀ name, name ∉ names → a.get? name = b.get? name

/-- A selection beside an include tree keeps the field. -/
def keeps (select : Option Select) (inc : Option IncludeTree) (name : String) : Bool :=
  match select with
  | none => true
  | some select =>
    ((inc.bind fun tree => tree.get? name).map IncludeEntry.isRequested).getD false ||
      (select.get? name).getD !select.any (·.2)

theorem get?_project (row : Json) (select : Option Select) (inc : Option IncludeTree)
    (name : String) :
    (project row select inc).get? name = if keeps select inc name then row.get? name else none := by
  cases select with
  | none => cases row <;> rfl
  | some select =>
    cases row with
    | obj fields => exact Keyed.get?_filter fields (keeps (some select) inc) name
    | _ => simp [project, Json.get?, Json.fields]

/-- What is shown of a field depends on that field alone. -/
theorem get?_face_congr {c : Caller} {r : Registry} {e : Entity} {q : Descriptor} {a b : Json}
    {name : String} (h : a.get? name = b.get? name) :
    (c.face r e q a).get? name = (c.face r e q b).get? name := by
  rw [face, get?_redact, get?_project, face, get?_redact, get?_project, h]

/-! ## Narrowed trees -/

/-- A narrowed tree leads to entities if the tree that was asked for does. -/
theorem Caller.known_narrowTree {c : Caller} {r : Registry} {e : Entity} {tree : IncludeTree}
    (known : tree.Known r e) : IncludeTree.Known r e (c.narrowTree r e tree) := by
  intro names entry at_
  obtain ⟨_, owner, -, follow, -⟩ := place_narrowTree at_ rfl known
  exact ⟨owner, follow⟩

/-! ## Windows -/

theorem Limits.bound_window (limits : Limits) (q : Descriptor) {skip take : Nat}
    (within : take ≤ limits.maxTake) :
    limits.bound (q.window skip take) = (limits.bound q).window skip take := by
  simp [bound, Descriptor.clamp, Descriptor.window, Nat.min_eq_right within]

namespace Tables

variable {t : Tables} {r : Registry} {e : Entity}

/-- The rows that a query selects, in its order, the window left aside. -/
def selection (t : Tables) (r : Registry) (e : Entity) (q : Descriptor) : List Json :=
  sortRows (q.orderBy.getD []) (t.matching r e q.filter)

/-- The rows of a page get all their records: nothing is included, or records are found by texts and no
fetch of them reaches its limit. -/
def LoadsWhole (t : Tables) (r : Registry) (maxDepth : Nat) (e : Entity)
    (inc : Option IncludeTree) (rows : List Json) : Prop :=
  inc = none ∨ (t.TextKeyed r ∧ r.Spelled ∧ t.fitsNested r maxDepth 0 e rows inc)

theorem fetch_window (q : Descriptor) (skip take : Nat) :
    t.fetch r e (q.window skip take) =
      ⟨((t.selection r e q).drop skip).take take, (t.selection r e q).length⟩ := by
  rw [selection, length_sortRows]
  rfl

end Tables

namespace Service

variable {t : Tables} {r : Registry} {limits : Limits} {entity : String} {c : Caller}
  {q resolved : Descriptor} {e : Entity}

/-- The rows of a query without a window, each with all its records, as the caller sees them. -/
def fullResult (s : Service Id) (t : Tables) (c : Caller) (e : Entity) (resolved : Descriptor) :
    List Json :=
  (t.selection s.registry e resolved).map fun row => c.face s.registry e resolved
    (t.completeNested s.registry s.limits.maxIncludeDepth 0 e row resolved.include?)

/-- Another window is resolved to the same query with that window. -/
theorem resolve_window {skip take : Nat} (within : take ≤ limits.maxTake)
    (h : (resolve (m := Id) ⟨r, t.storage r, limits⟩ entity c q).run = .ok (e, resolved)) :
    (resolve (m := Id) ⟨r, t.storage r, limits⟩ entity c (q.window skip take)).run =
      .ok (e, resolved.window skip take) := by
  rw [resolve_eq_ok_iff] at h ⊢
  obtain ⟨hentity, valid, narrowed⟩ := h
  obtain ⟨visible, checked, rfl⟩ := narrow_eq_ok_iff.mp narrowed
  rw [limits.bound_window q within]
  exact ⟨hentity, valid, narrow_eq_ok_iff.mpr ⟨visible, checked, rfl⟩⟩

/-- The include tree of a resolved query is the one that was asked for, cut and narrowed, and what was
asked for leads to entities. -/
theorem tree_of_resolve {tree : IncludeTree}
    (h : (resolve (m := Id) ⟨r, t.storage r, limits⟩ entity c q).run = .ok (e, resolved))
    (htree : resolved.include? = some tree) :
    ∃ asked, q.include? = some asked ∧
      IncludeTree.Known r e (IncludeEntry.truncateTree limits.maxIncludeDepth asked) ∧
      c.narrowTree r e (IncludeEntry.truncateTree limits.maxIncludeDepth asked) = tree := by
  obtain ⟨-, valid, narrowed⟩ := resolve_eq_ok_iff.mp h
  obtain ⟨-, -, rfl⟩ := narrow_eq_ok_iff.mp narrowed
  rw [Registry.problems, List.append_eq_nil_iff] at valid
  rw [show (c.narrowed r e (limits.bound q)).include? =
    c.narrowInclude r e (q.include?.map (IncludeTree.sanitize · limits.maxIncludeDepth)) from rfl]
    at htree
  cases hinc : q.include? with
  | none =>
    rw [hinc] at htree
    cases htree
  | some asked =>
    rw [hinc] at htree valid
    exact ⟨asked, rfl, IncludeEntry.known_of_valid
      (IncludeEntry.problems_truncateTree e "include" limits.maxIncludeDepth asked valid.2),
      Option.some.inj htree⟩

/-- What a resolved query includes leads to entities. -/
theorem known_of_resolve
    (h : (resolve (m := Id) ⟨r, t.storage r, limits⟩ entity c q).run = .ok (e, resolved)) :
    ∀ inner, resolved.include? = some inner → inner.Known r e := by
  intro inner hinner
  obtain ⟨asked, -, known, rfl⟩ := tree_of_resolve h hinner
  exact known_narrowTree known

/-- **What a window is answered with**: its rows of the selection, shown one by one. -/
theorem list_window (skip : Nat) {take : Nat} (within : take ≤ limits.maxTake)
    (h : (resolve (m := Id) ⟨r, t.storage r, limits⟩ entity c q).run = .ok (e, resolved)) :
    let rows := ((t.selection r e resolved).drop skip).take take
    ∃ load : Json → Json,
      (list (m := Id) ⟨r, t.storage r, limits⟩ entity c (q.window skip take)).run =
        .ok ⟨rows.map fun row => c.face r e resolved (load row), (t.selection r e resolved).length,
          resolved.window skip take⟩ ∧
      (∀ row other, other ∉ (resolved.include?.map IncludeTree.requested).getD [] →
        (load row).get? other = row.get? other) ∧
      (t.LoadsWhole r limits.maxIncludeDepth e resolved.include? rows →
        rows.map load = rows.map fun row =>
          t.completeNested r limits.maxIncludeDepth 0 e row resolved.include?) := by
  intro rows
  have known := known_of_resolve h
  have registered : r.Registered e :=
    ⟨entity, (Option.filter_eq_some_iff.mp (resolve_eq_ok_iff.mp h).1).1⟩
  obtain ⟨load, loaded, kept⟩ :=
    loadNested_map limits.maxIncludeDepth t 0 resolved.include? known rows
  refine ⟨load, ?_, kept, ?_⟩
  · rw [list_eq_ok_iff]
    refine ⟨e, resolved.window skip take, rows.map load, resolve_window within h, ?_, ?_⟩
    · rw [Tables.fetch_window]
      exact congrArg ExceptT.run loaded
    · rw [Tables.fetch_window, List.map_map]
      rfl
  · rintro (nothing | ⟨keyed, spelled, fits⟩)
    · rw [nothing] at loaded ⊢
      have same : rows = rows.map load := Except.ok.inj (congrArg ExceptT.run loaded)
      exact same.symm.trans (List.map_id' rows).symm
    · have complete := loadNested_complete limits.maxIncludeDepth keyed spelled 0 registered
        resolved.include? known (fun _ _ => rfl) fits
      exact Except.ok.inj (congrArg ExceptT.run (loaded.symm.trans complete))

/-! ## All pages -/

/-- A service as a client sees it: a page is a batch of its rows, and a refusal becomes a fault. -/
def transport (s : Service Id) (refuse : ListFault → ClientFault) (entity : String) (c : Caller)
    (q : Descriptor) : Except ClientFault (Batch Json) :=
  match (s.list entity c q).run with
  | .ok page => page.batch .ok
  | .error fault => .error (refuse fault)

theorem batch_ok (page : Page) : page.batch .ok = .ok ⟨page.data, page.count⟩ := by
  have read : page.data.mapM (m := Except ShapeError) .ok = .ok page.data := by
    induction page.data with
    | nil => rfl
    | cons row rest ih =>
      rw [List.mapM_cons, ih]
      rfl
  rw [Page.batch, read]

/-- **A client who goes through all pages sees every row once, in order**, if a page is no larger than
the service allows. -/
theorem pages_of_list {size : Nat} (sized : 0 < size) (within : size ≤ limits.maxTake)
    (refuse : ListFault → ClientFault)
    (accepted : ∃ page, (list (m := Id) ⟨r, t.storage r, limits⟩ entity c q).run = .ok page) :
    let s : Service Id := ⟨r, t.storage r, limits⟩
    ∃ e resolved pages, (s.resolve entity c q).run = .ok (e, resolved) ∧
      (∃ p, Pager.of q size = .ok p ∧ p.Tour (s.transport refuse entity c) pages ∧
        ∀ others, p.Tour (s.transport refuse entity c) others → others = pages) ∧
      (∃ asked ticket loaded count last,
        ({ growth := .append } : Feed Json).configure ⟨q, size⟩ = .ok (asked, some ticket) ∧
        asked.complete ticket (s.transport refuse entity c ticket.request) =
          (loaded, .ok (.loaded count)) ∧
        loaded.Drive (s.transport refuse entity c) last ∧ last.state.rows = pages.flatten ∧
        ∀ other, loaded.Drive (s.transport refuse entity c) other → other = last) ∧
      (t.selection r e resolved).Perm (t.matching r e resolved.filter) ∧
      List.Forall₂ (Json.AgreesOutside ((resolved.include?.map IncludeTree.requested).getD []))
        pages.flatten (s.fullResult t c e resolved) ∧
      ((∀ page, t.LoadsWhole r limits.maxIncludeDepth e resolved.include?
          (pageOf (t.selection r e resolved) size page)) →
        pages.flatten = s.fullResult t c e resolved) := by
  intro s
  obtain ⟨page, accepted⟩ := accepted
  obtain ⟨e, resolved, -, hresolve, -, -⟩ := list_eq_ok_iff.mp accepted
  choose load answered kept whole using fun page : Nat =>
    list_window (page * size) within hresolve
  let rows := t.selection r e resolved
  let shown (page : Nat) (row : Json) : Json := c.face r e resolved (load page row)
  let complete (row : Json) : Json := c.face r e resolved
    (t.completeNested r limits.maxIncludeDepth 0 e row resolved.include?)
  let pages (page : Nat) : List Json := (pageOf rows size page).map (shown page)
  have answers : AnswersPages (s.transport refuse entity c) q size rows.length pages := by
    intro page
    have answer := answered page
    rw [transport, answer]
    exact batch_ok _
  -- the full result, cut into pages
  have full : s.fullResult t c e resolved = ((List.range (tourLength rows.length size)).map
      fun page => (pageOf rows size page).map complete).flatten := by
    have cut := congrArg (List.map complete) (flatten_pageOf_tour rows sized)
    rw [List.map_flatten, List.map_map] at cut
    exact cut.symm
  obtain ⟨p, hp, tour⟩ := Pager.tour_pages sized answers
  obtain ⟨asked, ticket, loaded, last, configured, first, drive, all⟩ :=
    Feed.drive_pages (c := ⟨q, size⟩) .append sized answers
  refine ⟨e, resolved, _, hresolve, ⟨p, hp, tour, fun _ => tour.unique⟩,
    ⟨asked, ticket, loaded, _, last, configured, first, drive, all, fun _ => drive.unique⟩,
    sortRows_perm _ _, ?_, ?_⟩
  · rw [full]
    refine List.rel_flatten ?_
    rw [List.forall₂_map_left_iff, List.forall₂_map_right_iff, List.forall₂_same]
    intro page _
    rw [List.forall₂_map_left_iff, List.forall₂_map_right_iff, List.forall₂_same]
    intro row _ name outside
    refine get?_face_congr ?_
    rw [kept page row name outside]
    exact (Tables.get?_completeNested outside row).symm
  · intro loads
    rw [full]
    refine congrArg List.flatten (List.map_congr_left fun page _ => ?_)
    have same := congrArg (List.map (c.face r e resolved)) (whole page (loads page))
    rwa [List.map_map, List.map_map] at same

/-- Three jobs in pages of two, where the service allows two rows. -/
theorem pages_of_list_jobs :
    let c : Caller := ⟨⟨0xad⟩, .admin⟩
    let row (id : String) : Json := .obj [("id", .str id)]
    let t : Tables := ⟨[("jobs", [row "b", row "c", row "a"])]⟩
    let s : Service Id := ⟨.recruiting, t.storage .recruiting, { maxTake := 2 }⟩
    ∃ p pages, Pager.of {} 2 = .ok p ∧ p.Tour (s.transport (fun _ => .pageSize) "jobs" c) pages ∧
      pages.flatten = [row "a", row "b", row "c"] := by
  intro c row t s
  have accepted : (s.list "jobs" c {}).run =
      .ok ⟨[row "a", row "b"], 3, { skip := some 0, take := some 2 }⟩ := rfl
  obtain ⟨e, resolved, pages, hresolve, ⟨p, hp, tour, -⟩, -, -, -, whole⟩ :=
    pages_of_list (t := t) (show 0 < 2 by decide) (by decide) (fun _ => .pageSize) ⟨_, accepted⟩
  have same : (s.resolve "jobs" c {}).run =
      .ok (Registry.jobs, { skip := some 0, take := some 2 }) := rfl
  obtain ⟨rfl, rfl⟩ := Prod.mk.inj (Except.ok.inj (same.symm.trans hresolve))
  exact ⟨p, pages, hp, tour, whole fun _ => .inl rfl⟩

/-- Two jobs in pages of two, where the service allows one row: there is one page, it has one row, and
the other row is never seen. -/
theorem pages_of_list_beyond_limit :
    let c : Caller := ⟨⟨0xad⟩, .admin⟩
    let row (id : String) : Json := .obj [("id", .str id)]
    let t : Tables := ⟨[("jobs", [row "a", row "b"])]⟩
    let s : Service Id := ⟨.recruiting, t.storage .recruiting, { maxTake := 1 }⟩
    let resolved : Descriptor := { skip := some 0, take := some 1 }
    (s.resolve "jobs" c {}).run = .ok (Registry.jobs, resolved) ∧
      s.fullResult t c Registry.jobs resolved = [row "a", row "b"] ∧
      ∃ p, Pager.of {} 2 = .ok p ∧
        ∀ refuse pages, p.Tour (s.transport refuse "jobs" c) pages → pages.flatten = [row "a"] := by
  intro c row t s resolved
  refine ⟨rfl, rfl, { descriptor := {}, pageSize := 2 }, rfl, fun refuse pages tour => ?_⟩
  have answer : s.transport refuse "jobs" c { skip := some 0, take := some 2 } =
      .ok ⟨[row "a"], 2⟩ := rfl
  cases tour with
  | last received _ =>
    cases (congrArg _ answer).symm.trans received
    rfl
  | next received moves _ =>
    cases (congrArg _ answer).symm.trans received
    simp [Pager.next?, Pager.hasNext, Pager.currentPage, Pager.totalPages, pageCount] at moves

end Service

end Roster
