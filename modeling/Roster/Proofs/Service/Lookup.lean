import Mathlib.Data.List.Nodup
import Roster.Proofs.Scope.Recruiting
import Roster.Proofs.Service.Paging
import Roster.Proofs.Service.Echo
import Roster.Proofs.Store.Columns

/-!
# Looking up a single record

A record is looked up by its `id` through the rules of its entity, and so is a list with an empty
query. Where the ids of a table are texts and distinct, the two agree: a record is found when it
stands in the list, and it is the same record (`Service.get_list`).
-/

namespace Roster

open Caller

/-- The rows of each entity are objects with texts as their ids, and no id stands twice. -/
structure Tables.DistinctIds (t : Tables) : Prop where
  identified : ∀ entity, ∀ row ∈ t.of entity, row.Identified
  distinct : ∀ entity, ((t.of entity).map (·.field "id")).Nodup

theorem Tables.DistinctIds.of_rows {t : Tables}
    (rows : ∀ p ∈ t.rows, (∀ row ∈ p.2, row.Identified) ∧ (p.2.map (·.field "id")).Nodup) :
    t.DistinctIds := by
  have each (entity : String) : (∀ row ∈ t.of entity, row.Identified) ∧
      ((t.of entity).map (·.field "id")).Nodup := by
    rw [Tables.of]
    cases h : t.rows.get? entity with
    | none => exact ⟨fun _ member => (List.not_mem_nil member).elim, List.nodup_nil⟩
    | some own => exact rows _ (Keyed.mem_of_get? h)
  exact ⟨fun entity => (each entity).1, fun entity => (each entity).2⟩

/-- The row has the identifier as its `id`. -/
def Json.HasId (row : Json) (id : Uuid) : Prop := row.get? "id" = some (.str id.text)

theorem Json.hasId_iff {row : Json} {id : Uuid} :
    row.HasId id ↔ row.field "id" = .str id.text := by
  rw [HasId, field]
  cases row.get? "id" <;> simp

namespace Tables

variable {t : Tables} {r : Registry} {e : Entity} {filter : Option Predicate} {row : Json}
  {id : Uuid}

/-- The condition that a look-up adds to the filter. -/
abbrev idIs (id : Uuid) : Predicate := .equals ⟨["id"]⟩ (.text id.text)

theorem accepts_idIs (identified : row.Identified) :
    (idIs id).accepts row = true ↔ row.HasId id := by
  obtain ⟨own, h⟩ := identified
  rw [Predicate.accepts_equals_text, Path.valuesIn_column (Json.Identified.isObject ⟨own, h⟩), h,
    Json.hasId_iff, h]
  simp [Json.flatten, eq_comm]

theorem mem_of_mem_matching (h : row ∈ t.matching r e filter) : row ∈ t.of e.name := by
  rw [matching_eq] at h
  exact (List.mem_filter.mp h).1

/-- Rows with one id are one row. -/
theorem DistinctIds.unique (ids : t.DistinctIds) {entity : String} {other : Json}
    (hrow : row ∈ t.of entity) (hother : other ∈ t.of entity) (first : row.HasId id)
    (second : other.HasId id) : row = other := by
  have same : row.field "id" = other.field "id" :=
    (Json.hasId_iff.mp first).trans (Json.hasId_iff.mp second).symm
  exact List.inj_on_of_nodup_map (ids.distinct entity) hrow hother same

/-- The query of a look-up under a filter. -/
def lookup (filter : Option Predicate) (id : Uuid) : Descriptor where
  filter := Predicate.mergeAnd [some (.equals (Path.ofText "id") (.text id.text)), filter]
  skip := some 0
  take := some 1

/-- **What a look-up fetches**: the row with the id, where the filter matches it. -/
theorem mem_fetch_lookup (ids : t.DistinctIds) (resolves : Resolves r e (idIs id))
    (resolvesFilter : ∀ p ∈ filter, Resolves r e p) :
    row ∈ (t.fetch r e (lookup filter id)).rows ↔ row ∈ t.matching r e filter ∧ row.HasId id := by
  have path : Path.ofText "id" = ⟨["id"]⟩ := by decide
  have columns : ∀ path ∈ (idIs id).paths, path.relations = [] := by
    intro path member
    rw [List.mem_singleton.mp member]
    rfl
  have matched : t.matching r e (lookup filter id).filter =
      (t.matching r e filter).filter (idIs id).accepts := by
    rw [lookup, path]
    exact matching_mergeAnd_columns columns resolves resolvesFilter
  have rows : (t.fetch r e (lookup filter id)).rows =
      (sortRows [] ((t.matching r e filter).filter (idIs id).accepts)).take 1 := by
    rw [fetch, matched]
    rfl
  -- before the window is taken
  have found (other : Json) :
      other ∈ sortRows [] ((t.matching r e filter).filter (idIs id).accepts) ↔
        other ∈ t.matching r e filter ∧ other.HasId id := by
    rw [(sortRows_perm _ _).mem_iff, List.mem_filter]
    exact and_congr_right fun member =>
      accepts_idIs (ids.identified e.name other (mem_of_mem_matching member))
  rw [rows, ← found row]
  constructor
  · exact List.mem_of_mem_take
  · intro member
    cases sorted : sortRows [] ((t.matching r e filter).filter (idIs id).accepts) with
    | nil =>
      rw [sorted] at member
      cases member
    | cons first rest =>
      obtain ⟨hrow, hid⟩ := (found row).mp member
      obtain ⟨hfirst, hidFirst⟩ := (found first).mp (sorted ▸ List.mem_cons_self)
      have same : row = first := ids.unique (mem_of_mem_matching hrow) (mem_of_mem_matching hfirst)
        hid hidFirst
      rw [same]
      exact List.mem_cons_self

end Tables

namespace Service

variable {t : Tables} {limits : Limits} {entity : String} {c : Caller} {resolved : Descriptor}
  {e : Entity} {id : Uuid} {row : Json}

/-! ## The empty query -/

/-- The empty query is resolved to a filter and a window. -/
theorem resolved_empty {r : Registry}
    (h : (resolve (m := Id) ⟨r, t.storage r, limits⟩ entity c {}).run = .ok (e, resolved)) :
    resolved.include? = none ∧ resolved.select = none ∧ resolved.filter = c.narrowFilter r e none := by
  obtain ⟨-, -, narrowed⟩ := resolve_eq_ok_iff.mp h
  obtain ⟨-, -, rfl⟩ := narrow_eq_ok_iff.mp narrowed
  exact ⟨rfl, rfl, rfl⟩

/-- Where a window of the list is answered, the empty query is resolved. -/
theorem resolve_empty_of_window {r : Registry} {skip take : Option Nat} {page : Page}
    (answered : (list (m := Id) ⟨r, t.storage r, limits⟩ entity c
      { skip := skip, take := take }).run = .ok page) :
    ∃ e resolved, (resolve (m := Id) ⟨r, t.storage r, limits⟩ entity c {}).run =
      .ok (e, resolved) := by
  obtain ⟨e, resolved, -, hresolve, -, -⟩ := list_eq_ok_iff.mp answered
  obtain ⟨hentity, -, narrowed⟩ := resolve_eq_ok_iff.mp hresolve
  obtain ⟨visible, checked, -⟩ := narrow_eq_ok_iff.mp narrowed
  exact ⟨e, _, resolve_eq_ok_iff.mpr ⟨hentity, rfl, narrow_eq_ok_iff.mpr ⟨visible, checked, rfl⟩⟩⟩

/-- The list of the empty query fails only where it cannot be resolved. -/
theorem list_empty {r : Registry}
    (h : (resolve (m := Id) ⟨r, t.storage r, limits⟩ entity c {}).run = .ok (e, resolved)) :
    ∃ page, (list (m := Id) ⟨r, t.storage r, limits⟩ entity c {}).run = .ok page := by
  have loaded : (Includes.loadNested (m := Id) (t.storage r) r limits.maxIncludeDepth 0 e
      (t.fetch r e resolved).rows resolved.include?).run = .ok (t.fetch r e resolved).rows := by
    rw [(resolved_empty h).1]
    rfl
  exact ⟨_, list_eq_ok_iff.mpr ⟨e, resolved, _, h, loaded, rfl⟩⟩

/-- A row in pages of one row is a row of the selection as the caller sees it. -/
theorem mem_single_page {r : Registry} (takes : 1 ≤ limits.maxTake)
    (h : (resolve (m := Id) ⟨r, t.storage r, limits⟩ entity c {}).run = .ok (e, resolved)) :
    (∃ skip page, (list (m := Id) ⟨r, t.storage r, limits⟩ entity c
        { skip := some skip, take := some 1 }).run = .ok page ∧ row ∈ page.data) ↔
      ∃ stored ∈ t.matching r e resolved.filter, c.redact r e stored = row := by
  obtain ⟨noInclude, noSelect, -⟩ := resolved_empty h
  have shown (stored : Json) : c.face r e resolved stored = c.redact r e stored := by
    rw [face, noSelect]
    rfl
  have answer (skip : Nat) : ∃ page, (list (m := Id) ⟨r, t.storage r, limits⟩ entity c
      { skip := some skip, take := some 1 }).run = .ok page ∧
        page.data = (((t.selection r e resolved).drop skip).take 1).map (c.redact r e) := by
    obtain ⟨load, answered, -, whole⟩ := list_window skip takes h
    refine ⟨_, answered, ?_⟩
    have loaded := congrArg (List.map (c.face r e resolved)) (whole (.inl noInclude))
    rw [List.map_map, List.map_map, noInclude] at loaded
    exact loaded.trans (List.map_congr_left fun stored _ => shown stored)
  have selected (stored : Json) : stored ∈ t.selection r e resolved ↔
      stored ∈ t.matching r e resolved.filter := (sortRows_perm _ _).mem_iff
  constructor
  · rintro ⟨skip, page, answered, member⟩
    obtain ⟨same, hsame, data⟩ := answer skip
    obtain rfl := Except.ok.inj (answered.symm.trans hsame)
    rw [data] at member
    obtain ⟨stored, hstored, rfl⟩ := List.mem_map.mp member
    exact ⟨stored, (selected stored).mp (List.mem_of_mem_drop (List.mem_of_mem_take hstored)), rfl⟩
  · rintro ⟨stored, hstored, rfl⟩
    obtain ⟨before, after, split⟩ := List.append_of_mem ((selected stored).mpr hstored)
    obtain ⟨page, answered, data⟩ := answer before.length
    refine ⟨before.length, page, answered, ?_⟩
    rw [data, split, List.drop_left]
    exact List.mem_cons_self

/-! ## Looking up -/

theorem get_error {r : Registry} {fault : ListFault}
    (h : (resolve (m := Id) ⟨r, t.storage r, limits⟩ entity c {}).run = .error fault) :
    (get (m := Id) ⟨r, t.storage r, limits⟩ entity c id).run = .error fault := by
  rw [get, ExceptT.run_bind, h]
  rfl

/-- A look-up answers the row that it fetches, as the caller sees it. -/
theorem get_eq {r : Registry}
    (h : (resolve (m := Id) ⟨r, t.storage r, limits⟩ entity c {}).run = .ok (e, resolved)) :
    (get (m := Id) ⟨r, t.storage r, limits⟩ entity c id).run =
      match (t.fetch r e (Tables.lookup resolved.filter id)).rows with
      | stored :: _ => .ok (c.redact r e stored)
      | [] => .error .notFound := by
  have fetched : ((t.storage (m := Id) r).fetch e (Tables.lookup resolved.filter id)).adapt
      (fun fault => ListFault.storage fault.message) =
        pure (t.fetch r e (Tables.lookup resolved.filter id)) := rfl
  rw [get, ExceptT.run_bind, h]
  change (((t.storage (m := Id) r).fetch e (Tables.lookup resolved.filter id)).adapt
    (fun fault => ListFault.storage fault.message) >>= fun found =>
      match found.rows with
      | stored :: _ => pure (c.redact r e stored)
      | [] => throw ListFault.notFound : ExceptT ListFault Id Json).run = _
  rw [fetched, pure_bind]
  cases (t.fetch r e (Tables.lookup resolved.filter id)).rows <;> rfl

/-- The condition of a look-up and the filter of an empty query lead to fields. -/
theorem resolves_lookup (id : Uuid)
    (h : (resolve (m := Id) ⟨.recruiting, t.storage .recruiting, limits⟩ entity c {}).run =
      .ok (e, resolved)) :
    Tables.Resolves .recruiting e (Tables.idIs id) ∧
      ∀ p ∈ resolved.filter, Tables.Resolves .recruiting e p := by
  have registered : Registry.recruiting.Registered e :=
    ⟨entity, (Option.filter_eq_some_iff.mp (resolve_eq_ok_iff.mp h).1).1⟩
  constructor
  · intro path hpath
    rw [List.mem_singleton.mp hpath]
    exact (sealed_recruiting c).resolves_of_reads registered (identified_recruiting registered)
  · rw [(resolved_empty h).2.2]
    have valid : ∀ p ∈ c.narrowFilter .recruiting e none, p.problems .recruiting e "where" = [] :=
      problems_narrowFilter validConditions_recruiting registered nofun
    exact resolves_of_problems Registry.linked_recruiting registered valid

/-- An id is never redacted. -/
theorem hasId_redact (registered : Registry.recruiting.Registered e) :
    (c.redact .recruiting e row).HasId id ↔ row.HasId id := by
  have shown : c.hides e.name "id" = false :=
    Sealed.hides_of_reads (identified_recruiting registered)
  have column : Registry.recruiting.target? e "id" = none := by
    rcases Registry.eq_of_registered registered with rfl | rfl | rfl | rfl <;> rfl
  rw [Json.HasId, get?_redact, shown, if_neg Bool.false_ne_true, Json.HasId]
  cases row.get? "id" with
  | none => rfl
  | some v => simp [redactField, column]

/-- The rows with an id in pages of one row are those of the selection with the id, as the caller sees
them. -/
theorem mem_single_page_of_id (takes : 1 ≤ limits.maxTake)
    (h : (resolve (m := Id) ⟨.recruiting, t.storage .recruiting, limits⟩ entity c {}).run =
      .ok (e, resolved)) :
    (∃ skip page, (list (m := Id) ⟨.recruiting, t.storage .recruiting, limits⟩ entity c
        { skip := some skip, take := some 1 }).run = .ok page ∧ row ∈ page.data ∧
          row.get? "id" = some (.str id.text)) ↔
      ∃ stored ∈ t.matching .recruiting e resolved.filter, stored.HasId id ∧
        c.redact .recruiting e stored = row := by
  have registered : Registry.recruiting.Registered e :=
    ⟨entity, (Option.filter_eq_some_iff.mp (resolve_eq_ok_iff.mp h).1).1⟩
  constructor
  · rintro ⟨skip, page, answered, member, hid⟩
    obtain ⟨stored, hstored, rfl⟩ := (mem_single_page takes h).mp ⟨skip, page, answered, member⟩
    exact ⟨stored, hstored, (hasId_redact registered).mp hid, rfl⟩
  · rintro ⟨stored, hstored, hid, rfl⟩
    obtain ⟨skip, page, answered, member⟩ := (mem_single_page takes h).mpr ⟨stored, hstored, rfl⟩
    exact ⟨skip, page, answered, member, (hasId_redact registered).mpr hid⟩

/-- **A look-up finds the row with the id** among those that the rules let through, or there is
none. -/
theorem get_cases (ids : t.DistinctIds)
    (h : (resolve (m := Id) ⟨.recruiting, t.storage .recruiting, limits⟩ entity c {}).run =
      .ok (e, resolved)) :
    (∃ stored ∈ t.matching .recruiting e resolved.filter, stored.HasId id ∧
        (get (m := Id) ⟨.recruiting, t.storage .recruiting, limits⟩ entity c id).run =
          .ok (c.redact .recruiting e stored)) ∨
      (∀ stored ∈ t.matching .recruiting e resolved.filter, ¬ stored.HasId id) ∧
        (get (m := Id) ⟨.recruiting, t.storage .recruiting, limits⟩ entity c id).run =
          .error .notFound := by
  obtain ⟨resolves, resolvesFilter⟩ := resolves_lookup id h
  have fetched (stored : Json) : stored ∈ (t.fetch .recruiting e
      (Tables.lookup resolved.filter id)).rows ↔
        stored ∈ t.matching .recruiting e resolved.filter ∧ stored.HasId id :=
    Tables.mem_fetch_lookup ids resolves resolvesFilter
  rw [get_eq h]
  cases hrows : (t.fetch .recruiting e (Tables.lookup resolved.filter id)).rows with
  | nil =>
    rw [hrows] at fetched
    refine .inr ⟨fun stored hstored hid => ?_, rfl⟩
    cases (fetched stored).mpr ⟨hstored, hid⟩
  | cons stored rest =>
    rw [hrows] at fetched
    obtain ⟨hstored, hid⟩ := (fetched stored).mp List.mem_cons_self
    exact .inl ⟨stored, hstored, hid, rfl⟩

/-- **A record is found when it stands in the list, and it is the same record.** For a page of one row
with the id of a record, the look-up of the id answers that row, and it answers no other. Where the
list is refused, the look-up is refused alike; where it is not and has no such row, there is no such
record. -/
theorem get_list (c : Caller) (t : Tables) (limits : Limits) (entity : String) (id : Uuid)
    (takes : 1 ≤ limits.maxTake) (ids : t.DistinctIds) :
    let s : Service Id := ⟨.recruiting, t.storage .recruiting, limits⟩
    let listed (row : Json) : Prop := ∃ skip page,
      (s.list entity c { skip := some skip, take := some 1 }).run = .ok page ∧ row ∈ page.data ∧
        row.get? "id" = some (.str id.text)
    (∀ row, (s.get entity c id).run = .ok row ↔ listed row) ∧
      (∀ fault, (s.list entity c {}).run = .error fault → (s.get entity c id).run = .error fault) ∧
      ((∃ page, (s.list entity c {}).run = .ok page) → (∀ row, ¬ listed row) →
        (s.get entity c id).run = .error .notFound) := by
  intro s listed
  cases h : (s.resolve entity c {}).run with
  | error fault =>
    have refused : (s.get entity c id).run = .error fault := get_error h
    have empty : (s.list entity c {}).run = .error fault := list_error h
    refine ⟨fun row => ⟨?_, ?_⟩, ?_, ?_⟩
    · intro found
      cases refused.symm.trans found
    · rintro ⟨skip, page, answered, -⟩
      obtain ⟨e, resolved, known⟩ := resolve_empty_of_window answered
      cases h.symm.trans known
    · intro other answered
      exact Except.error.inj (empty.symm.trans answered) ▸ refused
    · rintro ⟨page, answered⟩
      cases empty.symm.trans answered
  | ok found =>
    obtain ⟨e, resolved⟩ := found
    have notRefused {fault : ListFault} : (s.list entity c {}).run ≠ .error fault := by
      obtain ⟨page, answered⟩ := list_empty h
      rw [answered]
      nofun
    have listed_iff (row : Json) : listed row ↔
        ∃ stored ∈ t.matching .recruiting e resolved.filter, stored.HasId id ∧
          c.redact .recruiting e stored = row := mem_single_page_of_id takes h
    rcases get_cases ids h with ⟨stored, hstored, hid, answer⟩ | ⟨missing, answer⟩
    · have shown : listed (c.redact .recruiting e stored) :=
        (listed_iff _).mpr ⟨stored, hstored, hid, rfl⟩
      refine ⟨fun row => ⟨?_, ?_⟩, fun _ refused => absurd refused notRefused,
        fun _ none_ => absurd shown (none_ _)⟩
      · intro found
        exact Except.ok.inj (answer.symm.trans found) ▸ shown
      · intro h
        obtain ⟨other, hother, hidOther, rfl⟩ := (listed_iff row).mp h
        obtain rfl : stored = other := ids.unique (Tables.mem_of_mem_matching hstored)
          (Tables.mem_of_mem_matching hother) hid hidOther
        exact answer
    · refine ⟨fun row => ⟨?_, ?_⟩, fun _ refused => absurd refused notRefused, fun _ _ => answer⟩
      · intro found
        cases answer.symm.trans found
      · intro h
        obtain ⟨stored, hstored, hid, -⟩ := (listed_iff row).mp h
        exact absurd hid (missing stored hstored)

/-- A candidate looks up the open one of two jobs. What they get is without its owner, and it stands so
in their list. -/
theorem get_list_job :
    let c : Caller := ⟨⟨0x5eed⟩, .candidate⟩
    let job (id : Uuid) (status : String) : Json :=
      .obj [("id", .str id.text), ("status", .str status), ("ownerId", .str "9")]
    let t : Tables := ⟨[("jobs", [job ⟨2⟩ "CLOSED", job ⟨1⟩ "OPEN"])]⟩
    let s : Service Id := ⟨.recruiting, t.storage .recruiting, {}⟩
    1 ≤ s.limits.maxTake ∧ t.DistinctIds ∧
      ∃ row, (s.get "jobs" c ⟨1⟩).run = .ok row ∧ (row.get? "ownerId").isNone = true ∧
        ∃ skip page, (s.list "jobs" c { skip := some skip, take := some 1 }).run = .ok page ∧
          row ∈ page.data := by
  intro c job t s
  have takes : 1 ≤ s.limits.maxTake := by decide
  have ids : t.DistinctIds := by
    have other : Uuid.text ⟨2⟩ ≠ Uuid.text ⟨1⟩ := by decide +kernel
    refine Tables.DistinctIds.of_rows (t := t) fun p hp => ?_
    obtain rfl : p = ("jobs", [job ⟨2⟩ "CLOSED", job ⟨1⟩ "OPEN"]) := List.mem_singleton.mp hp
    constructor
    · intro row hrow
      rcases List.mem_pair.mp hrow with rfl | rfl
      · exact ⟨Uuid.text ⟨2⟩, rfl⟩
      · exact ⟨Uuid.text ⟨1⟩, rfl⟩
    · refine List.nodup_cons.mpr ⟨fun same => other ?_, List.nodup_singleton _⟩
      exact Json.str.inj (List.mem_singleton.mp same)
  have found : ((s.get "jobs" c ⟨1⟩).run.toOption.map fun row => (row.get? "ownerId").isNone) =
      some true := by
    decide +kernel
  obtain ⟨row, answered, hidden⟩ := Option.map_eq_some_iff.mp found
  have answered := toOption_eq_some.mp answered
  obtain ⟨skip, page, listed, member, -⟩ :=
    ((get_list c t {} "jobs" ⟨1⟩ takes ids).1 row).mp answered
  exact ⟨takes, ids, row, answered, hidden, skip, page, listed, member⟩

end Service

end Roster
