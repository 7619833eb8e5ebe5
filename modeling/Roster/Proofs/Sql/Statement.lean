import Roster.Proofs.Scope.Confinement
import Roster.Proofs.Sql.Agreement
import Roster.Sql.Statement

/-!
# Queries that have statements

Compilation goes along the paths of a filter and looks up the columns of its sort keys. It fails for
a path that leads to no field, for a relation to no entity or along no column, and for a sort key
that is no field, and for nothing else. So a query has both of its statements when its paths resolve
and its sort keys are valid (`Sql.states_of_resolves`), whatever its operands are: which operands a
field admits plays no part in it.
-/

namespace Roster.Sql

/-- The statement that selects the rows of a query can be written, and so can the one that counts
them. -/
def states (r : Registry) (e : Entity) (q : Descriptor) : Bool :=
  (selectText r e q).isOk && (countText r e q.filter).isOk

variable {r : Registry} {e : Entity}

theorem states_iff {q : Descriptor} : states r e q = true ↔
    (∃ select, selectText r e q = .ok select) ∧ ∃ count, countText r e q.filter = .ok count := by
  have isOk_iff (text : Except WhereFault String) : text.isOk = true ↔ ∃ t, text = .ok t := by
    cases text with
    | ok t => exact ⟨fun _ => ⟨t, rfl⟩, fun _ => rfl⟩
    | error fault => exact ⟨nofun, nofun⟩
  rw [states, Bool.and_eq_true, isOk_iff, isOk_iff]

/-! ## Paths -/

/-- **A way along relations to a field has a condition.** -/
theorem exists_ofPath (linked : r.Linked) (test : Column → Condition) (segments : List String) :
    ∀ {e owner : Entity} {field : Field} (row : Alias) (used : Nat), r.Registered e →
      segments ≠ [] → r.follow e segments.dropLast = .ok owner →
        owner.field? (segments.getLastD "") = some field →
          ∃ condition, ofPath r test e row used segments = .ok condition := by
  -- behind a relation the condition is on another row, so the induction is over all of them
  induction segments with
  | nil => exact fun _ _ _ nonempty => absurd rfl nonempty
  | cons hop rest ih =>
    intro e owner field row used registered _ hfollow hfield
    cases rest with
    | nil =>
      obtain rfl : e = owner := Except.ok.inj hfollow
      have hfield : e.field? hop = some field := hfield
      exact ⟨test ⟨row, field.column⟩, by rw [ofPath, columnOf_eq hfield]; rfl⟩
    | cons next others =>
      rw [List.dropLast_cons_of_ne_nil (List.cons_ne_nil _ _)] at hfollow
      obtain ⟨target, htarget, hfollow⟩ := Registry.follow_of_cons hfollow
      obtain ⟨l, f, g, hl, -, ht, hf, hg⟩ := linked.hop registered htarget
      obtain ⟨inner, hinner⟩ := ih (.related (used + 1)) (used + 1) ⟨l.target, ht⟩
        (List.cons_ne_nil _ _) hfollow hfield
      exact ⟨_, ofPath_hop hl ht hf hg hinner⟩

/-- A path that resolves has a condition. -/
theorem exists_ofPath_of_resolve (linked : r.Linked) (registered : r.Registered e) {path : Path}
    (h : ∃ owner field, r.resolve e path = .ok (owner, field)) (test : Column → Condition)
    (row : Alias) (used : Nat) :
    ∃ condition, ofPath r test e row used path.segments = .ok condition := by
  obtain ⟨owner, field, h⟩ := h
  obtain ⟨nonempty, hfollow, hfield⟩ := Registry.follow_of_resolve h
  exact exists_ofPath linked test path.segments row used registered nonempty hfollow hfield

/-! ## Filters -/

mutual

/-- **A predicate has a condition when its paths resolve.** -/
theorem exists_ofPredicate (linked : r.Linked) (registered : r.Registered e) (row : Alias) :
    (p : Predicate) → (used : Nat) →
      (∀ path ∈ p.paths, ∃ owner field, r.resolve e path = .ok (owner, field)) →
        ∃ condition, ofPredicate r e row used p = .ok condition
  | .equals path value, used, resolves => by
    rw [ofPredicate]
    exact exists_ofPath_of_resolve linked registered (resolves path (List.mem_singleton_self _)) _
      row used
  | .operator path filter, used, resolves => by
    rw [ofPredicate]
    exact exists_ofPath_of_resolve linked registered (resolves path (List.mem_singleton_self _)) _
      row used
  | .and children, used, resolves => by
    obtain ⟨conditions, h⟩ := exists_ofPredicates linked registered row children used resolves
    exact ⟨.all conditions, by rw [ofPredicate, h]; rfl⟩
  | .or children, used, resolves => by
    obtain ⟨conditions, h⟩ := exists_ofPredicates linked registered row children used resolves
    exact ⟨.any conditions, by rw [ofPredicate, h]; rfl⟩
  | .not inner, used, resolves => by
    obtain ⟨condition, h⟩ := exists_ofPredicate linked registered row inner used resolves
    exact ⟨.not condition, by rw [ofPredicate, h]; rfl⟩

theorem exists_ofPredicates (linked : r.Linked) (registered : r.Registered e) (row : Alias) :
    (ps : List Predicate) → (used : Nat) →
      (∀ path ∈ Predicate.pathsOfAll ps, ∃ owner field, r.resolve e path = .ok (owner, field)) →
        ∃ conditions, ofPredicates r e row used ps = .ok conditions
  | [], _, _ => ⟨[], rfl⟩
  | p :: rest, used, resolves => by
    obtain ⟨first, hfirst⟩ := exists_ofPredicate linked registered row p used
      fun path hp => resolves path (List.mem_append_left _ hp)
    obtain ⟨others, hothers⟩ := exists_ofPredicates linked registered row rest (used + hops p)
      fun path hp => resolves path (List.mem_append_right _ hp)
    exact ⟨first :: others, by rw [ofPredicates, hfirst, hothers]; rfl⟩

end

theorem exists_whereOf (linked : r.Linked) (registered : r.Registered e)
    {filter : Option Predicate}
    (resolves : ∀ p ∈ filter, ∀ path ∈ p.paths,
      ∃ owner field, r.resolve e path = .ok (owner, field)) :
    ∃ condition, whereOf r e filter = .ok condition := by
  cases filter with
  | none => exact ⟨none, rfl⟩
  | some p =>
    rw [whereOf]
    split
    · exact ⟨none, rfl⟩
    · obtain ⟨condition, h⟩ := exists_ofPredicate linked registered .main p 0 (resolves p rfl)
      exact ⟨some condition, by rw [h]; rfl⟩

/-! ## Order -/

/-- A valid sort key is a field. -/
theorem exists_sortField {key : SortKey} (valid : key.problems e = []) :
    ∃ field, sortField e key = .ok field := by
  unfold SortKey.problems at valid
  split at valid
  · cases valid
  · split at valid
    · cases valid
    · next found =>
      rw [Option.isNone_iff_eq_none, ← ne_eq, Option.ne_none_iff_exists'] at found
      obtain ⟨field, hfield⟩ := found
      exact ⟨field, by rw [sortField, hfield]⟩

theorem exists_orderOf {keys : List SortKey} (valid : ∀ key ∈ keys, key.problems e = []) :
    ∃ order, orderOf e keys = .ok order := by
  have fields : ∃ sorted, (keys.mapM fun key => do
      return (← sortField e key, key.direction) :
        Except WhereFault (List (Field × Direction))) = .ok sorted := by
    induction keys with
    | nil => exact ⟨[], rfl⟩
    | cons key rest ih =>
      obtain ⟨field, hfield⟩ := exists_sortField (valid key List.mem_cons_self)
      obtain ⟨sorted, hsorted⟩ := ih fun other h => valid other (List.mem_cons_of_mem _ h)
      exact ⟨(field, key.direction) :: sorted, by
        rw [List.mapM_cons, hfield, hsorted]
        rfl⟩
  obtain ⟨sorted, hsorted⟩ := fields
  exact ⟨_, by rw [orderOf, hsorted]; rfl⟩

/-! ## Statements -/

/-- **A query has both statements** when its paths resolve and its sort keys are valid. -/
theorem states_of_resolves (linked : r.Linked) (registered : r.Registered e) {q : Descriptor}
    (resolves : ∀ p ∈ q.filter, ∀ path ∈ p.paths,
      ∃ owner field, r.resolve e path = .ok (owner, field))
    (valid : ∀ key ∈ q.orderBy.getD [], key.problems e = []) :
    states r e q = true := by
  obtain ⟨condition, hwhere⟩ := exists_whereOf linked registered resolves
  obtain ⟨order, horder⟩ := exists_orderOf valid
  rw [states_iff]
  constructor
  · exact ⟨_, by rw [selectText, selectOf, hwhere, horder]; rfl⟩
  · exact ⟨_, by rw [countText, hwhere]; rfl⟩

/-- A query with problems nowhere has both statements. -/
theorem states_of_valid (linked : r.Linked) (registered : r.Registered e) {q : Descriptor}
    (valid : r.accepts e q = true) : states r e q = true := by
  obtain ⟨validFilter, validKeys, -⟩ := Caller.valid_query valid
  refine states_of_resolves linked registered (fun p hp => ?_) validKeys
  exact Predicate.resolves_of_valid p (validFilter p hp)

end Roster.Sql
