import Roster.Proofs.Scope.Confinement
import Roster.Proofs.Scope.Redaction
import Roster.Proofs.Store.Reach

/-!
# The store that a caller may see

`Tables.visibleTo` keeps the rows that satisfy the caller's overlays, as the full tables evaluate
them, and takes the restricted fields out of them. A filter that is `Legible` cannot tell the two
stores apart: what it accepts is visible, and each of its paths either goes through visible rows
only or belongs to the overlay. The rows it matches in the visible store are the veiled rows it
matches in the full one, in the same order (`Tables.fetch_visibleTo`).

What a registry and the rules over it have to agree on for this is collected in `Sealed`. The one
place where a path of an overlay goes through rows that are not all visible is the path to an owner:
there the rule of the parent keeps the parents that the caller owns.
-/

namespace Roster

namespace Tables

/-- The row satisfies the caller's overlay, as these tables evaluate it. -/
def admits (t : Tables) (r : Registry) (c : Caller) (e : Entity) (row : Json) : Bool :=
  t.passes r e (c.rule e.name).overlay.condition row

/-- The tables that a caller may see: of each entity the admitted rows, less restricted fields. -/
def visibleTo (t : Tables) (r : Registry) (c : Caller) : Tables :=
  ⟨t.rows.map fun p => (p.1, match r.entity? p.1 with
    | some e => (p.2.filter (t.admits r c e)).map (c.veil e)
    | none => p.2)⟩

end Tables

theorem Overlay.eq_passThrough {o : Overlay} (h : o.isPassThrough = true) : o = .passThrough := by
  cases o with
  | passThrough => rfl
  | _ => cases h

namespace Caller

variable {c : Caller} {r : Registry} {e : Entity}

/-! ## Readable paths -/

/-- The caller may filter on the path, and it leads to a field. -/
def Reads (c : Caller) (r : Registry) (e : Entity) (path : Path) : Prop :=
  c.blocks r e path = false ∧ ∃ owner field, r.resolve e path = .ok (owner, field)

/-- A restricted path is the path of its last name. -/
theorem ofText_of_restricted {entity : String} {path : Path}
    (h : path ∈ (c.rule entity).restricted) : Path.ofText path.leaf = path := by
  unfold rule at h
  split at h <;> simp only [List.mem_cons, List.not_mem_nil, or_false] at h
  · rw [h]
    decide
  · rcases h with rfl | rfl <;> decide

/-- A path that is not blocked goes through open entities to a field that is not hidden. -/
theorem followOpen_of_blocks {path : Path} (h : c.blocks r e path = false) :
    ∃ owner, c.followOpen r e path.relations = some owner ∧
      c.hides owner.name path.leaf = false := by
  unfold blocks at h
  split at h
  · next owner howner =>
    refine ⟨owner, howner, ?_⟩
    rw [← Bool.not_eq_true, hides_iff]
    intro restricted
    have spelled : Path.ofText path.leaf = ⟨[path.leaf]⟩ := ofText_of_restricted restricted
    rw [← Bool.not_eq_true, List.contains_iff_mem] at h
    exact h (spelled.symm ▸ restricted)
  · cases h

/-- Where all rows are visible no field is restricted. -/
theorem restricted_of_isPassThrough {entity : String}
    (h : (c.rule entity).overlay.isPassThrough = true) : (c.rule entity).restricted = [] := by
  revert h
  unfold rule
  -- Only the rules that keep a candidate to some rows of an entity restrict fields of it.
  split <;> intro h
  case h_6 => cases h
  case h_7 => cases h
  all_goals rfl

/-- The way from a record to its owner, through a parent that the caller sees when it is owned. -/
structure LeadsToOwner (c : Caller) (r : Registry) (e : Entity) (hop column : String) (l : Relation)
    (parent : Entity) (alternatives : List Predicate) : Prop where
  relation : e.relation? hop = some l
  target : r.entity? l.target = some parent
  singular : l.singular = true
  sees : SeesLink c e l parent
  overlay : (c.rule parent.name).overlay = .anyOf alternatives
  owned : Predicate.equals ⟨[column]⟩ c.asScalar ∈ alternatives
  reads : c.Reads r parent ⟨[column]⟩

/-- What a registry and the rules of a caller agree on, so that nothing hidden shows. -/
structure Sealed (c : Caller) (r : Registry) : Prop where
  /-- An entity is registered under its name. -/
  named : ∀ {name e}, r.entity? name = some e → e.name = name
  /-- Fields and relations have different names. -/
  apart : ∀ {e}, r.Registered e → e.Apart
  /-- Every entity has an identifier that may be filtered on. -/
  identified : ∀ {e}, r.Registered e → c.Reads r e ⟨["id"]⟩
  /-- The keys of a relation to an entity that is not denied are visible fields. -/
  links : ∀ {e name l target}, r.Registered e → e.relation? name = some l →
    r.entity? l.target = some target → (c.rule target.name).overlay.isDeny = false →
      SeesLink c e l target ∧ Path.ofText l.foreignField = ⟨[l.foreignField]⟩ ∧
        c.Reads r target ⟨[l.foreignField]⟩
  /-- The condition of an overlay reads what the caller may read, or it asks for the owner. -/
  conditions : ∀ {e path}, r.Registered e → path ∈ (c.rule e.name).overlay.condition.paths →
    c.Reads r e path ∨ ∃ hop column l parent alternatives, path = ⟨[hop, column]⟩ ∧
      (c.rule e.name).overlay.condition = .equals path c.asScalar ∧
      LeadsToOwner c r e hop column l parent alternatives
  /-- The owner that is looked up is a readable field of the parent. -/
  parents : ∀ {e foreignKey parent ownerField path owner}, r.Registered e →
    (c.rule e.name).overlay = .parentOwner foreignKey parent ownerField path owner →
      ∃ target alternatives, r.entity? parent = some target ∧
        Path.ofText ownerField = ⟨[ownerField]⟩ ∧
        (c.rule target.name).overlay = .anyOf alternatives ∧
        Predicate.equals ⟨[ownerField]⟩ c.asScalar ∈ alternatives ∧
        c.Reads r target ⟨[ownerField]⟩

namespace Sealed

theorem entity?_name (sealed_ : Sealed c r) (registered : r.Registered e) :
    r.entity? e.name = some e := by
  obtain ⟨name, h⟩ := registered
  rwa [sealed_.named h]

theorem resolves_of_reads (sealed_ : Sealed c r) (registered : r.Registered e) {path : Path}
    (reads : c.Reads r e path) :
    ∃ owner field, r.resolve e path = .ok (owner, field) ∧ owner.Apart := by
  obtain ⟨-, owner, field, h⟩ := reads
  obtain ⟨-, hfollow, -⟩ := Registry.follow_of_resolve h
  exact ⟨owner, field, h, sealed_.apart (Registry.registered_of_follow _ registered hfollow)⟩

/-- A readable path of one name is a visible field. -/
theorem hides_of_reads {name : String} (reads : c.Reads r e ⟨[name]⟩) :
    c.hides e.name name = false := by
  obtain ⟨owner, howner, visible⟩ := followOpen_of_blocks reads.1
  obtain rfl : e = owner := Option.some.inj howner
  exact visible

theorem resolves_condition (sealed_ : Sealed c r) (registered : r.Registered e) :
    Tables.Resolves r e (c.rule e.name).overlay.condition := by
  intro path hp
  rcases sealed_.conditions registered hp with reads | h
  · exact sealed_.resolves_of_reads registered reads
  · obtain ⟨hop, column, l, parent, alternatives, rfl, -, leads⟩ := h
    have registeredParent : r.Registered parent := ⟨_, leads.target⟩
    obtain ⟨owner, field, h, apart⟩ := sealed_.resolves_of_reads registeredParent leads.reads
    obtain ⟨-, hfollow, hfield⟩ := Registry.follow_of_resolve h
    have step : r.target? e hop = some parent := by
      rw [Registry.target?, leads.relation]
      exact leads.target
    refine ⟨owner, field, Registry.resolve_of_follow (by simp) ?_ hfield, apart⟩
    exact (Registry.follow_cons step []).trans hfollow

end Sealed

end Caller

namespace Tables

open Caller

variable {t : Tables} {c : Caller} {r : Registry} {e target : Entity} {row : Json}

/-! ## Visible rows -/

theorem of_visibleTo (h : r.entity? e.name = some e) :
    (t.visibleTo r c).of e.name = ((t.of e.name).filter (t.admits r c e)).map (c.veil e) := by
  have mapped := Keyed.get?_map t.rows (fun name rows => match r.entity? name with
    | some e => (rows.filter (t.admits r c e)).map (c.veil e)
    | none => rows) e.name
  rw [Tables.of, visibleTo, mapped, Tables.of]
  cases Keyed.get? t.rows e.name with
  | none => rfl
  | some rows => simp [h]

theorem isObject_veil (h : row.isObject = true) : (c.veil e row).isObject = true := by
  obtain ⟨fields, rfl⟩ := Json.eq_obj h
  rfl

theorem admits_of_isPassThrough (h : (c.rule e.name).overlay.isPassThrough = true) (row : Json) :
    t.admits r c e row = true := by
  rw [admits, Overlay.eq_passThrough h, passes]
  exact Predicate.accepts_of_isEmpty rfl _

/-- The related rows that a veiled row has left are the visible ones of all that it had. -/
theorem linked_visibleTo {l : Relation} (sees : SeesLink c e l target)
    (h : r.entity? target.name = some target) (row : Json) :
    (t.visibleTo r c).linked l target (c.veil e row) =
      ((t.linked l target row).filter (t.admits r c target)).map (c.veil target) := by
  rw [linked, of_visibleTo h, keyIn?_veil sees.localVisible, related, List.filter_map, linked,
    related, List.filter_filter, List.filter_filter]
  congr 2
  funext child
  simp only [Function.comp_apply, keyIn?_veil sees.foreignVisible, Bool.and_comm]

/-- Of an entity whose rows are all visible, a row has the same related rows left. -/
theorem linked_visibleTo_open {l : Relation} (sees : SeesLink c e l target)
    (h : r.entity? target.name = some target)
    (hopen : (c.rule target.name).overlay.isPassThrough = true) (row : Json) :
    (t.visibleTo r c).linked l target (c.veil e row) = t.linked l target row := by
  rw [linked_visibleTo sees h,
    List.filter_eq_self.mpr fun child _ => admits_of_isPassThrough hopen child,
    List.map_congr_left fun child _ =>
      veil_of_restricted_nil (restricted_of_isPassThrough hopen) child,
    List.map_id']

/-! ## Reaching in the visible store -/

/-- Along open entities to a field that is not hidden, nothing is missing. -/
theorem reach_visibleTo (sealed_ : Sealed c r) (segments : List String) :
    ∀ {e owner : Entity} {row : Json}, r.Registered e → segments ≠ [] →
      c.followOpen r e segments.dropLast = some owner →
      c.hides owner.name (segments.getLastD "") = false →
        (t.visibleTo r c).reach r e segments (c.veil e row) = t.reach r e segments row := by
  induction segments with
  | nil => exact fun _ h => absurd rfl h
  | cons name rest ih =>
    intro e owner row registered _ hfollow visible
    cases rest with
    | nil =>
      obtain rfl : e = owner := Option.some.inj hfollow
      rw [reach, field_veil (show c.hides e.name name = false from visible), reach]
    | cons next others =>
      rw [List.dropLast_cons_of_ne_nil (List.cons_ne_nil _ _), followOpen] at hfollow
      split at hfollow
      · next target htarget =>
        split at hfollow
        · next hopen =>
          obtain ⟨l, hl, ht⟩ := Option.bind_eq_some_iff.mp htarget
          have registeredTarget : r.Registered target := ⟨_, ht⟩
          have seen : (c.rule target.name).overlay.isDeny = false := by
            rw [Overlay.eq_passThrough hopen]
            rfl
          obtain ⟨sees, -, -⟩ := sealed_.links registered hl ht seen
          rw [reach, reach, hl]
          simp only [ht]
          rw [linked_visibleTo_open sees (sealed_.entity?_name registeredTarget) hopen]
          refine List.flatMap_congr fun child _ => ?_
          have step : (t.visibleTo r c).reach r target (next :: others) (c.veil target child) =
              t.reach r target (next :: others) child :=
            ih registeredTarget (List.cons_ne_nil _ _) hfollow visible
          rwa [veil_of_restricted_nil (restricted_of_isPassThrough hopen)] at step
        · cases hfollow
      · cases hfollow

/-- **A visible row still leads to its owner**: its parent is owned, and so it is visible too. -/
theorem reach_visibleTo_owner (sealed_ : Sealed c r) (objects : t.Objects) {hop column : String}
    {l : Relation} {parent : Entity} {alternatives : List Predicate}
    (leads : LeadsToOwner c r e hop column l parent alternatives) (registered : r.Registered e)
    (condition : (c.rule e.name).overlay.condition = .equals ⟨[hop, column]⟩ c.asScalar)
    (object : row.isObject = true) (admitted : t.admits r c e row = true) :
    (t.visibleTo r c).reach r e [hop, column] (c.veil e row) = t.reach r e [hop, column] row := by
  have registeredParent : r.Registered parent := ⟨_, leads.target⟩
  have resolves := sealed_.resolves_condition registered
  -- what the overlay asks of the row, without the copy that it is evaluated on
  have owned : (t.reach r e [hop, column] row).any
      (fun v => (equalsTruth false v c.asScalar).holds) = true := by
    rw [condition] at resolves
    obtain ⟨owner, field, hresolve, apart⟩ := resolves ⟨[hop, column]⟩ (by simp [Predicate.paths])
    rwa [admits, condition, passes, Predicate.accepts_equals,
      valuesIn_embed object (Hops.tidy_ofPredicate _)
        (Hops.covers_ofPredicate (by simp [Predicate.paths])) hresolve apart] at admitted
  rw [reach, leads.relation] at owned ⊢
  rw [reach, leads.relation]
  simp only [leads.target, Relation.picked, leads.singular] at owned ⊢
  rw [linked_visibleTo leads.sees (sealed_.entity?_name registeredParent)]
  cases hlinked : t.linked l parent row with
  | nil => rfl
  | cons first rest =>
    rw [hlinked] at owned
    simp only [List.take_succ_cons, List.take_zero, List.flatMap_singleton, if_true] at owned
    have objectFirst : first.isObject = true := by
      have member : first ∈ t.linked l parent row := hlinked ▸ List.mem_cons_self
      exact objects.of (List.mem_filter.mp member).1
    have admittedFirst : t.admits r c parent first = true := by
      obtain ⟨owner, field, hresolve, apart⟩ :=
        sealed_.resolves_of_reads registeredParent leads.reads
      rw [admits, leads.overlay, passes, Overlay.condition, Predicate.accepts_or, List.any_eq_true]
      refine ⟨_, leads.owned, ?_⟩
      rwa [Predicate.accepts_equals, valuesIn_embed objectFirst (Hops.tidy_ofPredicate _)
        (show Hops.Covers _ [] from trivial) hresolve apart]
    rw [List.filter_cons_of_pos admittedFirst]
    simp [reach, field_veil (Sealed.hides_of_reads leads.reads)]

end Tables

/-! ## Legible filters -/

/-- A filter that shows nothing hidden: it accepts what satisfies the overlay, and its paths are
readable or belong to the overlay. -/
structure Legible (c : Caller) (r : Registry) (e : Entity) (filter : Option Predicate) : Prop where
  within : ∀ row, accepts? filter row = true → (c.rule e.name).overlay.Admits row
  paths : ∀ leaf ∈ Predicate.leavesOf filter, ∀ path ∈ leaf.paths,
    path ∈ (c.rule e.name).overlay.condition.paths ∨ c.Reads r e path

namespace Legible

open Caller

variable {c : Caller} {r : Registry} {e : Entity} {filter : Option Predicate}

/-- A confined filter is legible, if what was asked for leads to fields. -/
theorem of_confined {asked : Option Predicate} (confined : Confined c r e asked filter)
    (valid : ∀ leaf ∈ Predicate.leavesOf asked, ∀ path ∈ leaf.paths,
      ∃ owner field, r.resolve e path = .ok (owner, field)) : Legible c r e filter where
  within := confined.within
  paths leaf hleaf path hpath := by
    rcases confined.leaves leaf hleaf with own | ⟨asks, free⟩
    · exact .inl ((Predicate.mem_paths_iff _).mpr ⟨leaf, own, hpath⟩)
    · exact .inr ⟨free path hpath, valid leaf asks path hpath⟩

/-- More conditions on readable paths leave a filter legible. -/
theorem mergeAnd {clauses : List (Option Predicate)} (legible : Legible c r e filter)
    (member : filter ∈ clauses)
    (others : ∀ clause ∈ clauses, clause = filter ∨
      ∀ leaf ∈ Predicate.leavesOf clause, ∀ path ∈ leaf.paths, c.Reads r e path) :
    Legible c r e (Predicate.mergeAnd clauses) where
  within row h := by
    rw [Predicate.accepts?_mergeAnd, List.all_eq_true] at h
    exact legible.within row (h filter member)
  paths leaf hleaf path hpath := by
    obtain ⟨clause, hclause, hleaf⟩ := Predicate.mem_leavesOf_mergeAnd.mp hleaf
    rcases others clause hclause with rfl | reads
    · exact legible.paths leaf hleaf path hpath
    · exact .inr (reads leaf hleaf path hpath)

theorem resolves {p : Predicate} (sealed_ : Sealed c r) (registered : r.Registered e)
    (legible : Legible c r e (some p)) : Tables.Resolves r e p := by
  intro path hp
  obtain ⟨leaf, hleaf, hpath⟩ := (Predicate.mem_paths_iff p).mp hp
  rcases legible.paths leaf hleaf path hpath with own | reads
  · exact sealed_.resolves_condition registered path own
  · exact sealed_.resolves_of_reads registered reads

end Legible

namespace Tables

open Caller

variable {t : Tables} {c : Caller} {r : Registry} {e : Entity} {row : Json}
  {filter : Option Predicate}

/-- What a legible filter accepts is visible. -/
theorem admits_of_passes (sealed_ : Sealed c r) (registered : r.Registered e)
    (legible : Legible c r e filter) (h : filter.all (t.passes r e · row) = true) :
    t.admits r c e row = true := by
  cases filter with
  | none => exact (Overlay.accepts_condition_iff _ _).mpr (legible.within _ rfl)
  | some p =>
    -- one copy that carries the relations of the filter and of the overlay
    let both := Predicate.and [p, (c.rule e.name).overlay.condition]
    have tidy := Hops.tidy_ofPredicate both
    have carried : p.accepts (t.embed r e row (Hops.ofPredicate both)) = true := by
      rw [accepts_embed tidy (fun path hp => Hops.covers_ofPredicate
        (by simp [both, Predicate.paths, Predicate.pathsOfAll, hp]))
        (legible.resolves sealed_ registered)]
      exact h
    have admitted := (Overlay.accepts_condition_iff _ _).mpr (legible.within _ carried)
    rwa [accepts_embed tidy (fun path hp => Hops.covers_ofPredicate
      (by simp [both, Predicate.paths, Predicate.pathsOfAll, hp]))
      (sealed_.resolves_condition registered)] at admitted

/-- A visible row passes a legible filter in the visible store when it does in the full one. -/
theorem passes_visibleTo {p : Predicate} (sealed_ : Sealed c r) (objects : t.Objects)
    (registered : r.Registered e) (legible : Legible c r e (some p)) (object : row.isObject = true)
    (admitted : t.admits r c e row = true) :
    (t.visibleTo r c).passes r e p (c.veil e row) = t.passes r e p row := by
  refine congrArg Truth.holds (Predicate.truth_congr p fun path hp => ?_)
  obtain ⟨owner, field, h, apart⟩ := legible.resolves sealed_ registered path hp
  have tidy := Hops.tidy_ofPredicate p
  have covers := Hops.covers_ofPredicate hp
  rw [valuesIn_embed (isObject_veil object) tidy covers h apart,
    valuesIn_embed object tidy covers h apart]
  obtain ⟨nonempty, -, -⟩ := Registry.follow_of_resolve h
  have readable (reads : c.Reads r e path) :
      (t.visibleTo r c).reach r e path.segments (c.veil e row) = t.reach r e path.segments row := by
    obtain ⟨owner, howner, visible⟩ := followOpen_of_blocks reads.1
    exact reach_visibleTo sealed_ path.segments registered nonempty howner visible
  obtain ⟨leaf, hleaf, hpath⟩ := (Predicate.mem_paths_iff p).mp hp
  rcases legible.paths leaf hleaf path hpath with own | reads
  · rcases sealed_.conditions registered own with reads | owner
    · exact readable reads
    · obtain ⟨hop, column, l, parent, alternatives, rfl, condition, leads⟩ := owner
      exact reach_visibleTo_owner sealed_ objects leads registered condition object admitted
  · exact readable reads

/-- **A legible filter matches the same rows in the visible store**, veiled. -/
theorem matching_visibleTo (sealed_ : Sealed c r) (objects : t.Objects)
    (registered : r.Registered e) (legible : Legible c r e filter) :
    (t.visibleTo r c).matching r e filter = (t.matching r e filter).map (c.veil e) := by
  rw [matching_eq, matching_eq, of_visibleTo (sealed_.entity?_name registered), List.filter_map,
    List.filter_filter]
  congr 1
  refine List.filter_congr fun row member => ?_
  have object := objects.of member
  rw [Function.comp_apply, Bool.eq_iff_iff, Bool.and_eq_true]
  have same (admitted : t.admits r c e row = true) :
      (filter.all fun p => (t.visibleTo r c).passes r e p (c.veil e row)) =
        filter.all (t.passes r e · row) := by
    cases filter with
    | none => rfl
    | some p => exact passes_visibleTo sealed_ objects registered legible object admitted
  constructor
  · rintro ⟨passed, admitted⟩
    rwa [← same admitted]
  · intro passed
    have admitted := admits_of_passes sealed_ registered legible passed
    exact ⟨(same admitted).trans passed, admitted⟩

/-! ## Order and windows -/

theorem insertRow_map {keys : List SortKey} {f : Json → Json}
    (same : ∀ a b, compareRows keys (f a) (f b) = compareRows keys a b) (row : Json)
    (rows : List Json) :
    insertRow keys (f row) (rows.map f) = (insertRow keys row rows).map f := by
  induction rows with
  | nil => rfl
  | cons last before ih =>
    rw [List.map_cons, insertRow, insertRow, same]
    split
    · rw [ih, List.map_cons]
    · rfl

/-- A change that no comparison notices can be made before sorting or after it. -/
theorem sortRows_map {keys : List SortKey} {f : Json → Json}
    (same : ∀ a b, compareRows keys (f a) (f b) = compareRows keys a b) (rows : List Json) :
    sortRows keys (rows.map f) = (sortRows keys rows).map f := by
  have fold : ∀ sorted : List Json,
      (rows.map f).foldl (fun sorted row => insertRow keys row sorted) (sorted.map f) =
        (rows.foldl (fun sorted row => insertRow keys row sorted) sorted).map f := by
    induction rows with
    | nil => exact fun _ => rfl
    | cons row rest ih =>
      intro sorted
      rw [List.map_cons, List.foldl_cons, List.foldl_cons, insertRow_map same, ih]
  rw [sortRows, sortRows, List.map_reverse, ← fold []]
  rfl

theorem compareRows_veil {keys : List SortKey} (identified : c.hides e.name "id" = false)
    (visible : ∀ k ∈ keys, c.hides e.name k.path.leaf = false) (a b : Json) :
    compareRows keys (c.veil e a) (c.veil e b) = compareRows keys a b := by
  induction keys with
  | nil => rw [compareRows, compareRows, field_veil identified, field_veil identified]
  | cons k rest ih =>
    have head := visible k List.mem_cons_self
    rw [compareRows, compareRows, ih fun k hk => visible k (List.mem_cons_of_mem _ hk),
      SortKey.compareRows, SortKey.compareRows, field_veil head, field_veil head]

/-- **A legible query that sorts by visible fields fetches the same window from the visible store**,
veiled, out of the same number of rows. -/
theorem fetch_visibleTo (sealed_ : Sealed c r) (objects : t.Objects) (registered : r.Registered e)
    {q : Descriptor} (legible : Legible c r e q.filter)
    (visible : ∀ k ∈ q.orderBy.getD [], c.hides e.name k.path.leaf = false) :
    (t.visibleTo r c).fetch r e q =
      ⟨(t.fetch r e q).rows.map (c.veil e), (t.fetch r e q).total⟩ := by
  have identified := Sealed.hides_of_reads (sealed_.identified registered)
  have sorted := sortRows_map (compareRows_veil identified visible) (t.matching r e q.filter)
  simp only [fetch, matching_visibleTo sealed_ objects registered legible, sorted, List.length_map,
    ← List.map_drop]
  cases q.take with
  | none => rfl
  | some n => simp only [List.map_take]

theorem count_visibleTo (sealed_ : Sealed c r) (objects : t.Objects) (registered : r.Registered e)
    (legible : Legible c r e filter) :
    (t.visibleTo r c).count r e filter = t.count r e filter := by
  rw [count, matching_visibleTo sealed_ objects registered legible, List.length_map, count]

end Tables

end Roster
