import Roster.Proofs.Predicate.Settled
import Roster.Proofs.Scope.Validity
import Roster.Proofs.Store.Reach

/-!
# Narrowing a narrowed query

A caller may send back the query that an answer carries. Its filters have the overlays on them, and
these are then stripped, checked and put on like anything else that a caller sends.
`accepts?_narrowFilter` says that the filter that comes out accepts the same rows.

This is less than obvious where an overlay asks for the owner of a parent. It stands on a path that
the caller may not filter on, so the second narrowing strips it, and with it whatever part of the
filter compares nothing. There the filter has to be `Settled`. Everywhere else stripping has nothing
to take the second time.
-/

namespace Roster

theorem Path.startsWith_self (path : Path) : path.startsWith path = true :=
  List.isPrefixOf_iff_prefix.mpr (List.prefix_refl _)

namespace Predicate

/-! ## Putting a condition on twice -/

theorem assign_eq (filter : Option Predicate) (path : Path) (value : Scalar) :
    assign filter path value = (compose .and ((conjunctsOf filter).filter
      (fun p => p.path? != some path) ++ [.equals path value])).getD empty := rfl

/-- What is assigned is the last conjunct. -/
theorem conjunctsOf_assign (filter : Option Predicate) (path : Path) (value : Scalar) :
    conjunctsOf (some (assign filter path value)) =
      (conjunctsOf filter).filter (fun p => p.path? != some path) ++ [.equals path value] := by
  rw [assign_eq]
  generalize (conjunctsOf filter).filter _ = others
  match others with
  | [] => rfl
  | [_] => rfl
  | _ :: _ :: _ => rfl

theorem assign_assign (filter : Option Predicate) (path : Path) (value : Scalar) :
    assign (some (assign filter path value)) path value = assign filter path value := by
  rw [assign_eq, conjunctsOf_assign, List.filter_append, List.filter_filter, assign_eq]
  simp [path?]

/-- Where nothing stands on the path, all conjuncts stay. -/
theorem filter_conjunctsOf {filter : Option Predicate} {path : Path}
    (free : ∀ leaf ∈ leavesOf filter, path ∉ leaf.paths) :
    (conjunctsOf filter).filter (fun p => p.path? != some path) = conjunctsOf filter := by
  refine List.filter_eq_self.mpr fun p hp => ?_
  rw [bne_iff_ne]
  intro on
  have leaf : p ∈ leavesOf filter := by
    rw [← leavesOfAll_conjunctsOf]
    exact mem_leavesOfAll.mpr ⟨p, hp, by rw [leaves_of_path? on]; exact List.mem_cons_self⟩
  refine free p leaf ?_
  cases p with
  | equals q value => exact List.mem_singleton.mpr (Option.some.inj on).symm
  | operator q comparisons => exact List.mem_singleton.mpr (Option.some.inj on).symm
  | _ => cases on

theorem accepts_assign_of_free {filter : Option Predicate} {path : Path} (value : Scalar)
    (free : ∀ leaf ∈ leavesOf filter, path ∉ leaf.paths) (row : Json) :
    (assign filter path value).accepts row =
      (accepts? filter row && (Predicate.equals path value).accepts row) := by
  have conjuncts := accepts?_conjunctsOf (some (assign filter path value)) row
  rw [conjunctsOf_assign, filter_conjunctsOf free, List.all_append,
    ← accepts?_conjunctsOf] at conjuncts
  simpa [accepts?] using conjuncts

theorem stripAll_append (blocked : List Path) (ps qs : List Predicate) :
    stripAll blocked (ps ++ qs) = stripAll blocked ps ++ stripAll blocked qs := by
  induction ps with
  | nil => rfl
  | cons p rest ih => rw [List.cons_append, stripAll, stripAll, ih, List.append_assoc]

/-- Stripping takes an assigned value on a blocked path out again. -/
theorem strip_assign {blocked : List Path} {filter : Option Predicate} {path : Path}
    (value : Scalar) (hblocked : isBlockedBy blocked path = true)
    (free : ∀ leaf ∈ leavesOf filter, path ∉ leaf.paths) :
    strip blocked (assign filter path value) =
      compose .and (stripAll blocked (conjunctsOf filter)) := by
  have last : strip blocked (.equals path value) = none := by rw [strip, if_pos hblocked]
  rw [assign_eq, filter_conjunctsOf free]
  cases conjunctsOf filter with
  | nil => exact last
  | cons p rest =>
    have wrapped : (compose .and (p :: rest ++ [.equals path value])).getD empty =
        .and (p :: rest ++ [.equals path value]) := by
      cases rest <;> rfl
    rw [wrapped, strip, stripAll_append]
    simp [stripAll, last]

end Predicate

namespace Overlay

variable {o : Overlay} {filter : Option Predicate}

/-- An overlay that is put on twice asks for no more than once. -/
theorem accepts?_apply_apply (row : Json) :
    accepts? (o.apply (o.apply filter)) row = accepts? (o.apply filter) row := by
  cases o with
  | passThrough => rfl
  | assign path value => rw [apply, apply, Predicate.assign_assign]
  | anyOf alternatives =>
    simp only [apply, accepts?, Option.all_some, Predicate.accepts_requireAny, Bool.and_assoc,
      Bool.and_self]
  | parentOwner foreignKey parent ownerField ownerPath owner =>
    rw [apply, apply, Predicate.assign_assign]
  | deny => rfl

/-- A filter that says something still does so under an overlay. -/
theorem isEmpty_of_apply {p : Predicate} (full : ∀ q ∈ filter, q.isEmpty = false)
    (h : o.apply filter = some p) : p.isEmpty = false := by
  have assigned (path : Path) (value : Scalar) :
      (Predicate.assign filter path value).isEmpty = false := by
    rw [Predicate.assign_eq]
    generalize (Predicate.conjunctsOf filter).filter _ = others
    match others with
    | [] => rfl
    | [_] => rfl
    | _ :: _ :: _ => rfl
  cases o with
  | passThrough => exact full p h
  | assign path value => exact Option.some.inj h ▸ assigned path value
  | anyOf alternatives =>
    obtain rfl := Option.some.inj h
    cases filter with
    | none => rfl
    | some q => rw [Predicate.requireAny, if_neg (by simp [full q rfl])]; rfl
  | parentOwner foreignKey parent ownerField ownerPath owner =>
    exact Option.some.inj h ▸ assigned ownerPath owner
  | deny => exact full p h

end Overlay

namespace Caller

variable {c : Caller} {r : Registry} {e target : Entity} {filter : Option Predicate}

/-! ## Filters -/

/-- Where a parent has to be owned, what is left of the filter is settled. -/
def Settles (c : Caller) (r : Registry) (e : Entity) (filter : Option Predicate) : Prop :=
  match (c.rule e.name).overlay with
  | .parentOwner _ _ _ _ _ => Predicate.Settled (c.strip r e filter)
  | _ => True

theorem settles_none : c.Settles r e none := by
  unfold Settles
  split
  · exact rfl
  · trivial

/-- Stripping leaves the condition of the overlay alone, or it takes all of it out again. -/
inductive Restores (c : Caller) (r : Registry) (e : Entity) : Prop
  | seen : (∀ path ∈ (c.rule e.name).overlay.condition.paths, c.blocks r e path = false) →
      Restores c r e
  | owner {foreignKey ownerPath : Path} {parent ownerField : String} {owner : Scalar} :
      (c.rule e.name).overlay = .parentOwner foreignKey parent ownerField ownerPath owner →
        (∀ path : Path, path.startsWith ownerPath = true → c.blocks r e path = true) →
          Restores c r e

theorem strip_some (p : Predicate) :
    c.strip r e (some p) =
      Predicate.removeRestricted (some p) (p.paths.filter (c.blocks r e)) := rfl

theorem isEmpty_of_strip {p : Predicate} (h : c.strip r e filter = some p) : p.isEmpty = false := by
  obtain ⟨q, -, h⟩ := Option.bind_eq_some_iff.mp h
  exact Predicate.isEmpty_of_removeRestricted h

theorem strip_eq_self {p : Predicate} (full : p.isEmpty = false)
    (free : ∀ path ∈ p.paths, c.blocks r e path = false) : c.strip r e (some p) = some p := by
  have none_ : p.paths.filter (c.blocks r e) = [] :=
    List.filter_eq_nil_iff.mpr fun path hpath => by rw [free path hpath]; exact Bool.false_ne_true
  rw [strip_some, none_, Predicate.removeRestricted]
  simp [full]

/-- A filter that is there has no paths that are blocked after stripping. -/
theorem blocks_of_strip {p : Predicate} (h : c.strip r e filter = some p) {path : Path}
    (hpath : path ∈ p.paths) : c.blocks r e path = false := by
  obtain ⟨leaf, hleaf, hpath⟩ := (Predicate.mem_paths_iff p).mp hpath
  have left : leaf ∈ Predicate.leavesOf (c.strip r e filter) := by rwa [h]
  exact (mem_leavesOf_strip left).2 path hpath

theorem strip_strip : c.strip r e (c.strip r e filter) = c.strip r e filter := by
  cases h : c.strip r e filter with
  | none => rfl
  | some p => exact strip_eq_self (isEmpty_of_strip h) fun path => blocks_of_strip h

/-- What narrowing leaves is there again after a second time, or missing again. -/
theorem isNone_narrowFilter :
    (c.narrowFilter r e (c.narrowFilter r e filter)).isNone =
      (c.narrowFilter r e filter).isNone := by
  unfold narrowFilter
  cases (c.rule e.name).overlay with
  | passThrough => exact congrArg Option.isNone strip_strip
  | deny => exact congrArg Option.isNone strip_strip
  | _ => rfl

/-- Where the overlay's condition may be filtered on, stripping has nothing more to take. -/
theorem strip_narrowFilter_seen
    (readable : ∀ path ∈ (c.rule e.name).overlay.condition.paths, c.blocks r e path = false) :
    c.strip r e (c.narrowFilter r e filter) = c.narrowFilter r e filter := by
  cases h : c.narrowFilter r e filter with
  | none => rfl
  | some p =>
    refine strip_eq_self (Overlay.isEmpty_of_apply (fun q hq => isEmpty_of_strip hq) h) ?_
    intro path hpath
    obtain ⟨leaf, hleaf, hpath⟩ := (Predicate.mem_paths_iff p).mp hpath
    have hleaf : leaf ∈ Predicate.leavesOf (c.narrowFilter r e filter) := by rwa [h]
    rcases Overlay.mem_leavesOf_apply hleaf with asked | own
    · exact (mem_leavesOf_strip asked).2 path hpath
    · exact readable path ((Predicate.mem_paths_iff _).mpr ⟨leaf, own, hpath⟩)

section Owner

variable {foreignKey ownerPath : Path} {parent ownerField : String} {owner : Scalar}

/-- What is left of a filter has nothing on the owner's path or beyond. -/
theorem startsWith_of_strip
    (beyond : ∀ path : Path, path.startsWith ownerPath = true → c.blocks r e path = true)
    {leaf : Predicate} (hleaf : leaf ∈ Predicate.leavesOf (c.strip r e filter)) {path : Path}
    (hpath : path ∈ leaf.paths) : path.startsWith ownerPath = false := by
  rw [← Bool.not_eq_true]
  intro starts
  have readable := (mem_leavesOf_strip hleaf).2 path hpath
  rw [beyond path starts] at readable
  cases readable

theorem owner_not_mem_paths
    (beyond : ∀ path : Path, path.startsWith ownerPath = true → c.blocks r e path = true) :
    ∀ leaf ∈ Predicate.leavesOf (c.strip r e filter), ownerPath ∉ leaf.paths := by
  intro leaf hleaf hpath
  have off := startsWith_of_strip beyond hleaf hpath
  rw [ownerPath.startsWith_self] at off
  cases off

/-- The paths of an assigned filter that are blocked: the owner's, and no other. -/
theorem mem_blocked_assign
    (beyond : ∀ path : Path, path.startsWith ownerPath = true → c.blocks r e path = true)
    (filter : Option Predicate) (owner : Scalar) (path : Path) :
    path ∈ (Predicate.assign (c.strip r e filter) ownerPath owner).paths.filter (c.blocks r e) ↔
      path = ownerPath := by
  rw [List.mem_filter, Predicate.mem_paths_iff]
  constructor
  · rintro ⟨⟨leaf, hleaf, hpath⟩, blocked⟩
    rcases Predicate.mem_leaves_assign hleaf with asked | rfl
    · rw [(mem_leavesOf_strip asked).2 path hpath] at blocked
      cases blocked
    · exact List.mem_singleton.mp hpath
  · rintro rfl
    have last : Predicate.equals path owner ∈ Predicate.conjunctsOf
        (some (Predicate.assign (c.strip r e filter) path owner)) := by
      rw [Predicate.conjunctsOf_assign]
      exact List.mem_append_right _ List.mem_cons_self
    refine ⟨⟨.equals path owner, ?_, List.mem_cons_self⟩, beyond _ path.startsWith_self⟩
    rw [← Predicate.leavesOf_some, ← Predicate.leavesOfAll_conjunctsOf]
    exact Predicate.mem_leavesOfAll.mpr ⟨_, last, List.mem_cons_self⟩

theorem narrowFilter_owner
    (overlay : (c.rule e.name).overlay =
      .parentOwner foreignKey parent ownerField ownerPath owner) (filter : Option Predicate) :
    c.narrowFilter r e filter =
      some (Predicate.assign (c.strip r e filter) ownerPath owner) := by
  rw [narrowFilter, overlay, Overlay.apply]

/-- **Stripping takes the owner out again**, and goes through the other conjuncts one by one, which
have no leaf that it takes. -/
theorem strip_narrowFilter_owner
    (overlay : (c.rule e.name).overlay =
      .parentOwner foreignKey parent ownerField ownerPath owner)
    (beyond : ∀ path : Path, path.startsWith ownerPath = true → c.blocks r e path = true)
    (filter : Option Predicate) :
    ∃ blocked, (∀ leaf ∈ Predicate.leavesOf (c.strip r e filter),
        Predicate.isOn blocked leaf = false) ∧
      c.strip r e (c.narrowFilter r e filter) = Predicate.compose .and
        (Predicate.stripAll blocked (Predicate.conjunctsOf (c.strip r e filter))) := by
  have hblocked := mem_blocked_assign beyond filter owner
  rw [narrowFilter_owner overlay, strip_some]
  generalize (Predicate.assign (c.strip r e filter) ownerPath owner).paths.filter _ = blocked
    at hblocked
  have member : ownerPath ∈ blocked := (hblocked ownerPath).mpr rfl
  refine ⟨blocked, fun leaf hleaf => ?_, ?_⟩
  · refine List.any_eq_false.mpr fun path hpath => ?_
    rw [Predicate.isBlockedBy, Bool.not_eq_true]
    refine List.any_eq_false.mpr fun other hother => ?_
    rw [(hblocked other).mp hother, startsWith_of_strip beyond hleaf hpath]
    exact Bool.false_ne_true
  · have some_ : ¬ blocked.isEmpty = true := by
      rw [List.isEmpty_iff]
      exact List.ne_nil_of_mem member
    rw [Predicate.removeRestricted, if_neg some_]
    refine Predicate.strip_assign owner ?_ (owner_not_mem_paths beyond)
    exact List.any_eq_true.mpr ⟨ownerPath, member, ownerPath.startsWith_self⟩

end Owner

/-- **A filter that is narrowed again accepts the same rows.** -/
theorem accepts?_narrowFilter (restores : Restores c r e) (settles : c.Settles r e filter)
    (row : Json) :
    accepts? (c.narrowFilter r e (c.narrowFilter r e filter)) row =
      accepts? (c.narrowFilter r e filter) row := by
  cases restores with
  | seen readable =>
    rw [narrowFilter, strip_narrowFilter_seen readable]
    exact Overlay.accepts?_apply_apply row
  | owner overlay beyond =>
    rw [Settles, overlay] at settles
    obtain ⟨blocked, free, stripped⟩ := strip_narrowFilter_owner overlay beyond filter
    rw [← Predicate.leavesOfAll_conjunctsOf] at free
    rw [narrowFilter_owner overlay (c.narrowFilter r e filter), narrowFilter_owner overlay filter]
    refine (Predicate.accepts_assign_of_free _ (owner_not_mem_paths beyond) row).trans ?_
    refine .trans ?_ (Predicate.accepts_assign_of_free _ (owner_not_mem_paths beyond) row).symm
    rw [← narrowFilter_owner overlay filter, stripped,
      Predicate.accepts?_compose_stripAll settles free, Predicate.accepts?_conjunctsOf]

end Caller

end Roster
