import Roster.Proofs.Scope.Overlay

/-!
# The leaves of composed filters

The operations that put predicates together move leaves around and never make one up. Stripping
keeps exactly the leaves off the blocked paths, in their order, and an overlay adds the leaves of
its own condition and nothing else.
-/

namespace Roster.Predicate

/-- The leaves of an optional predicate; none has none. -/
def leavesOf (filter : Option Predicate) : List Predicate := (filter.map leaves).getD []

@[simp] theorem leavesOf_none : leavesOf none = [] := rfl

@[simp] theorem leavesOf_some (p : Predicate) : leavesOf (some p) = p.leaves := rfl

theorem mem_leavesOfAll {leaf : Predicate} {ps : List Predicate} :
    leaf ∈ leavesOfAll ps ↔ ∃ p ∈ ps, leaf ∈ p.leaves := by
  induction ps with
  | nil => simp [leavesOfAll]
  | cons p ps ih => simp [leavesOfAll, ih]

theorem leavesOfAll_append (ps qs : List Predicate) :
    leavesOfAll (ps ++ qs) = leavesOfAll ps ++ leavesOfAll qs := by
  induction ps with
  | nil => rfl
  | cons p ps ih => rw [List.cons_append, leavesOfAll, leavesOfAll, ih, List.append_assoc]

/-- An empty predicate has no leaves. -/
theorem leaves_of_isEmpty {p : Predicate} (h : p.isEmpty = true) : p.leaves = [] := by
  unfold isEmpty at h
  split at h
  · rfl
  · cases h

mutual

/-- The paths of a predicate are the paths of its leaves. -/
theorem mem_paths_iff {path : Path} : (p : Predicate) →
    (path ∈ p.paths ↔ ∃ leaf ∈ p.leaves, path ∈ leaf.paths)
  | .equals q v => by simp [paths, leaves]
  | .operator q f => by simp [paths, leaves]
  | .and children => mem_pathsOfAll_iff children
  | .or children => mem_pathsOfAll_iff children
  | .not inner => mem_paths_iff inner

theorem mem_pathsOfAll_iff {path : Path} : (ps : List Predicate) →
    (path ∈ pathsOfAll ps ↔ ∃ leaf ∈ leavesOfAll ps, path ∈ leaf.paths)
  | [] => by simp [pathsOfAll, leavesOfAll]
  | p :: rest => by
    rw [pathsOfAll, leavesOfAll, List.mem_append, mem_paths_iff p, mem_pathsOfAll_iff rest]
    simp only [List.mem_append, or_and_right, exists_or]

end

/-! ## Composition -/

/-- Composition keeps the leaves of its parts in order. -/
theorem leavesOf_compose {wrap : List Predicate → Predicate}
    (hwrap : ∀ qs, (wrap qs).leaves = leavesOfAll qs) (ps : List Predicate) :
    leavesOf (compose wrap ps) = leavesOfAll ps := by
  match ps with
  | [] => rfl
  | [p] => simp [compose, leavesOfAll]
  | p :: q :: rest => simp only [compose, leavesOf_some, hwrap]

theorem leavesOf_compose_and (ps : List Predicate) :
    leavesOf (compose .and ps) = leavesOfAll ps := leavesOf_compose (fun _ => rfl) ps

theorem leavesOf_compose_or (ps : List Predicate) :
    leavesOf (compose .or ps) = leavesOfAll ps := leavesOf_compose (fun _ => rfl) ps

/-- A merged filter has the leaves of its clauses. -/
theorem mem_leavesOf_mergeAnd {leaf : Predicate} {clauses : List (Option Predicate)} :
    leaf ∈ leavesOf (mergeAnd clauses) ↔ ∃ clause ∈ clauses, leaf ∈ leavesOf clause := by
  rw [mergeAnd, leavesOf_compose_and, mem_leavesOfAll]
  constructor
  · rintro ⟨p, hp, hleaf⟩
    have hsome : some p ∈ clauses := by simpa [present] using (List.mem_filter.mp hp).1
    exact ⟨some p, hsome, hleaf⟩
  · rintro ⟨clause, hclause, hleaf⟩
    cases clause with
    | none => cases hleaf
    | some p =>
      have hp : p.isEmpty = false := by
        rw [← Bool.not_eq_true]
        intro h
        rw [leavesOf_some, leaves_of_isEmpty h] at hleaf
        cases hleaf
      exact ⟨p, List.mem_filter.mpr ⟨by simpa using hclause, by simp [hp]⟩, hleaf⟩

/-- A path of a merged filter is one of a clause. -/
theorem exists_clause_of_mem_paths {clauses : List (Option Predicate)} {merged : Predicate}
    (h : mergeAnd clauses = some merged) {path : Path} (hpath : path ∈ merged.paths) :
    ∃ clause ∈ clauses, ∃ p ∈ clause, path ∈ p.paths := by
  obtain ⟨leaf, hleaf, hpath⟩ := (mem_paths_iff merged).mp hpath
  have hleaf : leaf ∈ leavesOf (mergeAnd clauses) := by
    rw [h]
    exact hleaf
  obtain ⟨clause, hclause, hleaf⟩ := mem_leavesOf_mergeAnd.mp hleaf
  cases clause with
  | none => cases hleaf
  | some p => exact ⟨_, hclause, p, rfl, (mem_paths_iff p).mpr ⟨leaf, hleaf, hpath⟩⟩

/-! ## Stripping -/

/-- The leaf stands on a blocked path. -/
def isOn (blocked : List Path) (leaf : Predicate) : Bool := leaf.paths.any (isBlockedBy blocked)

mutual

/-- **Stripping keeps exactly the leaves off the blocked paths, in order.** -/
theorem leavesOf_strip (blocked : List Path) : (p : Predicate) →
    leavesOf (strip blocked p) = p.leaves.filter fun leaf => !isOn blocked leaf
  | .equals path value => by
    cases h : isBlockedBy blocked path <;> simp [strip, leaves, isOn, paths, h]
  | .operator path filter => by
    cases h : isBlockedBy blocked path <;> simp [strip, leaves, isOn, paths, h]
  | .and children => by rw [strip, leavesOf_compose_and, leavesOfAll_stripAll, leaves]
  | .or children => by rw [strip, leavesOf_compose_or, leavesOfAll_stripAll, leaves]
  | .not inner => by
    rw [strip, leaves, ← leavesOf_strip blocked inner]
    cases strip blocked inner <;> rfl

theorem leavesOfAll_stripAll (blocked : List Path) : (ps : List Predicate) →
    leavesOfAll (stripAll blocked ps) = (leavesOfAll ps).filter fun leaf => !isOn blocked leaf
  | [] => rfl
  | p :: rest => by
    rw [stripAll, leavesOfAll_append, leavesOfAll_stripAll blocked rest, leavesOfAll,
      List.filter_append, ← leavesOf_strip blocked p]
    cases strip blocked p <;> simp [leavesOfAll]

end

/-- A filter without restricted leaves: what stands off the restricted paths, in order. -/
theorem leavesOf_removeRestricted (filter : Option Predicate) (restricted : List Path) :
    leavesOf (removeRestricted filter restricted) =
      (leavesOf filter).filter fun leaf => !isOn restricted leaf := by
  cases filter with
  | none => rfl
  | some p =>
    cases restricted with
    | nil =>
      have hall : (p.leaves.filter fun leaf => !isOn [] leaf) = p.leaves :=
        List.filter_eq_self.mpr fun leaf _ => by simp [isOn, isBlockedBy]
      cases hp : p.isEmpty with
      | true => simp [removeRestricted, hp, leaves_of_isEmpty hp]
      | false => rw [leavesOf_some, hall]; simp [removeRestricted, hp]
    | cons path rest => exact leavesOf_strip (path :: rest) p

/-! ## Overlays -/

theorem mem_leaves_assign {leaf : Predicate} {filter : Option Predicate} {path : Path}
    {value : Scalar} (h : leaf ∈ (assign filter path value).leaves) :
    leaf ∈ leavesOf filter ∨ leaf = .equals path value := by
  rw [assign] at h
  generalize hothers : List.filter _ _ = others at h
  have hleaf : leaf ∈ leavesOfAll (others ++ [.equals path value]) := by
    rw [← leavesOf_compose_and]
    cases hc : compose .and (others ++ [.equals path value]) with
    | none => rw [hc] at h; cases h
    | some p => rw [hc] at h; exact h
  rw [leavesOfAll_append, List.mem_append] at hleaf
  rcases hleaf with hleaf | hleaf
  · left
    obtain ⟨p, hp, hleaf⟩ := mem_leavesOfAll.mp hleaf
    rw [← hothers] at hp
    have hp := (List.mem_filter.mp hp).1
    cases filter with
    | none => cases hp
    | some q =>
      cases q with
      | and children => exact mem_leavesOfAll.mpr ⟨p, hp, hleaf⟩
      | _ => exact List.mem_singleton.mp hp ▸ hleaf
  · right
    simpa [leavesOfAll, leaves] using hleaf

theorem mem_leaves_requireAny {leaf : Predicate} {filter : Option Predicate}
    {alternatives : List Predicate} (h : leaf ∈ (requireAny filter alternatives).leaves) :
    leaf ∈ leavesOf filter ∨ leaf ∈ (Predicate.or alternatives).leaves := by
  cases filter with
  | none => exact .inr h
  | some p =>
    cases hp : p.isEmpty with
    | true =>
      rw [requireAny, if_pos hp] at h
      exact .inr h
    | false =>
      simpa [requireAny, hp, leaves, leavesOfAll] using h

end Roster.Predicate

namespace Roster.Overlay

/-- A filter under an overlay has leaves of the filter and of the overlay's condition only. -/
theorem mem_leavesOf_apply {leaf : Predicate} {o : Overlay} {filter : Option Predicate}
    (h : leaf ∈ Predicate.leavesOf (o.apply filter)) :
    leaf ∈ Predicate.leavesOf filter ∨ leaf ∈ o.condition.leaves := by
  cases o with
  | passThrough => exact .inl h
  | assign path value => simpa [condition, Predicate.leaves] using Predicate.mem_leaves_assign h
  | anyOf alternatives => exact Predicate.mem_leaves_requireAny h
  | parentOwner foreignKey parent ownerField ownerPath owner =>
    simpa [condition, Predicate.leaves] using Predicate.mem_leaves_assign h
  | deny => exact .inl h

end Roster.Overlay
