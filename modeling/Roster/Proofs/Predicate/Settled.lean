import Roster.Proofs.Predicate.Leaves

/-!
# Filters that stripping leaves alone

Stripping does more than take leaves out. A part of a filter that compares nothing, such as a
disjunction without alternatives, disappears as well, and it may have decided the whole. In a
`settled` filter every such part is one that its combinator ignores: in a conjunction it accepts
every row, in a disjunction none. Of a settled filter without leaves on the blocked paths, stripping
keeps the value (`truth_strip`), though not the shape.
-/

namespace Roster

namespace Truth

/-- What is certain adds nothing to a conjunction. -/
theorem all_filter_ne_yes (ts : List Truth) : all (ts.filter (· != .yes)) = all ts := by
  induction ts with
  | nil => rfl
  | cons t ts ih => cases t <;> simp [ih]

/-- What is out of the question adds nothing to a disjunction. -/
theorem any_filter_ne_no (ts : List Truth) : any (ts.filter (· != .no)) = any ts := by
  induction ts with
  | nil => rfl
  | cons t ts ih => cases t <;> simp [ih]

end Truth

namespace Predicate

/-- The predicate compares nothing. -/
def isHollow (p : Predicate) : Bool := p.leaves.isEmpty

mutual

/-- Every part that compares nothing is ignored by the combinator above it. -/
def settled : Predicate → Bool
  | .equals _ _ => true
  | .operator _ _ => true
  | .and children => settledAll .yes children
  | .or children => settledAll .no children
  | .not inner => inner.settled

/-- The same of the parts of a combinator that ignores one truth value. -/
def settledAll (ignored : Truth) : List Predicate → Bool
  | [] => true
  | p :: rest =>
    (if p.isHollow then p.truth .null == ignored else p.settled) && settledAll ignored rest

end

/-- What an optional predicate asks for together. -/
def conjunctsOf (filter : Option Predicate) : List Predicate := (filter.map conjuncts).getD []

/-- A filter under a conjunction with a further condition is settled. -/
def Settled (filter : Option Predicate) : Prop := settledAll .yes (conjunctsOf filter) = true

instance (filter : Option Predicate) : Decidable (Settled filter) :=
  inferInstanceAs (Decidable (_ = true))

/-! ## Conjuncts -/

theorem leavesOfAll_conjunctsOf (filter : Option Predicate) :
    leavesOfAll (conjunctsOf filter) = leavesOf filter := by
  cases filter with
  | none => rfl
  | some p =>
    cases p with
    | and children => rfl
    | _ => simp [conjunctsOf, conjuncts, leavesOfAll]

theorem accepts?_conjunctsOf (filter : Option Predicate) (row : Json) :
    accepts? filter row = (conjunctsOf filter).all (·.accepts row) := by
  cases filter with
  | none => rfl
  | some p =>
    cases p with
    | and children => exact accepts_and children row
    | _ => simp [conjunctsOf, conjuncts, accepts?]

/-- A part with a path is a leaf. -/
theorem leaves_of_path? {p : Predicate} {path : Path} (h : p.path? = some path) :
    p.leaves = [p] := by
  cases p with
  | equals _ _ => rfl
  | operator _ _ => rfl
  | _ => cases h

/-! ## Parts that compare nothing -/

/-- A part without leaves has one value on all rows. -/
theorem truth_of_isHollow {p : Predicate} (hollow : p.isHollow = true) (a b : Json) :
    p.truth a = p.truth b := by
  refine truth_congr p fun path hpath => ?_
  obtain ⟨leaf, hleaf, -⟩ := (mem_paths_iff p).mp hpath
  rw [List.isEmpty_iff.mp hollow] at hleaf
  cases hleaf

theorem isEmpty_of_leaves {p : Predicate} (h : p.leaves ≠ []) : p.isEmpty = false := by
  rw [← Bool.not_eq_true]
  exact fun empty => h (leaves_of_isEmpty empty)

/-- What is composed of parts with leaves has leaves. -/
theorem leaves_of_compose {wrap : List Predicate → Predicate} {ps : List Predicate}
    {p : Predicate} (hwrap : ∀ qs, (wrap qs).leaves = leavesOfAll qs)
    (kept : ∀ q ∈ ps, q.leaves ≠ []) (h : compose wrap ps = some p) : p.leaves ≠ [] := by
  have composed := leavesOf_compose hwrap ps
  rw [h, leavesOf_some] at composed
  rw [composed]
  cases ps with
  | nil => cases h
  | cons q rest =>
    rw [leavesOfAll]
    exact List.append_ne_nil_of_left_ne_nil (kept q List.mem_cons_self) _

mutual

/-- **Nothing without leaves is left by stripping.** -/
theorem leaves_of_strip (blocked : List Path) : (p : Predicate) → {q : Predicate} →
    strip blocked p = some q → q.leaves ≠ []
  | .equals path value, q, h => by
    rw [strip] at h
    split at h
    · cases h
    · cases h
      exact List.cons_ne_nil _ _
  | .operator path filter, q, h => by
    rw [strip] at h
    split at h
    · cases h
    · cases h
      exact List.cons_ne_nil _ _
  | .and children, q, h => leaves_of_compose (fun _ => rfl) (leaves_of_stripAll blocked children) h
  | .or children, q, h => leaves_of_compose (fun _ => rfl) (leaves_of_stripAll blocked children) h
  | .not inner, q, h => by
    obtain ⟨kept, hkept, rfl⟩ := Option.map_eq_some_iff.mp h
    have full : kept.leaves ≠ [] := leaves_of_strip blocked inner hkept
    exact full

theorem leaves_of_stripAll (blocked : List Path) : (ps : List Predicate) →
    ∀ q ∈ stripAll blocked ps, q.leaves ≠ []
  | [] => nofun
  | p :: rest => by
    intro q hq
    rcases List.mem_append.mp hq with hq | hq
    · exact leaves_of_strip blocked p (Option.mem_toList.mp hq)
    · exact leaves_of_stripAll blocked rest q hq

end

/-- A filter without restricted leaves says something, if there is one. -/
theorem isEmpty_of_removeRestricted {filter : Option Predicate} {restricted : List Path}
    {p : Predicate} (h : removeRestricted filter restricted = some p) : p.isEmpty = false := by
  cases filter with
  | none => cases h
  | some q =>
    rw [removeRestricted] at h
    split at h
    · split at h
      · cases h
      · next full => exact Option.some.inj h ▸ Bool.eq_false_iff.mpr full
    · exact isEmpty_of_leaves (leaves_of_strip restricted q h)

/-! ## Values -/

theorem truth_compose_and {ps : List Predicate} {p : Predicate} (h : compose .and ps = some p)
    (row : Json) : p.truth row = .all (truths row ps) := by
  match ps with
  | [] => cases h
  | [q] => cases h; simp [truths]
  | _ :: _ :: _ => cases h; rw [truth]

theorem truth_compose_or {ps : List Predicate} {p : Predicate} (h : compose .or ps = some p)
    (row : Json) : p.truth row = .any (truths row ps) := by
  match ps with
  | [] => cases h
  | [q] => cases h; simp [truths]
  | _ :: _ :: _ => cases h; rw [truth]

mutual

/-- **Stripping keeps the value of a settled predicate without blocked leaves.** -/
theorem truth_strip {blocked : List Path} (row : Json) : (p : Predicate) → p.settled = true →
    (∀ leaf ∈ p.leaves, isOn blocked leaf = false) → {q : Predicate} → strip blocked p = some q →
      q.truth row = p.truth row
  | .equals path value, _, _, q, h => by
    rw [strip] at h
    split at h
    · cases h
    · rw [Option.some.inj h]
  | .operator path filter, _, _, q, h => by
    rw [strip] at h
    split at h
    · cases h
    · rw [Option.some.inj h]
  | .and children, settled, free, q, h => by
    rw [truth_compose_and h, truth, ← Truth.all_filter_ne_yes,
      truths_stripAll row children settled free, Truth.all_filter_ne_yes]
  | .or children, settled, free, q, h => by
    rw [truth_compose_or h, truth, ← Truth.any_filter_ne_no,
      truths_stripAll row children settled free, Truth.any_filter_ne_no]
  | .not inner, settled, free, q, h => by
    obtain ⟨kept, hkept, rfl⟩ := Option.map_eq_some_iff.mp h
    rw [truth, truth, truth_strip row inner settled free hkept]

/-- Of several parts only values that are ignored are lost. -/
theorem truths_stripAll {blocked : List Path} {ignored : Truth} (row : Json) :
    (ps : List Predicate) → settledAll ignored ps = true →
      (∀ leaf ∈ leavesOfAll ps, isOn blocked leaf = false) →
        (truths row (stripAll blocked ps)).filter (· != ignored) =
          (truths row ps).filter (· != ignored)
  | [], _, _ => rfl
  | p :: rest, settled, free => by
    rw [settledAll, Bool.and_eq_true] at settled
    have freeHead : ∀ leaf ∈ p.leaves, isOn blocked leaf = false :=
      fun leaf h => free leaf (List.mem_append_left _ h)
    have tail := truths_stripAll row rest settled.2
      fun leaf h => free leaf (List.mem_append_right _ h)
    -- without blocked leaves, what disappears had no leaves before
    have left := leavesOf_strip blocked p
    rw [List.filter_eq_self.mpr fun leaf h => by rw [freeHead leaf h]; rfl] at left
    rw [stripAll, truths]
    cases hstrip : strip blocked p with
    | none =>
      rw [hstrip, leavesOf_none] at left
      have hollow : p.isHollow = true := by rw [isHollow, ← left]; rfl
      have value : p.truth row = ignored := by
        have known := settled.1
        rw [if_pos hollow, beq_iff_eq] at known
        rw [truth_of_isHollow hollow row .null, known]
      simpa [value] using tail
    | some q =>
      have full : ¬ p.isHollow = true := by
        rw [hstrip, leavesOf_some] at left
        rw [isHollow, ← left, List.isEmpty_iff]
        exact leaves_of_strip blocked p hstrip
      have value : q.truth row = p.truth row := by
        have inner := settled.1
        rw [if_neg full] at inner
        exact truth_strip row p inner freeHead hstrip
      rw [Option.toList_some, List.singleton_append, truths, value, List.filter_cons,
        List.filter_cons, tail]

end

/-- Settled conjuncts without blocked leaves accept the same rows after stripping. -/
theorem accepts?_compose_stripAll {blocked : List Path} {ps : List Predicate}
    (settled : settledAll .yes ps = true)
    (free : ∀ leaf ∈ leavesOfAll ps, isOn blocked leaf = false) (row : Json) :
    accepts? (compose .and (stripAll blocked ps)) row = ps.all (·.accepts row) := by
  rw [accepts?_compose_and, ← accepts_and, ← accepts_and, accepts, accepts, truth, truth,
    ← Truth.all_filter_ne_yes, truths_stripAll row ps settled free, Truth.all_filter_ne_yes]

end Predicate

end Roster
