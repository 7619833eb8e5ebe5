import Roster.Proofs.Predicate.Settled

/-!
# What a restriction takes out of a filter

Taking restricted paths out of a filter removes the leaves on them and below them and no others, and
what comes out has no combinator with fewer than two parts (`removeRestricted_exact`).

The tree is not all that a filter says, though. A combinator that compares nothing has a value as
well, and it goes the way of one that has lost its leaves: `Predicate.core` is what is left of a
predicate when nothing is blocked but all such parts are gone. A conjunct without restricted leaves
therefore survives as its core, whatever stands beside it, and stays in force just when its core
accepts nothing that it refuses itself (`keeps_conjunct_iff`). The disjunction without alternatives,
which refuses every row, has no core and refuses nothing any more (`keeps_conjunct_empty_or`).
-/

namespace Roster.Predicate

/-! ## Leaves on restricted paths -/

/-- A path of the predicate is a restricted one or goes on from it. -/
def OnOrBelow (restricted : List Path) (p : Predicate) : Prop :=
  ∃ path ∈ p.paths, ∃ other ∈ restricted, other.segments <+: path.segments

instance (restricted : List Path) (p : Predicate) : Decidable (p.OnOrBelow restricted) :=
  inferInstanceAs (Decidable (∃ path ∈ p.paths, ∃ other ∈ restricted,
    other.segments <+: path.segments))

theorem isOn_iff {restricted : List Path} {p : Predicate} :
    isOn restricted p = true ↔ p.OnOrBelow restricted := by
  simp only [isOn, isBlockedBy, Path.startsWith, OnOrBelow, List.any_eq_true,
    List.isPrefixOf_iff_prefix]

/-! ## Combinators with several parts -/

mutual

/-- Every conjunction and every disjunction has at least two parts. -/
def branching : Predicate → Bool
  | .equals _ _ => true
  | .operator _ _ => true
  | .and children => decide (2 ≤ children.length) && branchingAll children
  | .or children => decide (2 ≤ children.length) && branchingAll children
  | .not inner => inner.branching

/-- The same of each of several predicates. -/
def branchingAll : List Predicate → Bool
  | [] => true
  | p :: rest => p.branching && branchingAll rest

end

theorem branchingAll_append (ps qs : List Predicate) :
    branchingAll (ps ++ qs) = (branchingAll ps && branchingAll qs) := by
  induction ps with
  | nil => rfl
  | cons p ps ih => rw [List.cons_append, branchingAll, branchingAll, ih, Bool.and_assoc]

/-- Composition makes a combinator for two parts or more only. -/
theorem branching_compose {wrap : List Predicate → Predicate}
    (hwrap : ∀ qs, (wrap qs).branching = (decide (2 ≤ qs.length) && branchingAll qs))
    {ps : List Predicate} {p : Predicate} (parts : branchingAll ps = true)
    (h : compose wrap ps = some p) : p.branching = true := by
  match ps with
  | [] => cases h
  | [q] =>
    cases h
    rw [branchingAll, Bool.and_eq_true] at parts
    exact parts.1
  | q :: q' :: rest =>
    cases h
    rw [hwrap, parts]
    simp

mutual

/-- **Stripping leaves no combinator with fewer than two parts.** -/
theorem branching_strip (blocked : List Path) : (p : Predicate) → {q : Predicate} →
    strip blocked p = some q → q.branching = true
  | .equals path value, q, h => by
    rw [strip] at h
    split at h
    · cases h
    · cases h
      rfl
  | .operator path filter, q, h => by
    rw [strip] at h
    split at h
    · cases h
    · cases h
      rfl
  | .and children, q, h => branching_compose (fun _ => rfl) (branchingAll_stripAll blocked children) h
  | .or children, q, h => branching_compose (fun _ => rfl) (branchingAll_stripAll blocked children) h
  | .not inner, q, h => by
    obtain ⟨kept, hkept, rfl⟩ := Option.map_eq_some_iff.mp h
    have inside : kept.branching = true := branching_strip blocked inner hkept
    exact inside

theorem branchingAll_stripAll (blocked : List Path) : (ps : List Predicate) →
    branchingAll (stripAll blocked ps) = true
  | [] => rfl
  | p :: rest => by
    rw [stripAll, branchingAll_append, branchingAll_stripAll blocked rest, Bool.and_true]
    cases hstrip : strip blocked p with
    | none => rfl
    | some q =>
      show (q.branching && true) = true
      rw [branching_strip blocked p hstrip, Bool.and_true]

end

/-- Stripping leaves nothing just when it leaves no leaf. -/
theorem strip_eq_none_iff {blocked : List Path} {p : Predicate} :
    strip blocked p = none ↔ leavesOf (strip blocked p) = [] := by
  cases hstrip : strip blocked p with
  | none => simp
  | some q => simpa using leaves_of_strip blocked p hstrip

/-- **A restriction takes out exactly the leaves on and below the restricted paths.** The others stay
in their order, nothing is left just when none of them is, and every combinator that is left has two
parts or more. -/
theorem removeRestricted_exact (p : Predicate) {restricted : List Path}
    (restricts : restricted ≠ []) :
    leavesOf (removeRestricted (some p) restricted) =
        p.leaves.filter (fun leaf => ¬ leaf.OnOrBelow restricted) ∧
      (removeRestricted (some p) restricted = none ↔
        leavesOf (removeRestricted (some p) restricted) = []) ∧
      ∀ q, removeRestricted (some p) restricted = some q → q.branching = true := by
  have stripped : removeRestricted (some p) restricted = strip restricted p := by
    rw [removeRestricted, if_neg (by simpa using restricts)]
  rw [stripped]
  refine ⟨?_, strip_eq_none_iff, fun q => branching_strip restricted p⟩
  rw [leavesOf_strip]
  refine List.filter_congr fun leaf _ => ?_
  rw [Bool.eq_iff_iff, Bool.not_eq_true', ← Bool.not_eq_true, isOn_iff, decide_eq_true_iff]

/-- Restricted fields in an alternative, under a negation and behind a relation. -/
theorem removeRestricted_exact_nested :
    let status := Predicate.equals ⟨["status"]⟩ (.text "NEW")
    let title := Predicate.equals ⟨["job", "title"]⟩ (.text "Cook")
    let notes := Predicate.operator ⟨["reviewNotes"]⟩ { contains := some "strong" }
    let salary := Predicate.operator ⟨["job", "salaryMin"]⟩ { gte := some (.int 100) }
    let p := Predicate.and [.or [notes, status], .not (.equals ⟨["score"]⟩ (.int 1)), salary, title]
    let restricted : List Path := [⟨["reviewNotes"]⟩, ⟨["score"]⟩, ⟨["job", "salaryMin"]⟩]
    restricted ≠ [] ∧ leavesOf (removeRestricted (some p) restricted) = [status, title] ∧
      removeRestricted (some p) restricted ≠ none := by
  intro status title notes salary p restricted
  obtain ⟨kept, nothing, -⟩ := removeRestricted_exact p (List.cons_ne_nil _ _ : restricted ≠ [])
  have left : leavesOf (removeRestricted (some p) restricted) = [status, title] := by
    rw [kept]
    rfl
  refine ⟨List.cons_ne_nil _ _, left, fun gone => ?_⟩
  rw [nothing, left] at gone
  cases gone

/-! ## Conjuncts without restricted leaves -/

/-- What is left of a predicate without the parts that compare nothing. -/
def core (p : Predicate) : Option Predicate := strip [] p

mutual

/-- Without blocked leaves, whatever is blocked is the same as nothing. -/
theorem strip_of_free {blocked : List Path} : (p : Predicate) →
    (∀ leaf ∈ p.leaves, isOn blocked leaf = false) → strip blocked p = p.core
  | .equals path value, free => by
    have off : isBlockedBy blocked path = false := by
      simpa [isOn, paths] using free _ List.mem_cons_self
    rw [core, strip, strip, off]
    rfl
  | .operator path filter, free => by
    have off : isBlockedBy blocked path = false := by
      simpa [isOn, paths] using free _ List.mem_cons_self
    rw [core, strip, strip, off]
    rfl
  | .and children, free => by rw [core, strip, strip, stripAll_of_free children free]
  | .or children, free => by rw [core, strip, strip, stripAll_of_free children free]
  | .not inner, free => by
    rw [core, strip, strip, strip_of_free inner free]
    rfl

theorem stripAll_of_free {blocked : List Path} : (ps : List Predicate) →
    (∀ leaf ∈ leavesOfAll ps, isOn blocked leaf = false) → stripAll blocked ps = stripAll [] ps
  | [], _ => rfl
  | p :: rest, free => by
    rw [stripAll, stripAll, strip_of_free p fun leaf h => free leaf (List.mem_append_left _ h),
      stripAll_of_free rest fun leaf h => free leaf (List.mem_append_right _ h)]
    rfl

end

/-- What is left of several predicates accepts what each accepts that something is left of. -/
theorem all_accepts_stripAll (blocked : List Path) (ps : List Predicate) (row : Json) :
    (stripAll blocked ps).all (·.accepts row) = ps.all fun p => accepts? (strip blocked p) row := by
  induction ps with
  | nil => rfl
  | cons p rest ih =>
    rw [stripAll, List.all_append, ih, List.all_cons]
    cases strip blocked p with
    | none => rfl
    | some q => simp [accepts?]

/-- A restricted conjunction accepts what is accepted by that which is left of every conjunct. -/
theorem accepts?_removeRestricted_and {restricted : List Path} (restricts : restricted ≠ [])
    (conjuncts : List Predicate) (row : Json) :
    accepts? (removeRestricted (some (.and conjuncts)) restricted) row =
      conjuncts.all fun p => accepts? (strip restricted p) row := by
  rw [removeRestricted, if_neg (by simpa using restricts), strip, accepts?_compose_and,
    all_accepts_stripAll]

/-- Without restrictions a conjunction stays in force as it is. -/
theorem accepts?_removeRestricted_nil (conjuncts : List Predicate) (row : Json) :
    accepts? (removeRestricted (some (.and conjuncts)) []) row =
      conjuncts.all (·.accepts row) := by
  cases conjuncts with
  | nil => rfl
  | cons p rest => exact accepts_and (p :: rest) row

theorem core_eq_compose (p : Predicate) :
    p.core = compose .and (stripAll [] (conjunctsOf (some p))) := by
  have alone : p.core = compose .and (stripAll [] [p]) := by
    rw [stripAll, stripAll, List.append_nil, core]
    cases strip [] p <;> rfl
  cases p with
  | and children => rfl
  | _ => exact alone

/-- A settled predicate accepts what its core accepts. -/
theorem accepts?_core {p : Predicate} (settled : Settled (some p)) (row : Json) :
    accepts? p.core row = p.accepts row := by
  have free : ∀ leaf ∈ leavesOfAll (conjunctsOf (some p)), isOn [] leaf = false :=
    fun leaf _ => by simp [isOn, isBlockedBy]
  calc accepts? p.core row
      = (conjunctsOf (some p)).all (·.accepts row) := by
        rw [core_eq_compose, accepts?_compose_stripAll settled free]
    _ = p.accepts row := (accepts?_conjunctsOf (some p) row).symm

/-- **Which conjuncts a restriction leaves in force.** Where nothing is restricted all of them stay.
Else a conjunct without restricted leaves holds of all that is accepted, whatever stands beside it,
just when its core accepts nothing that it refuses. A settled one has the value of its core. -/
theorem keeps_conjunct_iff {c : Predicate} {restricted : List Path}
    (free : ∀ leaf ∈ c.leaves, ¬ leaf.OnOrBelow restricted) :
    ((∀ conjuncts row, c ∈ conjuncts →
        accepts? (removeRestricted (some (.and conjuncts)) restricted) row = true →
          c.accepts row = true) ↔
      restricted = [] ∨ ∀ row, accepts? c.core row = true → c.accepts row = true) ∧
    (Settled (some c) → ∀ row, accepts? c.core row = c.accepts row) := by
  have survives : strip restricted c = c.core :=
    strip_of_free c fun leaf h => Bool.eq_false_iff.mpr fun on => free leaf h (isOn_iff.mp on)
  refine ⟨⟨fun law => ?_, fun sound conjuncts row member accepted => ?_⟩, accepts?_core⟩
  · by_cases restricts : restricted = []
    · exact .inl restricts
    · -- the conjunct alone is what its core is
      refine .inr fun row accepted => law [c] row List.mem_cons_self ?_
      rw [accepts?_removeRestricted_and restricts, List.all_cons, survives, accepted]
      rfl
  · by_cases restricts : restricted = []
    · rw [restricts, accepts?_removeRestricted_nil] at accepted
      exact List.all_eq_true.mp accepted c member
    · rw [accepts?_removeRestricted_and restricts] at accepted
      have kept := List.all_eq_true.mp accepted c member
      rw [survives] at kept
      exact sound.resolve_left restricts row kept

/-- A choice of two states stays in force beside a score that is taken out. -/
theorem keeps_conjunct_iff_choice :
    let c := Predicate.or [.equals ⟨["status"]⟩ (.text "NEW"), .equals ⟨["status"]⟩ (.text "HIRED")]
    let restricted : List Path := [⟨["score"]⟩]
    (∀ leaf ∈ c.leaves, ¬ leaf.OnOrBelow restricted) ∧ ∀ conjuncts row, c ∈ conjuncts →
      accepts? (removeRestricted (some (.and conjuncts)) restricted) row = true →
        c.accepts row = true := by
  intro c restricted
  have free : ∀ leaf ∈ c.leaves, ¬ leaf.OnOrBelow restricted := by decide
  obtain ⟨law, core⟩ := keeps_conjunct_iff free
  refine ⟨free, law.mpr (.inr fun row accepted => ?_)⟩
  rwa [core (by decide) row] at accepted

/-- **An empty disjunction does not stay in force.** It refuses every row and has no leaf; beside a
score that is taken out it disappears, and every row is accepted. -/
theorem keeps_conjunct_empty_or :
    let c := Predicate.or []
    let restricted : List Path := [⟨["score"]⟩]
    let conjuncts := [c, .equals ⟨["score"]⟩ (.int 5)]
    let row := Json.obj [("status", .str "NEW")]
    c ∈ conjuncts ∧ (∀ leaf ∈ c.leaves, ¬ leaf.OnOrBelow restricted) ∧
      accepts? (removeRestricted (some (.and conjuncts)) restricted) row = true ∧
      c.accepts row = false := by
  intro c restricted conjuncts row
  exact ⟨List.mem_cons_self, nofun, rfl, rfl⟩

end Roster.Predicate
