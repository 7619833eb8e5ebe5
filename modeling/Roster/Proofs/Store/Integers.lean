import Roster.Proofs.Predicate.Integers
import Roster.Proofs.Store.Columns
import Roster.Proofs.Store.Order
import Roster.Schema.Recruiting

/-!
# Columns of integers

Filters and sort keys read the integers of a column through the doubles nearest to them. So both read
them exactly but for pairs of integers that have one nearest double (`Double.Blurs`): a filter takes
such an integer for its operand, and a sort key takes two such rows for tied (`Tables.reads_integers`).
No integer between -2⁵³ and 2⁵³ is in such a pair.
-/

namespace Roster

variable {row : Json} {name : String} {a b : Int}

/-! ## Filters -/

/-- A test of a column that holds an integer is a test of the integer. -/
theorem holds_leafTruth_integer (held : row.field name = .num (.int a)) (test : Json → Truth) :
    (leafTruth row ⟨[name]⟩ test).holds = (test (.num (.int a))).holds := by
  have object : row.isObject = true := by
    cases row with
    | obj fields => rfl
    | _ => cases held
  rw [Predicate.holds_leafTruth, Path.valuesIn_column object, held]
  exact Bool.or_false _

/-- A filter on such a column accepts the row if all its comparisons accept the integer. -/
theorem accepts_operator_column (held : row.field name = .num (.int a)) (f : Filter) :
    (Predicate.operator ⟨[name]⟩ f).accepts row = true ↔
      ∀ c ∈ f.comparisons, (c.truth f.ignoreCase (.num (.int a))).holds = true := by
  rw [Predicate.accepts, Predicate.truth, holds_leafTruth_integer held, Filter.holds_truth,
    List.all_eq_true]

/-- The shorthand for equality is the comparison without a filter. -/
theorem accepts_equals_column (held : row.field name = .num (.int a)) (s : Scalar) :
    (Predicate.equals ⟨[name]⟩ s).accepts row = true ↔
      ((Comparison.equals s).truth false (.num (.int a))).holds = true := by
  rw [Predicate.accepts, Predicate.truth, holds_leafTruth_integer held, Comparison.truth]

/-- The shorthand for equality takes an integer that blurs with the operand for the operand. -/
theorem accepts_equals_integer (held : row.field name = .num (.int a)) (b : Int64) :
    (Predicate.equals ⟨[name]⟩ (.int b)).accepts row = true ↔
      a = b.toInt ∨ Double.Blurs a b.toInt := by
  have reads {other : Int} (seen : (Comparison.equals (.int b)).SeenAs a other) :
      (Predicate.equals ⟨[name]⟩ (.int b)).accepts row = true ↔ b.toInt = other := by
    rw [accepts_equals_column held, Comparison.holds_truth_integer rfl seen]
    exact Option.some.injEq _ _ ▸ Iff.rfl
  by_cases blurs : Double.Blurs a b.toInt
  · exact iff_of_true ((reads (Comparison.seenAs_operand rfl rfl blurs)).mpr rfl) (.inr blurs)
  · rw [or_iff_left blurs, reads, eq_comm]
    refine Comparison.seenAs_self fun s hs c hc => ?_
    cases List.mem_singleton.mp hs
    cases hc
    exact blurs

/-- The filter accepts the rows that hold one integer in its column if all its comparisons are true of
another one. -/
def Filter.ReadsAs (f : Filter) (a other : Int) : Prop :=
  ∀ (row : Json) (name : String), row.field name = .num (.int a) →
    ((Predicate.operator ⟨[name]⟩ f).accepts row = true ↔ ∀ c ∈ f.comparisons, c.Relates other)

theorem Filter.readsAs_of_seen {f : Filter} {other : Int}
    (integers : ∀ c ∈ f.comparisons, c.ofIntegers = true)
    (seen : ∀ c ∈ f.comparisons, c.SeenAs a other) : f.ReadsAs a other := by
  intro row name held
  rw [accepts_operator_column held]
  refine forall_congr' fun c => imp_congr_right fun member => ?_
  exact Comparison.holds_truth_integer (integers c member) (seen c member)

/-! ## Sort keys -/

/-- How integers compare in a direction. -/
def Direction.order : Direction → Int → Int → Ordering
  | .asc, a, b => compare a b
  | .desc, a, b => compare b a

variable {k : SortKey} {x y : Json}

theorem Direction.order_eq_iff (d : Direction) : d.order a b = .eq ↔ a = b := by
  cases d with
  | asc => exact compare_eq_iff_eq
  | desc => exact compare_eq_iff_eq.trans eq_comm

/-- A sort key compares rows with integers in its direction. -/
theorem SortKey.compareRows_integer (hx : x.field k.path.leaf = .num (.int a))
    (hy : y.field k.path.leaf = .num (.int b)) :
    k.compareRows x y = if Double.Blurs a b then .eq else k.direction.order a b := by
  have column : compareColumn (x.field k.path.leaf) (y.field k.path.leaf) =
      if Double.Blurs a b then .eq else compare a b := by
    rw [hx, hy]
    exact Double.order_ofInt a b
  rw [compareRows, column]
  cases k.direction with
  | asc => rfl
  | desc =>
    have swapped : compare b a = (compare a b).swap := Std.OrientedCmp.eq_swap
    rw [Direction.order, swapped]
    dsimp only
    split <;> rfl

/-- A sort key ties two rows whose integers are equal or blur. -/
theorem SortKey.compareRows_integer_eq_iff (hx : x.field k.path.leaf = .num (.int a))
    (hy : y.field k.path.leaf = .num (.int b)) :
    k.compareRows x y = .eq ↔ a = b ∨ Double.Blurs a b := by
  rw [compareRows_integer hx hy]
  split
  · next blurs => exact iff_of_true rfl (.inr blurs)
  · next apart => rw [Direction.order_eq_iff, or_iff_left apart]

namespace Tables

/-- **Integers are read exactly, but for pairs that have one nearest double.** A filter of comparisons
with integers accepts a row if the relations hold that the comparisons are named for, as long as no
operand blurs with the integer of the row; if the only operand does, they have to hold of the operand.
Fetched rows with integers stand in the direction of the first sort key, none of the matching rows is
missing without a window, and two are tied by the key if their integers are equal or blur. -/
theorem reads_integers (t : Tables) (r : Registry) (e : Entity) {q : Descriptor} {rest : List SortKey}
    (sorted : q.orderBy = some (k :: rest))
    (numbers : ∀ row ∈ t.matching r e q.filter,
      ColumnSort.numbers.admits (row.field k.path.leaf) = true)
    {f : Filter} (integers : ∀ c ∈ f.comparisons, c.ofIntegers = true) (a : Int) :
    ((∀ c ∈ f.comparisons, ∀ s ∈ c.operands, ∀ b ∈ s.integer?, ¬Double.Blurs a b) →
        f.ReadsAs a a) ∧
      (∀ b : Int64, (∀ c ∈ f.comparisons, c.operands = [.int b]) → Double.Blurs a b.toInt →
        f.ReadsAs a b.toInt) ∧
      (∀ (row : Json) (name : String), row.field name = .num (.int a) → ∀ b : Int64,
        (Predicate.equals ⟨[name]⟩ (.int b)).accepts row = true ↔
          a = b.toInt ∨ Double.Blurs a b.toInt) ∧
      ((t.fetch r e q).rows.Pairwise fun x y => ∀ i j, x.field k.path.leaf = .num (.int i) →
        y.field k.path.leaf = .num (.int j) →
          (k.direction.order i j).isLE = true ∨ Double.Blurs i j) ∧
      (t.fetch r e { q with skip := none, take := none }).rows.Perm (t.matching r e q.filter) ∧
      (∀ x y i j, x.field k.path.leaf = .num (.int i) → y.field k.path.leaf = .num (.int j) →
        (k.compareRows x y = .eq ↔ i = j ∨ Double.Blurs i j)) ∧
      (a.natAbs < Nat.pow 2 53 → ∀ b, ¬Double.Blurs a b) := by
  refine ⟨fun apart => Filter.readsAs_of_seen integers fun c member =>
      Comparison.seenAs_self (apart c member),
    fun b only blurs => Filter.readsAs_of_seen integers fun c member =>
      Comparison.seenAs_operand (only c member) rfl blurs,
    fun row name held b => accepts_equals_integer held b,
    (pairwise_fetch_first sorted ⟨.numbers, numbers⟩).imp fun {x y} le i j hx hy => ?_,
    rows_fetch_whole t r e q ▸ sortRows_perm _ _,
    fun x y i j hx hy => SortKey.compareRows_integer_eq_iff hx hy,
    Double.not_blurs_of_natAbs_lt⟩
  rw [SortKey.compareRows_integer hx hy] at le
  split at le
  · next blurs => exact .inr blurs
  · exact .inl le

/-- Salaries by which jobs are sorted, from the one without down to the lowest; a filter that reads one of
them exactly, and one that takes a salary for the bound beside it. -/
theorem reads_integers_salaries :
    let job (id : String) (salary : Json) : Json := .obj [("id", .str id), ("salaryMin", salary)]
    let bound : Int64 := 9007199254740992
    let rows := [job "a" (.ofNat 40), job "b" .null, job "c" (.ofNat 50),
      job "d" (.ofInt (bound.toInt + 1))]
    let t : Tables := ⟨[("jobs", rows)]⟩
    let q : Descriptor := { orderBy := some [⟨⟨["salaryMin"]⟩, .desc⟩] }
    let range : Filter := { gt := some (.int 40), noneOf := some [.int 30, .int 60] }
    let upTo : Filter := { lte := some (.int bound) }
    range.ReadsAs 50 50 ∧ upTo.ReadsAs (bound.toInt + 1) bound.toInt ∧
      (t.fetch .recruiting Registry.jobs q).rows.Pairwise fun x y =>
        ∀ i j, x.field "salaryMin" = .num (.int i) → y.field "salaryMin" = .num (.int j) →
          (compare j i).isLE = true ∨ Double.Blurs i j := by
  intro job bound rows t q range upTo
  have sorted : q.orderBy = some [⟨⟨["salaryMin"]⟩, .desc⟩] := rfl
  have numbers : ∀ row ∈ t.matching .recruiting Registry.jobs q.filter,
      ColumnSort.numbers.admits (row.field "salaryMin") = true := by decide
  have ranged := reads_integers t .recruiting Registry.jobs sorted numbers (f := range) (by decide) 50
  have bounded := reads_integers t .recruiting Registry.jobs sorted numbers (f := upTo) (by decide)
    (bound.toInt + 1)
  refine ⟨ranged.1 fun c _ s _ b _ => ranged.2.2.2.2.2.2 (by decide) b,
    bounded.2.1 bound (fun c member => ?_) (by decide +kernel), ranged.2.2.2.1⟩
  rw [List.mem_singleton.mp member]
  rfl

/-- Two integers with one nearest double: every comparison takes them for equal, and a sort leaves the
greater one first. -/
theorem reads_integers_blurred :
    let great : Int64 := 9007199254740993
    let bound : Int64 := 9007199254740992
    let job (id : String) (salary : Int64) : Json :=
      .obj [("id", .str id), ("salaryMin", .ofInt salary.toInt)]
    let accepts (f : Filter) := (Predicate.operator ⟨["salaryMin"]⟩ f).accepts (job "a" great)
    let t : Tables := ⟨[("jobs", [job "a" great, job "b" bound])]⟩
    let q : Descriptor := { orderBy := some [⟨⟨["salaryMin"]⟩, .asc⟩] }
    bound.toInt < great.toInt ∧
      (accepts { equals := some (.int bound) } = true ∧ accepts { oneOf := some [.int bound] } = true ∧
        accepts { lte := some (.int bound) } = true) ∧
      (accepts { differs := some (.int bound) } = false ∧
        accepts { noneOf := some [.int bound] } = false ∧
        accepts { gt := some (.int bound) } = false) ∧
      (t.fetch .recruiting Registry.jobs q).rows = [job "a" great, job "b" bound] := by
  intro great bound job accepts t q
  refine ⟨by decide, by decide +kernel, by decide +kernel, ?_⟩
  have tied : compareRows [⟨⟨["salaryMin"]⟩, .asc⟩] (job "b" bound) (job "a" great) ≠ .lt := by
    decide +kernel
  have matched : t.matching .recruiting Registry.jobs q.filter = [job "a" great, job "b" bound] := rfl
  have whole := rows_fetch_whole t .recruiting Registry.jobs q
  rw [whole, Option.getD_some, matched, sortRows, List.foldl_cons, List.foldl_cons, List.foldl_nil,
    insertRow, insertRow, if_neg tied, List.reverse_cons, List.reverse_singleton,
    List.singleton_append]

end Tables

end Roster
