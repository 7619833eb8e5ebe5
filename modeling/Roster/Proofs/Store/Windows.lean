import Roster.Proofs.Client.Paging
import Roster.Proofs.Number.Rounding
import Roster.Proofs.Store.Order
import Roster.Proofs.Store.Reordering
import Roster.Schema.Recruiting

/-!
# Windows of one order

Rows whose sort columns hold values of one sort, null aside, and that have different texts as their
`id`, are put in one order by a query: the order of its keys, and of the `id` where they do not decide
(`Precedes`). The windows of the query are pieces of the rows in this order, and it is the same however
the tables were filled (`Tables.windows_tile`).

Two things stand in the way of more (`Tables.first_of_twins`). Numbers are compared as doubles, so
nothing is said here of two numbers that have one nearest double. And a filter can see how tables were
filled where a relation to a single row leads to several.
-/

namespace Roster

/-! ## The order of values -/

namespace Json

/-- The value comes before the other one: a number, a text or a truth value before a greater one, and
each of them before null. -/
def Below : Json → Json → Prop
  | .null, _ => False
  | _, .null => True
  | .num m, .num n => m.value < n.value
  | .str s, .str u => s < u
  | .bool b, .bool c => b < c
  | _, _ => False

/-- The values are the same; numbers can be written in different ways. -/
def Alike : Json → Json → Prop
  | .num m, .num n => m.value = n.value
  | v, w => v = w

/-- Two different numbers with one nearest double. -/
def Blurred (v w : Json) : Prop :=
  ∃ m n, v = .num m ∧ w = .num n ∧ m.value ≠ n.value ∧ m.toDouble.order n.toDouble = .eq

theorem below_of_compareColumn {a b : Json} (h : compareColumn a b = .lt) : a.Below b := by
  cases a with
  | null => cases b <;> cases h
  | num m =>
    cases b with
    | null => trivial
    | num n => exact Number.value_lt_of_order h
    | _ => cases h
  | str s =>
    cases b with
    | null => trivial
    | str u => exact compare_lt_iff_lt.mp h
    | _ => cases h
  | bool c =>
    cases b with
    | null => trivial
    | bool d => exact compare_lt_iff_lt.mp h
    | _ => cases h
  | arr _ => cases b <;> trivial
  | obj _ => cases b <;> trivial

theorem alike_of_compareColumn (sort : ColumnSort) {a b : Json} (ha : sort.admits a = true)
    (hb : sort.admits b = true) (h : compareColumn a b = .eq) : a.Alike b ∨ a.Blurred b := by
  cases a with
  | null =>
    cases b with
    | null => exact .inl rfl
    | _ => cases h
  | num m =>
    cases b with
    | null => cases h
    | num n =>
      by_cases same : m.value = n.value
      · exact .inl same
      · exact .inr ⟨m, n, rfl, rfl, same, h⟩
    | _ =>
      cases sort with
      | numbers => cases hb
      | _ => cases ha
  | str s =>
    cases b with
    | null => cases h
    | str u => exact .inl (congrArg str (compare_eq_iff_eq.mp h))
    | _ =>
      cases sort with
      | texts => cases hb
      | _ => cases ha
  | bool c =>
    cases b with
    | null => cases h
    | bool d => exact .inl (congrArg bool (compare_eq_iff_eq.mp h))
    | _ =>
      cases sort with
      | truths => cases hb
      | _ => cases ha
  | _ => cases sort <;> cases ha

end Json

/-! ## The order of rows -/

/-- A key puts a row before another one. -/
def SortKey.Puts (k : SortKey) (a b : Json) : Prop :=
  match k.direction with
  | .asc => (a.field k.path.leaf).Below (b.field k.path.leaf)
  | .desc => (b.field k.path.leaf).Below (a.field k.path.leaf)

theorem SortKey.compareRows_eq_iff {k : SortKey} {a b : Json} :
    k.compareRows a b = .eq ↔
      compareColumn (a.field k.path.leaf) (b.field k.path.leaf) = .eq := by
  unfold compareRows
  cases k.direction with
  | asc => rfl
  | desc => exact Ordering.swap_eq_eq

/-- A key that decides puts one row before the other. -/
theorem SortKey.puts_of_compareRows {k : SortKey} {a b : Json} (sort : ColumnSort)
    (ha : sort.admits (a.field k.path.leaf) = true) (hb : sort.admits (b.field k.path.leaf) = true)
    (h : k.compareRows a b = .lt) : k.Puts a b := by
  unfold Puts
  unfold compareRows at h
  cases hk : k.direction with
  | asc =>
    rw [hk] at h
    exact Json.below_of_compareColumn h
  | desc =>
    rw [hk] at h
    have other : compareColumn (b.field k.path.leaf) (a.field k.path.leaf) = .lt := by
      rw [Json.compareColumn_of_admits sort ha hb] at h
      rw [Json.compareColumn_of_admits sort hb ha]
      exact Std.OrientedCmp.eq_swap.trans h
    exact Json.below_of_compareColumn other

/-- A row comes before another one: by the first key that tells them apart, or else by the `id`. Where
a key stands for two numbers that have one nearest double, nothing is said. -/
def Precedes : List SortKey → Json → Json → Prop
  | [], a, b => (a.field "id").Below (b.field "id")
  | k :: rest, a, b =>
    k.Puts a b ∨ (a.field k.path.leaf).Blurred (b.field k.path.leaf) ∨
      (a.field k.path.leaf).Alike (b.field k.path.leaf) ∧ Precedes rest a b

/-- Rows that keys put in one order: the values of a column are of one sort, and each row has a text of
its own as `id`. -/
structure Sortable (keys : List SortKey) (rows : List Json) : Prop where
  uniform : ∀ k ∈ keys, Uniform k.path.leaf rows
  identified : ∀ row ∈ rows, row.Identified
  distinct : (rows.map (·.field "id")).Nodup

variable {keys : List SortKey} {rows : List Json} {a b : Json}

theorem precedes_of_compareRows (uniform : ∀ k ∈ keys, Uniform k.path.leaf rows) (ha : a ∈ rows)
    (hb : b ∈ rows) (h : compareRows keys a b = .lt) : Precedes keys a b := by
  induction keys with
  | nil => exact Json.below_of_compareColumn h
  | cons k rest ih =>
    obtain ⟨sort, admits⟩ := uniform k List.mem_cons_self
    rw [compareRows, Ordering.then_eq_lt] at h
    rcases h with decided | ⟨tied, further⟩
    · exact .inl (SortKey.puts_of_compareRows sort (admits a ha) (admits b hb) decided)
    · rw [SortKey.compareRows_eq_iff] at tied
      rcases Json.alike_of_compareColumn sort (admits a ha) (admits b hb) tied with alike | blurred
      · have fewer : ∀ k ∈ rest, Uniform k.path.leaf rows := fun other member =>
          uniform other (List.mem_cons_of_mem _ member)
        exact .inr (.inr ⟨alike, ih fewer further⟩)
      · exact .inr (.inl blurred)

/-- Rows that are not told apart have one `id`. -/
theorem field_id_of_rowOrder (ha : a.Identified) (hb : b.Identified) (h : rowOrder keys a b = .eq) :
    a.field "id" = b.field "id" := by
  induction keys with
  | nil =>
    obtain ⟨i, hi⟩ := ha
    obtain ⟨j, hj⟩ := hb
    have same : Json.compareSorted (.str i) (.str j) = .eq := by
      rw [← hi, ← hj]
      exact h
    rw [← Json.compareColumn_of_admits .texts rfl rfl] at same
    rw [hi, hj, compare_eq_iff_eq.mp same]
  | cons k rest ih => exact ih (Ordering.then_eq_eq.mp h).2

namespace Sortable

/-- Rows with some different texts as their identifiers. -/
theorem of_ids (uniform : ∀ k ∈ keys, Uniform k.path.leaf rows) (ids : List String)
    (same : rows.map (·.field "id") = ids.map .str) (distinct : ids.Nodup) : Sortable keys rows where
  uniform := uniform
  identified row member := by
    have listed : row.field "id" ∈ ids.map .str := same ▸ List.mem_map_of_mem member
    obtain ⟨id, -, hid⟩ := List.mem_map.mp listed
    exact ⟨id, hid.symm⟩
  distinct := by
    rw [same]
    exact distinct.map fun _ _ => Json.str.inj

theorem ordersAs (sortable : Sortable keys rows) : OrdersAs keys (rowOrder keys) rows :=
  ordersAs_rowOrder sortable.uniform sortable.identified

theorem told (sortable : Sortable keys rows) :
    ∀ a ∈ rows, ∀ b ∈ rows, rowOrder keys a b = .eq → a = b := by
  intro a ha b hb same
  exact List.inj_on_of_nodup_map sortable.distinct ha hb
    (field_id_of_rowOrder (sortable.identified a ha) (sortable.identified b hb) same)

/-- **Sorted rows come one after the other.** -/
theorem pairwise_precedes (sortable : Sortable keys rows) :
    (sortRows keys rows).Pairwise (Precedes keys) := by
  have kept := sortRows_perm keys rows
  have different : (sortRows keys rows).Pairwise (· ≠ ·) :=
    kept.nodup_iff.mpr sortable.distinct.of_map
  refine ((pairwise_sortRows sortable.ordersAs).and different).imp_of_mem ?_
  rintro a b ha hb ⟨le, apart⟩
  have ha := kept.mem_iff.mp ha
  have hb := kept.mem_iff.mp hb
  refine precedes_of_compareRows sortable.uniform ha hb ?_
  rw [sortable.ordersAs a ha b hb]
  exact (Ordering.isLE_iff_eq_lt_or_eq_eq.mp le).resolve_right
    fun same => apart (sortable.told a ha b hb same)

end Sortable

/-! ## Windows -/

namespace Tables

/-- **The windows of a query are pieces of one order.** Without a window the rows that the filter
matches come in the order of the keys, nulls last and ties decided by the `id`. The order is the same
however tables are filled, unless the filter goes through a relation to a single row that leads to
several. Windows of one size side by side give all of these rows, each once. The count is the number
of matching rows, whatever the window. -/
theorem windows_tile (t : Tables) (r : Registry) (e : Entity) (q : Descriptor)
    (sortable : Sortable (q.orderBy.getD []) (t.matching r e q.filter)) :
    let rows := t.matching r e q.filter
    let whole := (t.fetch r e { q with skip := none, take := none }).rows
    whole.Perm rows ∧ whole.Pairwise (Precedes (q.orderBy.getD [])) ∧
      (∀ t' : Tables, t'.Reorders t → t'.SteadyFor t r e q.filter →
        ∀ skip take, t'.fetch r e { q with skip := skip, take := take } =
          t.fetch r e { q with skip := skip, take := take }) ∧
      (∀ size count, rows.length ≤ count * size →
        ((List.range count).map fun page => (t.fetch r e (q.window (page * size) size)).rows).flatten =
          whole) ∧
      (∀ skip take, (t.fetch r e { q with skip := skip, take := take }).total = rows.length) ∧
      t.count r e q.filter = rows.length := by
  intro rows whole
  have sorted : whole = sortRows (q.orderBy.getD []) rows := rows_fetch_whole t r e q
  refine ⟨sorted ▸ sortRows_perm _ _, sorted ▸ sortable.pairwise_precedes,
    fun t' reorders steady skip take => ?_, fun size count enough => ?_, fun _ _ => rfl, rfl⟩
  · have perm := matching_reordered reorders steady
    have same := sortRows_eq_of_perm sortable.ordersAs sortable.told perm
    unfold fetch
    simp only [same, perm.length_eq]
  · have cut := flatten_pageOf whole size count
    rw [List.take_of_length_le (by rwa [sorted, length_sortRows])] at cut
    rw [← cut]
    rfl

/-- Three applications from the best score to the one without, two and two, of those for a job with a
title. They come in this order too when the applications and the jobs have been put in another one. -/
theorem windows_tile_applications :
    let application (id : String) (score : Json) : Json :=
      .obj [("id", .str id), ("jobId", .str "j"), ("score", score)]
    let job (id title : String) : Json := .obj [("id", .str id), ("title", .str title)]
    let rows := [application "b" (.ofNat 5), application "c" .null, application "a" (.ofNat 5)]
    let jobs := [job "i" "Porter", job "j" "Cook"]
    let t : Tables := ⟨[("applications", rows), ("jobs", jobs)]⟩
    let t' : Tables := ⟨[("applications", rows.reverse), ("jobs", jobs.reverse)]⟩
    let q : Descriptor :=
      { filter := some (.equals ⟨["job", "title"]⟩ (.text "Cook"))
        orderBy := some [⟨⟨["score"]⟩, .desc⟩] }
    let window (t : Tables) (skip : Nat) :=
      (t.fetch .recruiting Registry.applications (q.window skip 2)).rows
    Sortable (q.orderBy.getD []) (t.matching .recruiting Registry.applications q.filter) ∧
      (t'.Reorders t ∧ t'.SteadyFor t .recruiting Registry.applications q.filter) ∧
      (window t 0 ++ window t 2).Perm rows ∧
      (window t 0 ++ window t 2).Pairwise (Precedes (q.orderBy.getD [])) ∧
      window t' 0 ++ window t' 2 = window t 0 ++ window t 2 := by
  intro application job rows jobs t t' q window
  have all : ∀ row ∈ t.of Registry.applications.name,
      q.filter.all (t.passes .recruiting Registry.applications · row) = true := by
    decide +kernel
  have matched : t.matching .recruiting Registry.applications q.filter = rows := by
    rw [matching_eq, List.filter_eq_self.mpr all]
    rfl
  have sortable :
      Sortable (q.orderBy.getD []) (t.matching .recruiting Registry.applications q.filter) := by
    rw [matched]
    refine .of_ids (fun k member => ?_) ["b", "c", "a"] rfl (by decide)
    rw [List.mem_singleton.mp member]
    exact ⟨.numbers, by decide⟩
  have reorders : t'.Reorders t :=
    Reorders.cons _ (List.reverse_perm rows) (Reorders.cons _ (List.reverse_perm jobs) Reorders.nil)
  have steady : t'.SteadyFor t .recruiting Registry.applications q.filter := by
    intro p hp path member
    cases hp
    rw [List.mem_singleton.mp member]
    intro l target hl ht
    have link : l = ⟨"job", "jobs", "jobId", "id", true⟩ := Option.some.inj (hl.symm.trans rfl)
    subst link
    have found : target = Registry.jobs := Option.some.inj (ht.symm.trans rfl)
    subst found
    exact ⟨fun _ => .inr (by decide), trivial⟩
  obtain ⟨perm, ordered, same, tiles, -⟩ :=
    windows_tile t .recruiting Registry.applications q sortable
  have pieces := tiles 2 2 (by rw [matched]; decide)
  have range : List.range 2 = [0, 1] := rfl
  simp only [range, List.map_cons, List.map_nil, List.flatten_cons, List.flatten_nil,
    List.append_nil, Nat.zero_mul, Nat.one_mul] at pieces
  rw [← pieces] at perm ordered
  have alike (skip : Nat) : window t' skip = window t skip :=
    congrArg (fun page => page.rows) (same t' reorders steady (some skip) (some 2))
  refine ⟨sortable, ⟨reorders, steady⟩, ?_, ordered, ?_⟩
  · exact perm.trans (.of_eq matched)
  · rw [alike, alike]

/-- Two items with one key, of which a relation to a single row reaches the first: which of them it is
depends on how the table was filled, and so does what the filter matches. And two jobs with numbers
beyond 53 bits, of which the greater one is put first, since their nearest double is the same. -/
theorem first_of_twins :
    let item (id title : String) : Json :=
      .obj [("id", .str id), ("group", .str "g"), ("title", .str title)]
    let items : Entity :=
      { name := "items", table := "items", listable := true
        fields := [⟨"id", "id", .text⟩, ⟨"group", "group", .text⟩, ⟨"title", "title", .text⟩]
        relations := [⟨"twin", "items", "group", "group", true⟩] }
    let r := Registry.ofEntities [items]
    let q : Descriptor := { filter := some (.equals ⟨["twin", "title"]⟩ (.text "A")) }
    let t : Tables := ⟨[("items", [item "a" "A", item "b" "B"])]⟩
    let t' : Tables := ⟨[("items", [item "b" "B", item "a" "A"])]⟩
    let job (id : String) (salary : Nat) : Json :=
      .obj [("id", .str id), ("salaryMin", .ofNat salary)]
    let paid : Tables := ⟨[("jobs", [job "a" 9007199254740993, job "b" 9007199254740992])]⟩
    let keys : List SortKey := [⟨⟨["salaryMin"]⟩, .asc⟩]
    (t'.Reorders t ∧ Sortable [] (t.matching r items q.filter) ∧
        Sortable [] (t'.matching r items q.filter) ∧
        (t.fetch r items q).rows = [item "a" "A", item "b" "B"] ∧ (t'.fetch r items q).rows = []) ∧
      Sortable keys (paid.matching .recruiting Registry.jobs none) ∧
        (paid.fetch .recruiting Registry.jobs { orderBy := some keys }).rows =
          [job "a" 9007199254740993, job "b" 9007199254740992] := by
  intro item items r q t t' job paid keys
  have both : ∀ row ∈ t.of items.name, q.filter.all (t.passes r items · row) = true := by
    decide +kernel
  have neither : ∀ row ∈ t'.of items.name, ¬q.filter.all (t'.passes r items · row) = true := by
    decide +kernel
  have matched : t.matching r items q.filter = [item "a" "A", item "b" "B"] := by
    rw [matching_eq, List.filter_eq_self.mpr both]
    rfl
  have matched' : t'.matching r items q.filter = [] := by
    rw [matching_eq, List.filter_eq_nil_iff.mpr neither]
  refine ⟨⟨Reorders.cons _ (.swap _ _ _) Reorders.nil, ?_, ?_, ?_, ?_⟩, ?_, ?_⟩
  · rw [matched]
    exact .of_ids (fun _ none => by cases none) ["a", "b"] rfl (by decide)
  · rw [matched']
    exact .of_ids (fun _ none => by cases none) [] rfl .nil
  · rw [rows_fetch_whole t r items q, matched]
    rfl
  · rw [rows_fetch_whole t' r items q, matched']
    rfl
  · refine .of_ids (fun k member => ?_) ["a", "b"] rfl (by decide)
    rw [List.mem_singleton.mp member]
    exact ⟨.numbers, by decide⟩
  · have tied : compareRows keys (job "b" 9007199254740992) (job "a" 9007199254740993) ≠ .lt := by
      decide +kernel
    have matched : paid.matching .recruiting Registry.jobs none =
        [job "a" 9007199254740993, job "b" 9007199254740992] := rfl
    have whole := rows_fetch_whole paid .recruiting Registry.jobs { orderBy := some keys }
    rw [whole, Option.getD_some, matched, sortRows, List.foldl_cons, List.foldl_cons, List.foldl_nil,
      insertRow, insertRow, if_neg tied, List.reverse_cons, List.reverse_singleton,
      List.singleton_append]

end Tables

end Roster
