import Mathlib.Data.List.Nodup
import Mathlib.Data.String.Basic
import Roster.Store.Memory

/-!
# Rows in order

Sorting keeps every row, whatever the sort keys are. The keys need not put all rows in an order: two
values of different sorts compare as equal, and so does null with nothing but itself. Where they do,
that is where they compare the rows at hand as a transitive comparison does (`OrdersAs`), the sorted
rows are in that order, it does not matter whether rows are chosen before they are sorted or after, and
rows that are told apart come out the same however they were put in.

Less is needed for the rows to be in some order: the keys only have to heed it (`Heeds`). So if the
first key can put the rows in an order, they are in it whatever the other keys are.

Rows that are told apart by nothing but their `id`, a text, are the common case.
-/

namespace Roster

variable {keys : List SortKey} {row : Json} {sorted rows : List Json}

/-! ## Sorting keeps rows -/

theorem insertRow_perm (keys : List SortKey) (row : Json) (sorted : List Json) :
    (insertRow keys row sorted).Perm (row :: sorted) := by
  induction sorted with
  | nil => exact .refl _
  | cons last before ih =>
    rw [insertRow]
    split
    · exact (ih.cons last).trans (.swap row last before)
    · exact .refl _

theorem sortRows_perm (keys : List SortKey) (rows : List Json) : (sortRows keys rows).Perm rows := by
  have fold : ∀ sorted, (rows.foldl (fun sorted row => insertRow keys row sorted) sorted).Perm
      (rows ++ sorted) := by
    induction rows with
    | nil => exact fun sorted => .refl sorted
    | cons row rest ih =>
      intro sorted
      have first := (insertRow_perm keys row sorted).append_left rest
      exact (ih _).trans (first.trans List.perm_middle)
  have all := fold []
  rw [List.append_nil] at all
  exact (List.reverse_perm _).trans all

theorem length_sortRows (keys : List SortKey) (rows : List Json) :
    (sortRows keys rows).length = rows.length := (sortRows_perm keys rows).length_eq

/-! ## Sorting puts rows in order -/

/-- The keys compare these rows as the comparison does. -/
def OrdersAs (keys : List SortKey) (cmp : Json → Json → Ordering) (rows : List Json) : Prop :=
  ∀ a ∈ rows, ∀ b ∈ rows, compareRows keys a b = cmp a b

theorem OrdersAs.mono {cmp : Json → Json → Ordering} {fewer : List Json}
    (orders : OrdersAs keys cmp rows) (within : ∀ row ∈ fewer, row ∈ rows) :
    OrdersAs keys cmp fewer :=
  fun a ha b hb => orders a (within a ha) b (within b hb)

/-- A row that is put among the others at once is one of all rows. -/
theorem mem_inserted_iff {other : Json} :
    other ∈ rows ++ insertRow keys row sorted ↔ other ∈ row :: rows ++ sorted := by
  rw [List.mem_append, (insertRow_perm keys row sorted).mem_iff, List.mem_cons, List.cons_append,
    List.mem_cons, List.mem_append]
  tauto

theorem OrdersAs.inserted {cmp : Json → Json → Ordering}
    (orders : OrdersAs keys cmp (row :: rows ++ sorted)) :
    OrdersAs keys cmp (rows ++ insertRow keys row sorted) :=
  orders.mono fun _ => mem_inserted_iff.mp

/-- The keys put one of these rows before another only where the comparison does not object; rows that
it takes as equal may be put either way. -/
def Heeds (keys : List SortKey) (cmp : Json → Json → Ordering) (rows : List Json) : Prop :=
  ∀ a ∈ rows, ∀ b ∈ rows,
    (compareRows keys a b = .lt → (cmp a b).isLE = true) ∧
      (compareRows keys a b ≠ .lt → (cmp a b).isGE = true)

theorem OrdersAs.heeds {cmp : Json → Json → Ordering} (orders : OrdersAs keys cmp rows) :
    Heeds keys cmp rows := by
  intro a ha b hb
  rw [orders a ha b hb]
  exact ⟨fun earlier => Ordering.isLE_iff_eq_lt_or_eq_eq.mpr (.inl earlier),
    Ordering.isGE_iff_ne_lt.mpr⟩

theorem Heeds.mono {cmp : Json → Json → Ordering} {fewer : List Json}
    (heeds : Heeds keys cmp rows) (within : ∀ row ∈ fewer, row ∈ rows) : Heeds keys cmp fewer :=
  fun a ha b hb => heeds a (within a ha) b (within b hb)

/-- Rows from the last to the first. -/
def Descends (cmp : Json → Json → Ordering) (sorted : List Json) : Prop :=
  sorted.Pairwise fun last before => (cmp last before).isGE = true

section

variable {cmp : Json → Json → Ordering} [Std.TransCmp cmp]

theorem Descends.insertRow (descends : Descends cmp sorted)
    (heeds : Heeds keys cmp (row :: sorted)) : Descends cmp (insertRow keys row sorted) := by
  induction sorted with
  | nil => exact List.pairwise_singleton _ _
  | cons last before ih =>
    obtain ⟨first, rest⟩ := List.pairwise_cons.mp descends
    have ⟨goesOn, stays⟩ := heeds row List.mem_cons_self last (by simp)
    rw [Roster.insertRow]
    split
    · next earlier =>
      have fewer : Heeds keys cmp (row :: before) := heeds.mono (by simp +contextual)
      refine List.pairwise_cons.mpr ⟨fun other member => ?_, ih rest fewer⟩
      rcases List.mem_cons.mp ((insertRow_perm keys row before).mem_iff.mp member) with rfl | member
      · exact Std.OrientedCmp.isGE_of_isLE (goesOn earlier)
      · exact first other member
    · next later =>
      refine List.pairwise_cons.mpr ⟨fun other member => ?_, descends⟩
      rcases List.mem_cons.mp member with rfl | member
      · exact stays later
      · exact Std.TransCmp.isGE_trans (stays later) (first other member)

theorem descends_foldl (heeds : Heeds keys cmp (rows ++ sorted)) (descends : Descends cmp sorted) :
    Descends cmp (rows.foldl (fun sorted row => insertRow keys row sorted) sorted) := by
  induction rows generalizing sorted with
  | nil => exact descends
  | cons row rest ih =>
    have here : Heeds keys cmp (row :: sorted) := heeds.mono (by simp +contextual)
    exact ih (heeds.mono fun _ => mem_inserted_iff.mp) (descends.insertRow here)

/-- **Sorted rows are in every order that the keys heed.** -/
theorem pairwise_sortRows_of_heeds (heeds : Heeds keys cmp rows) :
    (sortRows keys rows).Pairwise fun a b => (cmp a b).isLE = true := by
  rw [sortRows, List.pairwise_reverse]
  have descends : Descends cmp (rows.foldl (fun sorted row => insertRow keys row sorted) []) :=
    descends_foldl (by rwa [List.append_nil]) .nil
  exact descends.imp Std.OrientedCmp.isLE_of_isGE

/-- **Sorted rows are in order.** -/
theorem pairwise_sortRows (orders : OrdersAs keys cmp rows) :
    (sortRows keys rows).Pairwise fun a b => (cmp a b).isLE = true :=
  pairwise_sortRows_of_heeds orders.heeds

/-- **Rows that are told apart come out the same, however they were put in.** -/
theorem sortRows_eq_of_perm {others : List Json} (orders : OrdersAs keys cmp rows)
    (told : ∀ a ∈ rows, ∀ b ∈ rows, cmp a b = .eq → a = b) (perm : others.Perm rows) :
    sortRows keys others = sortRows keys rows := by
  have orders' : OrdersAs keys cmp others := orders.mono fun row => perm.mem_iff.mp
  refine List.Perm.eq_of_pairwise ?_ (pairwise_sortRows orders') (pairwise_sortRows orders)
    ((sortRows_perm keys others).trans (perm.trans (sortRows_perm keys rows).symm))
  intro a b ha hb ab ba
  refine told a (perm.mem_iff.mp ((sortRows_perm keys others).mem_iff.mp ha)) b
    ((sortRows_perm keys rows).mem_iff.mp hb) ?_
  exact Std.OrientedCmp.isLE_antisymm ab ba

/-- A row is inserted among chosen rows where it is inserted among all. -/
theorem filter_insertRow (keep : Json → Bool) (descends : Descends cmp sorted)
    (orders : OrdersAs keys cmp (row :: sorted)) :
    (insertRow keys row sorted).filter keep =
      if keep row then insertRow keys row (sorted.filter keep) else sorted.filter keep := by
  induction sorted with
  | nil =>
    rw [insertRow, List.filter_nil, List.filter_cons]
    rfl
  | cons last before ih =>
    obtain ⟨first, rest⟩ := List.pairwise_cons.mp descends
    rw [insertRow]
    split
    · next earlier =>
      have fewer : OrdersAs keys cmp (row :: before) := orders.mono (by simp +contextual)
      have step := ih rest fewer
      cases hlast : keep last with
      | true =>
        rw [List.filter_cons_of_pos hlast, List.filter_cons_of_pos hlast, step, insertRow,
          if_pos earlier]
        split <;> rfl
      | false =>
        have out : ¬keep last = true := by simp [hlast]
        rw [List.filter_cons_of_neg out, List.filter_cons_of_neg out, step]
    · next later =>
      cases hrow : keep row with
      | false => simp [hrow]
      | true =>
        rw [List.filter_cons_of_pos hrow, if_pos rfl]
        cases hkept : (last :: before).filter keep with
        | nil => rfl
        | cons head tail =>
          -- the first of the rows that are left is no later than the first of all
          have member : head ∈ last :: before :=
            (List.mem_filter.mp (hkept ▸ List.mem_cons_self : head ∈ (last :: before).filter keep)).1
          have behind : compareRows keys row head ≠ .lt := by
            rcases List.mem_cons.mp member with rfl | below
            · exact later
            · rw [orders row List.mem_cons_self last (by simp), ← Ordering.isGE_iff_ne_lt] at later
              rw [orders row List.mem_cons_self head (List.mem_cons_of_mem _ member), Ne,
                ← Ordering.isGE_iff_ne_lt]
              exact Std.TransCmp.isGE_trans later (first head below)
          rw [insertRow, if_neg behind]

/-- **Rows can be chosen before they are sorted or after.** -/
theorem filter_sortRows_of_orders (keep : Json → Bool) (orders : OrdersAs keys cmp rows) :
    (sortRows keys rows).filter keep = sortRows keys (rows.filter keep) := by
  have fold : ∀ sorted, OrdersAs keys cmp (rows ++ sorted) → Descends cmp sorted →
      (rows.foldl (fun sorted row => insertRow keys row sorted) sorted).filter keep =
        (rows.filter keep).foldl (fun sorted row => insertRow keys row sorted)
          (sorted.filter keep) := by
    clear orders
    induction rows with
    | nil => exact fun sorted _ _ => rfl
    | cons row rest ih =>
      intro sorted orders descends
      have here : OrdersAs keys cmp (row :: sorted) := orders.mono (by simp +contextual)
      rw [List.foldl_cons, ih _ (orders.inserted) (descends.insertRow here.heeds),
        filter_insertRow keep descends here]
      cases hrow : keep row with
      | true => rw [if_pos rfl, List.filter_cons_of_pos hrow, List.foldl_cons]
      | false => simp [hrow]
  rw [sortRows, sortRows, List.filter_reverse, fold [] (by rwa [List.append_nil]) .nil,
    List.filter_nil]

end

/-! ## Comparisons that are transitive -/

/-- A sort of values that a column can have, null aside. -/
inductive ColumnSort where
  | numbers
  | texts
  | truths
deriving DecidableEq

/-- The value is null, or of the sort. -/
def ColumnSort.admits : ColumnSort → Json → Bool
  | _, .null => true
  | .numbers, .num _ => true
  | .texts, .str _ => true
  | .truths, .bool _ => true
  | _, _ => false

namespace Json

/-- The place of a sort of values among the others, null being the last one. -/
def sortPlace : Json → Nat
  | .num _ => 0
  | .str _ => 1
  | .bool _ => 2
  | .arr _ => 3
  | .obj _ => 4
  | .null => 5

/-- The place of a number. -/
def numberPlace : Json → Int
  | .num n => n.toDouble.place
  | _ => 0

/-- The text that a value is. -/
def ownText : Json → String
  | .str s => s
  | _ => ""

/-- The truth value that a value is. -/
def ownTruth : Json → Bool
  | .bool b => b
  | _ => false

/-- A comparison of all values: by their sort, and within a sort like `compareColumn`. -/
def compareSorted : Json → Json → Ordering :=
  compareLex (compareOn sortPlace)
    (compareLex (compareOn numberPlace) (compareLex (compareOn ownText) (compareOn ownTruth)))

instance : Std.TransCmp compareSorted := by
  unfold compareSorted
  infer_instance

/-- Values of one sort are compared by what they are. -/
theorem compareColumn_of_admits (sort : ColumnSort) {a b : Json} (ha : sort.admits a = true)
    (hb : sort.admits b = true) : compareColumn a b = compareSorted a b := by
  have single (a b : Json) : compareSorted a b = (compare a.sortPlace b.sortPlace).then
      ((compare a.numberPlace b.numberPlace).then
        ((compare a.ownText b.ownText).then (compare a.ownTruth b.ownTruth))) := rfl
  rw [single]
  cases sort <;> cases a <;> cases b <;>
    first
    | cases ha; done
    | cases hb; done
    | rfl
    | simp [compareColumn, sortPlace, numberPlace, ownText, ownTruth, Double.order]

end Json

/-- A comparison of rows by the keys and then by their `id`, in which values of all sorts have their
places. -/
def rowOrder : List SortKey → Json → Json → Ordering
  | [] => fun a b => (a.field "id").compareSorted (b.field "id")
  | k :: rest =>
    compareLex (fun a b =>
      let order := (a.field k.path.leaf).compareSorted (b.field k.path.leaf)
      match k.direction with
      | .asc => order
      | .desc => order.swap) (rowOrder rest)

theorem transCmp_field (column : String) :
    Std.TransCmp fun a b : Json => (a.field column).compareSorted (b.field column) where
  eq_swap := Std.OrientedCmp.eq_swap
  isLE_trans := Std.TransCmp.isLE_trans

/-- A comparison of rows by one key, in which values of all sorts have their places. -/
def SortKey.order (k : SortKey) (a b : Json) : Ordering :=
  let order := (a.field k.path.leaf).compareSorted (b.field k.path.leaf)
  match k.direction with
  | .asc => order
  | .desc => order.swap

instance transCmp_order (k : SortKey) : Std.TransCmp k.order := by
  have field := transCmp_field k.path.leaf
  unfold SortKey.order
  cases k.direction with
  | asc => exact field
  | desc =>
    have swapped : (fun a b : Json =>
        ((a.field k.path.leaf).compareSorted (b.field k.path.leaf)).swap) =
        fun a b => (b.field k.path.leaf).compareSorted (a.field k.path.leaf) := by
      funext a b
      exact Std.OrientedCmp.eq_swap.symm
    change Std.TransCmp fun a b : Json =>
      ((a.field k.path.leaf).compareSorted (b.field k.path.leaf)).swap
    rw [swapped]
    exact Std.TransCmp.opposite

instance transCmp_rowOrder : (keys : List SortKey) → Std.TransCmp (rowOrder keys)
  | [] => transCmp_field "id"
  | k :: rest => by
    have others := transCmp_rowOrder rest
    change Std.TransCmp (compareLex k.order (rowOrder rest))
    infer_instance

/-! ## Rows that can be sorted -/

/-- The row has a text as its `id`. -/
def Json.Identified (row : Json) : Prop := ∃ id, row.field "id" = .str id

/-- Apart from null the values of a column are of one sort. -/
def Uniform (column : String) (rows : List Json) : Prop :=
  ∃ sort : ColumnSort, ∀ row ∈ rows, sort.admits (row.field column) = true

/-- On a column of one sort a key compares rows by their places. -/
theorem SortKey.compareRows_eq_order {k : SortKey} {a b : Json} (uniform : Uniform k.path.leaf rows)
    (ha : a ∈ rows) (hb : b ∈ rows) : k.compareRows a b = k.order a b := by
  obtain ⟨sort, admits⟩ := uniform
  rw [compareRows, Json.compareColumn_of_admits sort (admits a ha) (admits b hb)]
  rfl

theorem ordersAs_rowOrder (uniform : ∀ k ∈ keys, Uniform k.path.leaf rows)
    (identified : ∀ row ∈ rows, row.Identified) : OrdersAs keys (rowOrder keys) rows := by
  intro a ha b hb
  induction keys with
  | nil =>
    obtain ⟨i, hi⟩ := identified a ha
    obtain ⟨j, hj⟩ := identified b hb
    have texts (s u : String) : compareColumn (.str s) (.str u) =
        Json.compareSorted (.str s) (.str u) := Json.compareColumn_of_admits .texts rfl rfl
    simp only [compareRows, rowOrder, hi, hj, texts]
  | cons k rest ih =>
    rw [compareRows, ih fun other member => uniform other (List.mem_cons_of_mem _ member),
      SortKey.compareRows_eq_order (uniform k List.mem_cons_self) ha hb]
    rfl

/-- **Sorted rows are in the order of the first key**, whatever the other keys are. -/
theorem pairwise_sortRows_first {k : SortKey} (uniform : Uniform k.path.leaf rows)
    (rest : List SortKey) :
    (sortRows (k :: rest) rows).Pairwise fun a b => (k.compareRows a b).isLE = true := by
  have heeds : Heeds (k :: rest) k.order rows := by
    intro a ha b hb
    rw [compareRows, SortKey.compareRows_eq_order uniform ha hb]
    cases k.order a b <;> simp
  refine (pairwise_sortRows_of_heeds heeds).imp_of_mem fun ha hb ordered => ?_
  have kept := sortRows_perm (k :: rest) rows
  rwa [SortKey.compareRows_eq_order uniform (kept.mem_iff.mp ha) (kept.mem_iff.mp hb)]

/-- Rows with a text as `id` can be chosen before they are sorted by it or after. -/
theorem filter_sortRows (keep : Json → Bool) (all : ∀ row ∈ rows, row.Identified) :
    (sortRows [] rows).filter keep = sortRows [] (rows.filter keep) :=
  filter_sortRows_of_orders keep (ordersAs_rowOrder nofun all)

/-! ## Fetched rows -/

namespace Tables

/-- Without a window all matching rows are fetched. -/
theorem rows_fetch_whole (t : Tables) (r : Registry) (e : Entity) (q : Descriptor) :
    (t.fetch r e { q with skip := none, take := none }).rows =
      sortRows (q.orderBy.getD []) (t.matching r e q.filter) := List.drop_zero

/-- The rows of a window stand in the order of the first sort key. -/
theorem pairwise_fetch_first {t : Tables} {r : Registry} {e : Entity} {q : Descriptor} {k : SortKey}
    {rest : List SortKey} (sorted : q.orderBy = some (k :: rest))
    (uniform : Uniform k.path.leaf (t.matching r e q.filter)) :
    (t.fetch r e q).rows.Pairwise fun x y => (k.compareRows x y).isLE = true := by
  have whole := (pairwise_sortRows_first uniform rest).sublist (List.drop_sublist (q.skip.getD 0) _)
  unfold fetch
  simp only [sorted, Option.getD_some]
  split
  · exact whole.sublist (List.take_sublist _ _)
  · exact whole

end Tables

end Roster
