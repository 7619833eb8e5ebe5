import Roster.Keyed

/-!
# Laws of keyed lists

What a lookup finds after the operations on keyed lists that other modules make: filtering by key,
changing values in place, and sorted insertion. Sorted insertion keeps the keys in strictly
increasing order, so a key that stands at the head does not stand in the rest.
-/

namespace Roster.Keyed

variable {α β : Type}

/-! ## Lookup -/

theorem mem_of_get? {m : Keyed α} {key : String} {value : α} (h : m.get? key = some value) :
    (key, value) ∈ m := by
  induction m with
  | nil => cases h
  | cons p rest ih =>
    obtain ⟨k, v⟩ := p
    rw [get?] at h
    split at h
    · next same =>
      obtain rfl := Option.some.inj h
      exact same ▸ List.mem_cons_self
    · exact List.mem_cons_of_mem _ (ih h)

theorem get?_eq_none {m : Keyed α} {key : String} (h : ∀ p ∈ m, p.1 ≠ key) :
    m.get? key = none := by
  induction m with
  | nil => rfl
  | cons p rest ih =>
    rw [get?, if_neg (h p List.mem_cons_self)]
    exact ih fun q hq => h q (List.mem_cons_of_mem _ hq)

/-- Of the keys that a filter keeps, each has the value that it had. -/
theorem get?_filter (m : Keyed α) (keep : String → Bool) (key : String) :
    get? (m.filter fun p => keep p.1) key = if keep key then m.get? key else none := by
  induction m with
  | nil => simp
  | cons p rest ih =>
    obtain ⟨k, v⟩ := p
    by_cases hk : k = key
    · subst hk
      cases hkeep : keep k <;> simp [hkeep, get?, ih]
    · cases hkeep : keep k <;> simp [hkeep, get?, hk, ih]

/-- Changing the values under their keys changes what is found under them. -/
theorem get?_map (m : Keyed α) (f : String → α → β) (key : String) :
    get? (m.map fun p => (p.1, f p.1 p.2)) key = (m.get? key).map (f key) := by
  induction m with
  | nil => rfl
  | cons p rest ih =>
    obtain ⟨k, v⟩ := p
    by_cases hk : k = key
    · subst hk
      simp [get?]
    · simpa [get?, hk] using ih

theorem mem_put {m : Keyed α} {key : String} {value : α} {p : String × α}
    (h : p ∈ m.put key value) : p = (key, value) ∨ p ∈ m := by
  induction m with
  | nil => exact .inl (List.mem_singleton.mp h)
  | cons head rest ih =>
    rw [put] at h
    split at h
    · next same =>
      rcases List.mem_cons.mp h with rfl | h
      · exact .inl (by rw [same])
      · exact .inr (List.mem_cons_of_mem _ h)
    · rcases List.mem_cons.mp h with rfl | h
      · exact .inr List.mem_cons_self
      · rcases ih h with rfl | h
        · exact .inl rfl
        · exact .inr (List.mem_cons_of_mem _ h)

/-! ## Keys in order -/

theorem mem_putSorted {m : Keyed α} {key : String} {value : α} {p : String × α}
    (h : p ∈ m.putSorted key value) : p = (key, value) ∨ p ∈ m := by
  induction m with
  | nil => exact .inl (List.mem_singleton.mp h)
  | cons q rest ih =>
    obtain ⟨k, v⟩ := q
    rw [putSorted] at h
    split at h
    · next same =>
      rcases List.mem_cons.mp h with rfl | h
      · exact .inl (by rw [same])
      · exact .inr (List.mem_cons_of_mem _ h)
    · split at h
      · exact List.mem_cons.mp h
      · rcases List.mem_cons.mp h with rfl | h
        · exact .inr List.mem_cons_self
        · exact (ih h).imp_right (List.mem_cons_of_mem _)

theorem Ordered.nil : Ordered ([] : Keyed α) := List.Pairwise.nil

/-- The first key is below all others. -/
theorem Ordered.head_lt {k : String} {v : α} {rest : Keyed α} (h : Ordered ((k, v) :: rest)) :
    ∀ p ∈ rest, k < p.1 := by
  intro p hp
  exact (List.pairwise_cons.mp h).1 _ (List.mem_map_of_mem hp)

theorem Ordered.tail {p : String × α} {rest : Keyed α} (h : Ordered (p :: rest)) : Ordered rest :=
  (List.pairwise_cons.mp h).2

theorem Ordered.cons {k : String} {v : α} {rest : Keyed α} (h : Ordered rest)
    (below : ∀ p ∈ rest, k < p.1) : Ordered ((k, v) :: rest) := by
  refine List.pairwise_cons.mpr ⟨fun name hname => ?_, h⟩
  obtain ⟨p, hp, rfl⟩ := List.mem_map.mp hname
  exact below p hp

/-- **Sorted insertion keeps the keys sorted.** -/
theorem Ordered.putSorted {m : Keyed α} (h : Ordered m) (key : String) (value : α) :
    Ordered (m.putSorted key value) := by
  induction m with
  | nil => exact Ordered.cons .nil nofun
  | cons q rest ih =>
    obtain ⟨k, v⟩ := q
    rw [Keyed.putSorted]
    split
    · exact Ordered.cons h.tail h.head_lt
    · next other =>
      split
      · next below =>
        refine Ordered.cons h fun p hp => ?_
        rcases List.mem_cons.mp hp with rfl | hp
        · exact below
        · exact String.lt_trans below (h.head_lt p hp)
      · next above =>
        refine Ordered.cons (ih h.tail) fun p hp => ?_
        rcases mem_putSorted hp with rfl | hp
        · -- the order of keys is total, and neither equality nor `key < k` holds
          grind
        · exact h.head_lt p hp

/-- The first key of a sorted list is found nowhere in the rest. -/
theorem Ordered.get?_tail {k : String} {v : α} {rest : Keyed α} (h : Ordered ((k, v) :: rest)) :
    Keyed.get? rest k = none :=
  get?_eq_none fun p hp same => String.lt_irrefl k (same ▸ h.head_lt p hp)

theorem putSorted_of_lt {m : Keyed α} {key : String} (value : α) (below : ∀ p ∈ m, key < p.1) :
    m.putSorted key value = (key, value) :: m := by
  cases m with
  | nil => rfl
  | cons q rest =>
    have first : key < q.1 := below q List.mem_cons_self
    have other : q.1 ≠ key := fun same => String.lt_irrefl key (same ▸ first)
    rw [Keyed.putSorted, if_neg other, if_pos first]

theorem putSorted_of_gt {m : Keyed α} {key : String} (value : α) (above : ∀ p ∈ m, p.1 < key) :
    m.putSorted key value = m ++ [(key, value)] := by
  induction m with
  | nil => rfl
  | cons q rest ih =>
    have first : q.1 < key := above q List.mem_cons_self
    have other : q.1 ≠ key := fun same => String.lt_irrefl key (same ▸ first)
    rw [Keyed.putSorted, if_neg other, if_neg (String.lt_asymm first),
      ih fun p hp => above p (List.mem_cons_of_mem _ hp), List.cons_append]

/-- Pairs that are sorted come out sorted. -/
theorem ordered_sorted (pairs : List (String × α)) : Ordered (sorted pairs) := by
  have fold : ∀ (pairs : List (String × α)) (m : Keyed α), m.Ordered →
      Ordered (pairs.foldl (fun m p => m.putSorted p.1 p.2) m) := by
    intro pairs
    induction pairs with
    | nil => exact fun _ ordered => ordered
    | cons p rest ih => exact fun m ordered => ih _ (ordered.putSorted p.1 p.2)
  exact fold pairs [] .nil

/-- Pairs that are in order stay as they are. -/
theorem sorted_of_ordered {m : Keyed α} (ordered : m.Ordered) : sorted m = m := by
  have fold : ∀ (rest before : Keyed α), Ordered (before ++ rest) →
      rest.foldl (fun m p => m.putSorted p.1 p.2) before = before ++ rest := by
    intro rest
    induction rest with
    | nil => simp
    | cons p rest ih =>
      intro before ordered
      obtain ⟨k, v⟩ := p
      have above : ∀ q ∈ before, q.1 < k := by
        intro q hq
        rw [Ordered, List.map_append, List.pairwise_append] at ordered
        exact ordered.2.2 q.1 (List.mem_map_of_mem hq) k List.mem_cons_self
      rw [List.foldl_cons, putSorted_of_gt v above, ih (before ++ [(k, v)]) (by simpa using ordered)]
      simp
  exact fold m [] ordered

end Roster.Keyed
