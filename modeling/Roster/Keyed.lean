/-!
# Keyed lists

A finite map kept as a list of pairs, because the order of its keys is part of
what a reader sees. `Keyed.put` keeps a key at the place it first had;
`Keyed.putSorted` keeps the keys in increasing order of their characters. A
lookup answers the first pair of a key.
-/

namespace Roster

/-- Values under names, in an order that counts. -/
abbrev Keyed (α : Type) := List (String × α)

namespace Keyed

variable {α : Type}

/-- The value under a key. -/
def get? : Keyed α → String → Option α
  | [], _ => none
  | (k, v) :: rest, key => if k = key then some v else get? rest key

/-- The key is present. -/
def has (m : Keyed α) (key : String) : Bool := m.any (·.1 == key)

/-- The keys, in order. -/
def names (m : Keyed α) : List String := m.map (·.1)

/-- Sets a key: in its place where it is present, at the end where it is not. -/
def put : Keyed α → String → α → Keyed α
  | [], key, value => [(key, value)]
  | (k, v) :: rest, key, value =>
    if k = key then (k, value) :: rest else (k, v) :: put rest key value

/-- Sets a key of a list that is sorted by its keys, keeping it sorted. -/
def putSorted : Keyed α → String → α → Keyed α
  | [], key, value => [(key, value)]
  | (k, v) :: rest, key, value =>
    if k = key then (k, value) :: rest
    else if key < k then (key, value) :: (k, v) :: rest
    else (k, v) :: putSorted rest key value

/-- Removes a key. -/
def erase (m : Keyed α) (key : String) : Keyed α := m.filter (·.1 != key)

/-- A list of pairs as a map: a repeated key keeps its first place and its last value. -/
def ofPairs (pairs : List (String × α)) : Keyed α :=
  pairs.foldl (fun m p => m.put p.1 p.2) []

/-- A list of pairs as a map sorted by its keys; of a repeated key the last value counts. -/
def sorted (pairs : List (String × α)) : Keyed α :=
  pairs.foldl (fun m p => m.putSorted p.1 p.2) []

/-- Each key is present once. -/
def Distinct (m : Keyed α) : Prop := (m.map (·.1)).Nodup

/-- The keys are in strictly increasing order. -/
def Ordered (m : Keyed α) : Prop := (m.map (·.1)).Pairwise (· < ·)

@[simp] theorem get?_nil (key : String) : get? ([] : Keyed α) key = none := rfl

/-- A key that was set is found, every other key is as before. -/
theorem get?_put (m : Keyed α) (key other : String) (value : α) :
    (m.put key value).get? other = if key = other then some value else m.get? other := by
  induction m with
  | nil => simp [put, get?]
  | cons p rest ih =>
    obtain ⟨k, v⟩ := p
    by_cases hk : k = key
    · subst hk
      by_cases ho : k = other <;> simp [put, get?, ho]
    · by_cases ho : k = other
      · subst ho
        simp [put, get?, hk, Ne.symm hk]
      · simp [put, get?, hk, ho, ih]

/-- The sorted insertion sets the same key to the same value. -/
theorem get?_putSorted (m : Keyed α) (key other : String) (value : α) :
    (m.putSorted key value).get? other = if key = other then some value else m.get? other := by
  induction m with
  | nil => simp [putSorted, get?]
  | cons p rest ih =>
    obtain ⟨k, v⟩ := p
    by_cases hk : k = key
    · subst hk
      by_cases ho : k = other <;> simp [putSorted, get?, ho]
    · by_cases hlt : key < k
      · by_cases ho : key = other
        · subst ho
          simp [putSorted, get?, hk, hlt]
        · simp [putSorted, get?, hk, hlt, ho]
      · by_cases ho : k = other
        · subst ho
          simp [putSorted, get?, hk, hlt, Ne.symm hk]
        · simp [putSorted, get?, hk, hlt, ho, ih]

end Keyed

end Roster
