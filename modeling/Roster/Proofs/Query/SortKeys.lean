import Roster.Proofs.Predicate.Decoded
import Roster.Query.Order

/-!
# Sort keys read back

The keys of an `orderBy` that was read have paths of identifiers, and any list of such keys is read
back from its written form. An entry with several keys and keys inside each other comes back as
entries with one key each. No name has a meaning of its own here.
-/

namespace Roster

/-- The path is made of identifiers. -/
def Path.isNamed (path : Path) : Bool := !path.segments.isEmpty && path.segments.all isName

namespace SortKey

/-! ## What was read -/

theorem isNamed_child {hops : List String} (named : hops.all Path.isName = true) {key : String}
    (name : Path.isName key = true) : Path.isNamed ⟨hops ++ [key]⟩ = true := by
  simp [Path.isNamed, name, List.all_append, named]

theorem isNamed_append {ks ls : List SortKey} (left : ∀ k ∈ ks, k.path.isNamed = true)
    (right : ∀ k ∈ ls, k.path.isNamed = true) : ∀ k ∈ ks ++ ls, k.path.isNamed = true := by
  intro k hk
  rcases List.mem_append.mp hk with hk | hk
  · exact left k hk
  · exact right k hk

mutual

theorem isNamed_readKeys {hops : List String} (named : hops.all Path.isName = true) :
    (fields : List (String × Json)) → ∀ keys, readKeys hops fields = .ok keys →
      ∀ k ∈ keys, k.path.isNamed = true
  | [] => by
    intro keys read
    cases read
    exact nofun
  | (key, v) :: rest => by
    intro keys read
    rw [readKeys] at read
    by_cases name : Path.isName key = true
    · rw [if_pos name] at read
      obtain ⟨first, here, read⟩ := bind_eq_ok.mp read
      obtain ⟨others, there, listed⟩ := bind_eq_ok.mp read
      cases listed
      exact isNamed_append (isNamed_readValue (isNamed_child named name) v first here)
        (isNamed_readKeys named rest others there)
    · rw [if_neg name] at read
      cases read

theorem isNamed_readValue {path : Path} (named : path.isNamed = true) : (v : Json) →
    ∀ keys, readValue path v = .ok keys → ∀ k ∈ keys, k.path.isNamed = true
  | .str word => by
    intro keys read k hk
    rw [readValue] at read
    cases h : Direction.ofWord? word with
    | none =>
      rw [h] at read
      cases read
    | some direction =>
      rw [h] at read
      cases read
      rw [List.mem_singleton.mp hk]
      exact named
  | .obj fields => by
    intro keys read
    rw [readValue] at read
    by_cases empty : fields.isEmpty = true
    · rw [if_pos empty] at read
      cases read
    · rw [if_neg empty] at read
      exact isNamed_readKeys (Bool.and_eq_true_iff.mp named).2 fields keys read
  | .null => nofun
  | .bool _ => nofun
  | .num _ => nofun
  | .arr _ => nofun

end

theorem isNamed_readEntry {v : Json} {keys : List SortKey} (read : readEntry v = .ok keys) :
    ∀ k ∈ keys, k.path.isNamed = true := by
  cases v with
  | obj fields =>
    rw [readEntry] at read
    by_cases empty : fields.isEmpty = true
    · rw [if_pos empty] at read
      cases read
    · rw [if_neg empty] at read
      exact isNamed_readKeys rfl fields keys read
  | _ => cases read

theorem isNamed_readEntries (vs : List Json) : ∀ keys, readEntries vs = .ok keys →
    ∀ k ∈ keys, k.path.isNamed = true := by
  induction vs with
  | nil =>
    intro keys read
    cases read
    exact nofun
  | cons v rest ih =>
    intro keys read
    obtain ⟨first, here, read⟩ := bind_eq_ok.mp read
    obtain ⟨others, there, listed⟩ := bind_eq_ok.mp read
    cases listed
    exact isNamed_append (isNamed_readEntry here) (ih others there)

/-- Every key of an `orderBy` that is read has a path of identifiers. -/
theorem isNamed_listOfJson {v : Json} {keys : List SortKey} (read : listOfJson v = .ok keys) :
    ∀ k ∈ keys, k.path.isNamed = true := by
  cases v with
  | arr entries => exact isNamed_readEntries entries keys (mapError_eq_ok.mp read)
  | obj fields => exact isNamed_readEntry (mapError_eq_ok.mp read)
  | _ => cases read

/-! ## What is written -/

theorem ofWord?_word (d : Direction) : Direction.ofWord? d.word = some d := by cases d <;> rfl

theorem readValue_nest (d : Direction) (rest : List String)
    (named : rest.all Path.isName = true) : ∀ hops : List String,
      readValue ⟨hops⟩ (Predicate.nest ⟨rest⟩ (.str d.word)) = .ok [⟨⟨hops ++ rest⟩, d⟩] := by
  induction rest with
  | nil =>
    intro hops
    rw [List.append_nil]
    change readValue ⟨hops⟩ (.str d.word) = _
    rw [readValue, ofWord?_word]
  | cons next rest ih =>
    intro hops
    rw [List.all_cons, Bool.and_eq_true] at named
    rw [Predicate.nest_cons, readValue, List.isEmpty_cons, if_neg Bool.false_ne_true, readKeys,
      if_pos named.1, ih named.2, List.append_assoc, List.singleton_append]
    rfl

theorem readEntry_toJson {k : SortKey} (named : k.path.isNamed = true) :
    readEntry k.toJson = .ok [k] := by
  obtain ⟨⟨segments⟩, d⟩ := k
  cases segments with
  | nil => cases named
  | cons key rest =>
    simp only [Path.isNamed, List.all_cons, Bool.and_eq_true] at named
    have value := readValue_nest d rest named.2.2 [key]
    rw [toJson, Predicate.nest_cons, readEntry, List.isEmpty_cons, if_neg Bool.false_ne_true,
      readKeys, if_pos named.2.1, List.nil_append, value]
    rfl

/-- **Sort keys with paths of identifiers are read back.** -/
theorem listOfJson_listToJson {keys : List SortKey} (named : ∀ k ∈ keys, k.path.isNamed = true) :
    listOfJson (listToJson keys) = .ok keys := by
  have entries : readEntries (keys.map toJson) = .ok keys := by
    induction keys with
    | nil => rfl
    | cons k rest ih =>
      rw [List.map_cons, readEntries, readEntry_toJson (named k List.mem_cons_self),
        ih fun l hl => named l (List.mem_cons_of_mem _ hl)]
      rfl
  rw [listToJson, listOfJson, entries]
  rfl

theorem settled_listToJson (keys : List SortKey) : (listToJson keys).Settled := by
  refine Json.settled_arr fun v hv => ?_
  obtain ⟨k, _, rfl⟩ := List.mem_map.mp hv
  exact Predicate.settled_nest (show (Json.str k.direction.word).Settled from rfl) k.path.segments

end SortKey

end Roster
