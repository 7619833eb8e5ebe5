import Roster.Proofs.Json.Settled
import Roster.Proofs.Predicate.Leaves
import Roster.Proofs.Predicate.RoundTrip

/-!
# What reading a clause guarantees

Whatever a clause is read as, the path of every leaf is made of its keys: there is at least one, each
is an identifier, and none is a connective. An operator leaf compares something. Operator keys are
no such matter. A connective inside an object under a path starts a clause of its own, and in a
clause an operator key is a field like any other, which the written form then puts where it is read
as an operator.
-/

namespace Roster

/-- The path is made of keys. -/
def Path.isKeyed (path : Path) : Bool := !path.segments.isEmpty && path.segments.all isKey

/-- No segment behind the first is an operator key. -/
def Path.hidesNothing (path : Path) : Bool :=
  path.segments.tail.all fun segment => !Filter.keys.contains segment

theorem Path.isSpelled_eq {path : Path} (keyed : path.isKeyed = true) :
    path.isSpelled = path.hidesNothing := by
  rw [isKeyed, Bool.and_eq_true] at keyed
  rw [isSpelled, keyed.2, hidesNothing, Bool.true_and]

namespace Predicate

/-- A leaf that a clause can have been read as. -/
def isKeyedLeaf : Predicate → Bool
  | .equals path _ => path.isKeyed
  | .operator path filter => path.isKeyed && !filter.isBlank
  | _ => true

/-- Every leaf can have been read. -/
def Keyed (p : Predicate) : Prop := ∀ leaf ∈ p.leaves, leaf.isKeyedLeaf = true

theorem leaves_combine (ps : List Predicate) : (combine ps).leaves = leavesOfAll ps := by
  match ps with
  | [] => rfl
  | [p] => rw [combine, leavesOfAll, leavesOfAll, List.append_nil]
  | _ :: _ :: _ => rfl

/-- A connective over the clause of an object adds no leaf. -/
theorem leaves_of_joined {p : Predicate} {ps : List Predicate}
    (joined : p = .and [combine ps] ∨ p = .not (combine ps)) : p.leaves = leavesOfAll ps := by
  rcases joined with rfl | rfl
  · rw [leaves, leavesOfAll, leavesOfAll, List.append_nil, leaves_combine]
  · rw [leaves, leaves_combine]

theorem isKeyed_child {hops : List String} (keyed : hops.all Path.isKey = true) {key : String}
    (isKey : Path.isKey key = true) : Path.isKeyed ⟨hops ++ [key]⟩ = true := by
  simp [Path.isKeyed, isKey, List.all_append, keyed]

theorem keyed_nil : ∀ leaf ∈ leavesOfAll [], leaf.isKeyedLeaf = true := nofun

theorem keyed_cons {p : Predicate} {ps : List Predicate} (first : p.Keyed)
    (others : ∀ leaf ∈ leavesOfAll ps, leaf.isKeyedLeaf = true) :
    ∀ leaf ∈ leavesOfAll (p :: ps), leaf.isKeyedLeaf = true := by
  intro leaf hl
  rcases List.mem_append.mp hl with hl | hl
  · exact first leaf hl
  · exact others leaf hl

theorem keyed_readOperator {path : Path} (keyed : path.isKeyed = true) {v : Json} {p : Predicate}
    (read : readOperator path v = .ok p) : p.Keyed := by
  obtain ⟨filter, _, compares, rfl⟩ := readOperator_eq_ok read
  intro leaf hl
  rw [List.mem_singleton.mp hl]
  simp [isKeyedLeaf, keyed, compares]

theorem keyed_readPlain {hops : List String} (keyed : hops.all Path.isKey = true) {key : String}
    {v : Json} {p : Predicate} (read : readPlain hops key v = .ok p) : p.Keyed := by
  obtain ⟨isKey, value, -, rfl⟩ := readPlain_eq_ok read
  intro leaf hl
  rw [List.mem_singleton.mp hl]
  exact isKeyed_child keyed isKey

mutual

/-- **Every leaf of a clause that is read has a path of keys.** -/
theorem keyed_readClause {hops : List String} (keyed : hops.all Path.isKey = true) : (v : Json) →
    ∀ p, readClause hops v = .ok p → p.Keyed
  | .obj fields => by
    intro p read
    obtain ⟨ps, each, combined⟩ := bind_eq_ok.mp read
    cases combined
    intro leaf hl
    rw [leaves_combine] at hl
    exact keyed_readFields keyed fields ps each leaf hl
  | .null => nofun
  | .bool _ => nofun
  | .num _ => nofun
  | .str _ => nofun
  | .arr _ => nofun

theorem keyed_readItems {hops : List String} (keyed : hops.all Path.isKey = true) :
    (vs : List Json) → ∀ ps, readItems hops vs = .ok ps →
      ∀ leaf ∈ leavesOfAll ps, leaf.isKeyedLeaf = true
  | [] => by
    intro ps read
    cases read
    exact keyed_nil
  | v :: rest => by
    intro ps read
    obtain ⟨p, first, read⟩ := bind_eq_ok.mp read
    obtain ⟨others, each, listed⟩ := bind_eq_ok.mp read
    cases listed
    exact keyed_cons (keyed_readClause keyed v p first) (keyed_readItems keyed rest others each)

theorem keyed_readFields {hops : List String} (keyed : hops.all Path.isKey = true) :
    (fields : List (String × Json)) → ∀ ps, readFields hops fields = .ok ps →
      ∀ leaf ∈ leavesOfAll ps, leaf.isKeyedLeaf = true
  | [] => by
    intro ps read
    cases read
    exact keyed_nil
  | (key, v) :: rest => by
    intro ps read
    obtain ⟨p, first, read⟩ := bind_eq_ok.mp read
    obtain ⟨others, each, listed⟩ := bind_eq_ok.mp read
    cases listed
    exact keyed_cons (keyed_readKey keyed key v p first) (keyed_readFields keyed rest others each)

theorem keyed_readKey {hops : List String} (keyed : hops.all Path.isKey = true) (key : String) :
    (v : Json) → ∀ p, readKey hops key v = .ok p → p.Keyed
  | .arr items => by
    intro p read
    obtain ⟨connective, ps, -, each, rfl⟩ := readKey_arr_eq_ok read
    cases connective <;> exact keyed_readItems keyed items ps each
  | .obj fields => by
    intro p read
    obtain ⟨-, ps, each, joined⟩ | ⟨isKey, -, read⟩ | ⟨isKey, -, ps, each, rfl⟩ :=
      readKey_obj_eq_ok read
    · rw [Keyed, leaves_of_joined joined]
      exact keyed_readFields keyed fields ps each
    · exact keyed_readOperator (isKeyed_child keyed isKey) read
    · have below : (hops ++ [key]).all Path.isKey = true := by
        simp [List.all_append, keyed, isKey]
      rw [Keyed, leaves_combine]
      exact keyed_readFields below fields ps each
  | .null => fun _ read => keyed_readPlain keyed read
  | .bool _ => fun _ read => keyed_readPlain keyed read
  | .num _ => fun _ read => keyed_readPlain keyed read
  | .str _ => fun _ read => keyed_readPlain keyed read

end

theorem keyed_ofJson {v : Json} {p : Predicate} (read : ofJson v = .ok p) : p.Keyed :=
  keyed_readClause rfl v p read

/-! ## Reading back what was read -/

mutual

theorem path?_of_mem_leaves {leaf : Predicate} : (p : Predicate) → leaf ∈ p.leaves →
    ∃ path, leaf.path? = some path
  | .equals path _, hl => ⟨path, by rw [List.mem_singleton.mp hl]; rfl⟩
  | .operator path _, hl => ⟨path, by rw [List.mem_singleton.mp hl]; rfl⟩
  | .and children, hl => path?_of_mem_leavesOfAll children hl
  | .or children, hl => path?_of_mem_leavesOfAll children hl
  | .not inner, hl => path?_of_mem_leaves inner hl

theorem path?_of_mem_leavesOfAll {leaf : Predicate} : (ps : List Predicate) →
    leaf ∈ leavesOfAll ps → ∃ path, leaf.path? = some path
  | p :: rest, hl =>
    (List.mem_append.mp hl).elim (path?_of_mem_leaves p) (path?_of_mem_leavesOfAll rest)

end

/-- The paths of a predicate are those of its leaves. -/
theorem mem_paths_iff_leaf {p : Predicate} {path : Path} :
    path ∈ p.paths ↔ ∃ leaf ∈ p.leaves, leaf.path? = some path := by
  rw [mem_paths_iff]
  refine exists_congr fun leaf => and_congr_right fun hl => ?_
  obtain ⟨own, h⟩ := path?_of_mem_leaves p hl
  rw [h]
  cases leaf with
  | equals | operator => cases h; simp [paths, eq_comm]
  | _ => cases h

theorem isKeyed_of_path? {leaf : Predicate} {path : Path} (keyed : leaf.isKeyedLeaf = true)
    (h : leaf.path? = some path) : path.isKeyed = true := by
  cases leaf with
  | equals => cases h; exact keyed
  | operator => cases h; exact (Bool.and_eq_true_iff.mp keyed).1
  | _ => cases h

theorem Keyed.rooted {p : Predicate} (keyed : p.Keyed) : ∀ path ∈ p.paths, path.segments ≠ [] := by
  intro path hp
  obtain ⟨leaf, hl, h⟩ := mem_paths_iff_leaf.mp hp
  have keys := isKeyed_of_path? (keyed leaf hl) h
  simp only [Path.isKeyed, Bool.and_eq_true, Bool.not_eq_true', List.isEmpty_eq_false_iff] at keys
  exact keys.1

/-- A leaf that was read is readable again unless its path hides an operator key. -/
theorem isReadable_of_keyed {leaf : Predicate} {path : Path} (keyed : leaf.isKeyedLeaf = true)
    (h : leaf.path? = some path) : leaf.isReadable = path.hidesNothing := by
  have spelled := Path.isSpelled_eq (isKeyed_of_path? keyed h)
  cases leaf with
  | equals => cases h; exact spelled
  | operator =>
    cases h
    rw [isReadable, spelled, (Bool.and_eq_true_iff.mp keyed).2, Bool.and_true]
  | _ => cases h

theorem Keyed.readable_iff {p : Predicate} (keyed : p.Keyed) :
    (∀ leaf ∈ p.leaves, leaf.isReadable = true) ↔ ∀ path ∈ p.paths, path.hidesNothing = true := by
  constructor
  · intro readable path hp
    obtain ⟨leaf, hl, h⟩ := mem_paths_iff_leaf.mp hp
    rw [← isReadable_of_keyed (keyed leaf hl) h]
    exact readable leaf hl
  · intro spelled leaf hl
    obtain ⟨path, h⟩ := path?_of_mem_leaves p hl
    rw [isReadable_of_keyed (keyed leaf hl) h]
    exact spelled path (mem_paths_iff_leaf.mpr ⟨leaf, hl, h⟩)

theorem Keyed.reads_back {p : Predicate} (keyed : p.Keyed)
    (spelled : ∀ path ∈ p.paths, path.hidesNothing = true) : ofJson p.toJson = .ok p :=
  ofJson_toJson_of_readable p keyed.rooted (keyed.readable_iff.mpr spelled)

theorem Keyed.spelled_of_back {p q : Predicate} (keyed : p.Keyed) (back : ofJson p.toJson = .ok q)
    (same : q.agrees p = true) : ∀ path ∈ p.paths, path.hidesNothing = true :=
  keyed.readable_iff.mp (readable_of_ofJson_toJson p keyed.rooted q back same)

/-! ## Written clauses are settled -/

theorem settled_scalar (s : Scalar) : s.toJson.Settled := by cases s <;> rfl

theorem settled_piece {α : Type} {name : String} {write : α → Json} (value : Option α)
    (settled : ∀ a, (write a).Settled) :
    ∀ field ∈ Json.RecordShape.piece name write value, field.2.Settled := by
  intro field hf
  cases value with
  | none => cases hf
  | some a =>
    rw [List.mem_singleton.mp hf]
    exact settled a

theorem settled_filter (f : Filter) : f.toJson.Settled := by
  have scalars : ∀ l : List Scalar, (Json.arr (l.map Scalar.toJson)).Settled := by
    intro l
    refine Json.settled_arr fun v hv => ?_
    obtain ⟨s, _, rfl⟩ := List.mem_map.mp hv
    exact settled_scalar s
  have text : ∀ s : String, (Json.str s).Settled := fun _ => rfl
  have distinct : Filter.keys.Nodup := by decide
  refine Json.settled_obj (distinct.sublist (Filter.names_toFields f)) fun field hf => ?_
  rw [Filter.toFields_eq] at hf
  simp only [List.mem_append] at hf
  rcases hf with ((((((((((hf | hf) | hf) | hf) | hf) | hf) | hf) | hf) | hf) | hf) | hf) | hf
  all_goals first
    | exact settled_piece _ settled_scalar field hf
    | exact settled_piece _ scalars field hf
    | exact settled_piece _ text field hf

theorem settled_nest {v : Json} (settled : v.Settled) (segments : List String) :
    (nest ⟨segments⟩ v).Settled := by
  induction segments with
  | nil => exact settled
  | cons segment rest ih => exact Json.settled_single ih

mutual

/-- **A written clause is settled.** -/
theorem settled_toJson : (p : Predicate) → p.toJson.Settled
  | .equals path value => settled_nest (settled_scalar value) path.segments
  | .operator path filter => settled_nest (settled_filter filter) path.segments
  | .and [] => rfl
  | .and (p :: rest) => Json.settled_single (Json.settled_arr (settled_clauses (p :: rest)))
  | .or children => Json.settled_single (Json.settled_arr (settled_clauses children))
  | .not inner => Json.settled_single (settled_toJson inner)

theorem settled_clauses : (ps : List Predicate) → ∀ v ∈ clauses ps, v.Settled
  | [] => nofun
  | p :: rest => by
    intro v hv
    rcases List.mem_cons.mp hv with rfl | hv
    · exact settled_toJson p
    · exact settled_clauses rest v hv

end

end Predicate

end Roster
