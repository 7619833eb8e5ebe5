import Roster.Proofs.Query.IncludePath

/-!
# Truncated include trees

Cutting a tree at a limit keeps its levels up to the limit and nothing below them. The places of the
tree that is left are the places of the whole tree that are not too deep (`at_truncateTree_iff`), and
what stands there is what stood there before, cut with the levels that remain (`CutTo`). How deep a
tree is, how it is cut and how many nodes are lost are counted by three recursions; they agree about
the level at which the tree ends (`sanitize_truncates`).
-/

namespace Roster

namespace IncludeEntry

variable {limit : Nat} {entry kept : IncludeEntry} {tree : IncludeTree} {name : String}

/-- What an entry is cut to where `room` levels are left below it. -/
inductive CutTo (room : Nat) : IncludeEntry → IncludeEntry → Prop
  | null : CutTo room .null .null
  | flag (wanted : Bool) : CutTo room (.flag wanted) (.flag wanted)
  /-- A node with room keeps its directives, and every name that it includes. -/
  | node {inc inc' : Option IncludeTree} {select : Option Select} {filter : Option Predicate} :
      0 < room → inc'.map (·.map (·.1)) = inc.map (·.map (·.1)) →
        CutTo room (.nested inc select filter) (.nested inc' select filter)
  /-- A node without room becomes `true`. -/
  | collapsed {inc : Option IncludeTree} {select : Option Select} {filter : Option Predicate} :
      room = 0 → CutTo room (.nested inc select filter) (.flag true)

theorem truncateTree_eq_map (limit : Nat) (tree : IncludeTree) :
    truncateTree limit tree = tree.map fun p => (p.1, p.2.truncate limit) := by
  induction tree with
  | nil => rfl
  | cons first rest ih => rw [truncateTree, List.map_cons, ih]

/-- A cut tree has the names of the whole one. -/
theorem names_truncateTree (limit : Nat) (tree : IncludeTree) :
    (truncateTree limit tree).map (·.1) = tree.map (·.1) := by
  rw [truncateTree_eq_map, List.map_map]
  rfl

theorem mem_truncateTree_iff :
    (name, kept) ∈ truncateTree limit tree ↔
      ∃ entry, (name, entry) ∈ tree ∧ entry.truncate limit = kept := by
  rw [truncateTree_eq_map, List.mem_map]
  constructor
  · rintro ⟨⟨_, entry⟩, member, same⟩
    obtain ⟨rfl, rfl⟩ := Prod.mk.inj same
    exact ⟨entry, member, rfl⟩
  · rintro ⟨entry, member, rfl⟩
    exact ⟨(name, entry), member, rfl⟩

theorem cutTo_truncate (room : Nat) (entry : IncludeEntry) : CutTo room entry (entry.truncate room) := by
  cases entry with
  | null => exact .null
  | flag wanted => exact .flag wanted
  | nested inc select filter =>
    rw [truncate]
    split
    · next full => exact .collapsed full
    · next room' =>
      refine .node (Nat.pos_of_ne_zero room') ?_
      cases inc with
      | none => rfl
      | some tree => exact congrArg some (names_truncateTree (room - 1) tree)

/-- An entry that still has includes had room for them. -/
theorem include?_truncate {inner : IncludeTree}
    (h : (entry.truncate limit).include? = some inner) :
    ∃ below, limit = below + 1 ∧ ∃ whole, entry.include? = some whole ∧
      inner = truncateTree below whole := by
  cases entry with
  | null => cases h
  | flag wanted => cases h
  | nested inc select filter =>
    cases limit with
    | zero => cases h
    | succ below =>
      refine ⟨below, rfl, ?_⟩
      cases inc with
      | none => cases h
      | some whole => exact ⟨whole, rfl, (Option.some.inj h).symm⟩

/-- **The places of a cut tree** are those of the whole tree that are not too deep. -/
theorem at_truncateTree_iff {names : List String} : ∀ {limit : Nat} {tree : IncludeTree},
    IncludeTree.At (truncateTree limit tree) names kept ↔
      names.length ≤ limit + 1 ∧
        ∃ entry, tree.At names entry ∧ entry.truncate (limit + 1 - names.length) = kept := by
  induction names with
  | nil =>
    intro limit tree
    exact ⟨nofun, fun ⟨_, entry, at_, _⟩ => nomatch at_⟩
  | cons name rest ih =>
    intro limit tree
    constructor
    · intro at_
      cases at_ with
      | here member =>
        obtain ⟨entry, member, same⟩ := mem_truncateTree_iff.mp member
        exact ⟨by simp, entry, .here member, by simpa using same⟩
      | deeper member hinner lower =>
        obtain ⟨outer, hmem, rfl⟩ := mem_truncateTree_iff.mp member
        obtain ⟨below, rfl, whole, hwhole, rfl⟩ := include?_truncate hinner
        obtain ⟨short, entry, at_, same⟩ := ih.mp lower
        refine ⟨Nat.succ_le_succ short, entry, .deeper hmem hwhole at_, ?_⟩
        rwa [List.length_cons, Nat.add_sub_add_right]
    · rintro ⟨short, entry, at_, same⟩
      cases at_ with
      | here member => exact .here (mem_truncateTree_iff.mpr ⟨entry, member, by simpa using same⟩)
      | @deeper _ whole _ outer _ _ member hwhole lower =>
        have positive : 0 < rest.length := by cases lower <;> exact Nat.succ_pos _
        have short : rest.length ≤ limit := Nat.le_of_succ_le_succ short
        obtain ⟨below, rfl⟩ : ∃ below, limit = below + 1 := ⟨limit - 1, by omega⟩
        have inner : (outer.truncate (below + 1)).include? = some (truncateTree below whole) := by
          cases outer with
          | nested inc select filter =>
            obtain rfl : inc = some whole := hwhole
            rfl
          | null => cases hwhole
          | flag _ => cases hwhole
        refine .deeper (mem_truncateTree_iff.mpr ⟨outer, member, rfl⟩) inner (ih.mpr ⟨short, entry,
          lower, ?_⟩)
        rwa [List.length_cons, Nat.add_sub_add_right] at same

/-! ## The three recursions -/

mutual

theorem depth_truncate (limit : Nat) : (entry : IncludeEntry) →
    (entry.truncate limit).depth = min entry.depth limit
  | .null => (Nat.zero_min limit).symm
  | .flag _ => (Nat.zero_min limit).symm
  | .nested inc select filter => by
    rw [truncate]
    split
    · next zero =>
      subst zero
      exact (Nat.min_zero _).symm
    · next positive =>
      have inner := includeDepth_truncateInclude (limit - 1) inc
      rwa [Nat.sub_add_cancel (Nat.pos_of_ne_zero positive)] at inner

/-- The includes of a node are a level of their own. -/
theorem includeDepth_truncateInclude (limit : Nat) : (inc : Option (List (String × IncludeEntry))) →
    includeDepth (truncateInclude limit inc) = min (includeDepth inc) (limit + 1)
  | none => (Nat.zero_min (limit + 1)).symm
  | some tree => by
    rw [truncateInclude, includeDepth, includeDepth, treeDepth_truncateTree limit tree]
    omega

/-- **A cut tree is as deep as the limit allows.** -/
theorem treeDepth_truncateTree (limit : Nat) : (tree : List (String × IncludeEntry)) →
    treeDepth (truncateTree limit tree) = min (treeDepth tree) limit
  | [] => (Nat.zero_min limit).symm
  | (name, entry) :: rest => by
    rw [truncateTree, treeDepth, treeDepth, depth_truncate limit entry,
      treeDepth_truncateTree limit rest]
    omega

end

mutual

theorem truncate_truncate (a b : Nat) : (entry : IncludeEntry) →
    (entry.truncate a).truncate b = entry.truncate (min a b)
  | .null => rfl
  | .flag _ => rfl
  | .nested inc select filter => by
    cases a with
    | zero => rw [Nat.zero_min]; rfl
    | succ a =>
      cases b with
      | zero => rw [Nat.min_zero]; rfl
      | succ b =>
        rw [Nat.succ_min_succ]
        exact congrArg (nested · select filter) (truncateInclude_truncateInclude a b inc)

theorem truncateInclude_truncateInclude (a b : Nat) :
    (inc : Option (List (String × IncludeEntry))) →
      truncateInclude b (truncateInclude a inc) = truncateInclude (min a b) inc
  | none => rfl
  | some tree => congrArg some (truncateTree_truncateTree a b tree)

/-- **Of two limits the lower one counts.** -/
theorem truncateTree_truncateTree (a b : Nat) : (tree : List (String × IncludeEntry)) →
    truncateTree b (truncateTree a tree) = truncateTree (min a b) tree
  | [] => rfl
  | (name, entry) :: rest => by
    rw [truncateTree, truncateTree, truncateTree, truncate_truncate a b entry,
      truncateTree_truncateTree a b rest]

end

mutual

theorem collapsed_eq_zero_iff (limit : Nat) : (entry : IncludeEntry) →
    (entry.collapsed limit = 0 ↔ entry.truncate limit = entry)
  | .null => ⟨fun _ => rfl, fun _ => rfl⟩
  | .flag _ => ⟨fun _ => rfl, fun _ => rfl⟩
  | .nested inc select filter => by
    rw [collapsed, truncate]
    split
    · exact ⟨nofun, nofun⟩
    · rw [collapsedInclude_eq_zero_iff (limit - 1) inc, nested.injEq]
      exact ⟨fun same => ⟨same, rfl, rfl⟩, fun same => same.1⟩

theorem collapsedInclude_eq_zero_iff (limit : Nat) :
    (inc : Option (List (String × IncludeEntry))) →
      (collapsedInclude limit inc = 0 ↔ truncateInclude limit inc = inc)
  | none => ⟨fun _ => rfl, fun _ => rfl⟩
  | some tree => by
    rw [collapsedInclude, truncateInclude, collapsedTree_eq_zero_iff limit tree, Option.some.injEq]

/-- **Nothing is counted as cut off where the tree stays as it is**, and only there. -/
theorem collapsedTree_eq_zero_iff (limit : Nat) : (tree : List (String × IncludeEntry)) →
    (collapsedTree limit tree = 0 ↔ truncateTree limit tree = tree)
  | [] => ⟨fun _ => rfl, fun _ => rfl⟩
  | (name, entry) :: rest => by
    rw [collapsedTree, truncateTree, Nat.add_eq_zero_iff, collapsed_eq_zero_iff limit entry,
      collapsedTree_eq_zero_iff limit rest, List.cons.injEq, Prod.mk.injEq]
    exact ⟨fun same => ⟨⟨rfl, same.1⟩, same.2⟩, fun same => ⟨same.1.2, same.2⟩⟩

end

end IncludeEntry

namespace IncludeTree

open IncludeEntry

/-- **Cutting a tree at a limit is truncation.** A cut tree is as deep as the whole one or the limit,
whichever is less, and of two limits the lower one counts. All names of a level that is left are kept,
and no others are there; a node above the limit keeps its directives, a node at the limit becomes
`true`, and everything else stays as it is. No node counts as lost just when the tree is the same. -/
theorem sanitize_truncates (tree : IncludeTree) :
    (∀ limit, (tree.sanitize limit).depth = min tree.depth limit) ∧
      (∀ a b, (tree.sanitize a).sanitize b = tree.sanitize (min a b)) ∧
      (∀ limit, (tree.sanitize limit).map (·.1) = tree.map (·.1)) ∧
      (∀ limit names entry, tree.At names entry → names.length ≤ limit + 1 →
        ∃ kept, (tree.sanitize limit).At names kept ∧
          entry.CutTo (limit + 1 - names.length) kept) ∧
      (∀ limit names kept, (tree.sanitize limit).At names kept →
        names.length ≤ limit + 1 ∧
          ∃ entry, tree.At names entry ∧ entry.CutTo (limit + 1 - names.length) kept) ∧
      ∀ limit, tree.collapsedNodes limit = 0 ↔ tree.sanitize limit = tree := by
  refine ⟨fun limit => treeDepth_truncateTree limit tree,
    fun a b => truncateTree_truncateTree a b tree, fun limit => names_truncateTree limit tree,
    fun limit names entry at_ short => ?_, fun limit names kept at_ => ?_,
    fun limit => collapsedTree_eq_zero_iff limit tree⟩
  · exact ⟨_, at_truncateTree_iff.mpr ⟨short, entry, at_, rfl⟩, cutTo_truncate _ entry⟩
  · obtain ⟨short, entry, whole, rfl⟩ := at_truncateTree_iff.mp at_
    exact ⟨short, entry, whole, cutTo_truncate _ entry⟩

/-- Applications with their candidates, whose own applications are one level too deep. -/
theorem sanitize_truncates_candidates :
    let candidate : IncludeEntry := .nested (some [("applications", .flag true)]) none none
    let tree : IncludeTree := [("applications", .nested (some [("candidate", candidate)])
      (some [("id", true)]) (some (.equals ⟨["status"]⟩ (.text "NEW")))), ("owner", .flag false)]
    (tree.sanitize 1).depth = 1 ∧ (tree.sanitize 2).sanitize 1 = tree.sanitize 1 ∧
      tree.At ["applications", "candidate"] candidate ∧
      (∃ kept, (tree.sanitize 1).At ["applications", "candidate"] kept ∧ candidate.CutTo 0 kept) ∧
      tree.sanitize 1 ≠ tree ∧ tree.sanitize 2 = tree := by
  intro candidate tree
  obtain ⟨depth, twice, -, keeps, -, lost⟩ := sanitize_truncates tree
  have place : tree.At ["applications", "candidate"] candidate :=
    .deeper List.mem_cons_self rfl (.here List.mem_cons_self)
  exact ⟨depth 1, twice 2 1, place, keeps 1 _ _ place (by decide),
    fun same => absurd ((lost 1).mpr same) (by decide), (lost 2).mp (by decide)⟩

end IncludeTree

end Roster
