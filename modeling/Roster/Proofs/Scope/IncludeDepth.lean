import Roster.Proofs.Query.Truncation
import Roster.Proofs.Scope.Confinement

/-!
# How deep includes are

Narrowing makes no tree deeper: an entry keeps the includes that it had, or loses them. So the tree
that is loaded for a query, cut off at the limit of the service and then narrowed, is within the limit.
-/

namespace Roster

namespace Caller

open IncludeEntry

/-- An entry made from directives opens the levels of its includes. -/
theorem depth_entryOf (n : IncludeNode) : (entryOf n).depth = includeDepth n.include? := by
  obtain ⟨inc, select, filter⟩ := n
  cases inc <;> cases select <;> cases filter <;> rfl

mutual

theorem depth_narrowEntry (c : Caller) (r : Registry) (target : Entity) : (asked : IncludeEntry) →
    ∀ {entry : IncludeEntry}, c.narrowEntry r target asked = some entry →
      entry.depth ≤ asked.depth
  | .null, entry, h => by
    obtain rfl := Option.some.inj h
    exact Nat.le_refl _
  | .flag false, entry, h => by
    obtain rfl := Option.some.inj h
    exact Nat.le_refl _
  | .flag true, entry, h => by
    obtain ⟨-, rfl⟩ := narrowEntry_eq_some h rfl
    exact Nat.le_of_eq (depth_entryOf _)
  | .nested inc select filter, entry, h => by
    obtain ⟨-, rfl⟩ := narrowEntry_eq_some h rfl
    rw [depth_entryOf]
    exact includeDepth_narrowInclude c r target inc

theorem includeDepth_narrowInclude (c : Caller) (r : Registry) (e : Entity) :
    (asked : Option (List (String × IncludeEntry))) →
      includeDepth (c.narrowInclude r e asked) ≤ includeDepth asked
  | none => Nat.le_refl _
  | some tree => Nat.add_le_add_left (treeDepth_narrowTree c r e tree) 1

/-- **Narrowing makes no tree deeper.** -/
theorem treeDepth_narrowTree (c : Caller) (r : Registry) (e : Entity) :
    (asked : List (String × IncludeEntry)) → treeDepth (c.narrowTree r e asked) ≤ treeDepth asked
  | [] => Nat.le_refl _
  | (name, entry) :: rest => by
    have tail := treeDepth_narrowTree c r e rest
    rw [narrowTree, treeDepth]
    split
    · next target _ =>
      split
      · next narrowed hentry =>
        have head := depth_narrowEntry c r target entry hentry
        rw [treeDepth]
        omega
      · omega
    -- what is no relation stays as it is
    · rw [treeDepth]
      omega

end

end Caller

end Roster
