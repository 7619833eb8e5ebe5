import Roster.Filter
import Roster.Path

/-!
# Predicates

A predicate is a tree over comparisons of fields: conjunctions and disjunctions
of any length, and negation. The empty conjunction is the empty filter; it
accepts every row.
-/

namespace Roster

/-- A condition on a row. -/
inductive Predicate where
  /-- The field equals a scalar. -/
  | equals (path : Path) (value : Scalar)
  /-- The field passes all comparisons of a filter. -/
  | operator (path : Path) (filter : Filter)
  /-- Every child holds. -/
  | and (children : List Predicate)
  /-- Some child holds. -/
  | or (children : List Predicate)
  /-- The child does not hold. -/
  | not (inner : Predicate)
deriving Repr

namespace Predicate

/-- The predicate without a condition. -/
def empty : Predicate := .and []

instance : Inhabited Predicate := ⟨empty⟩

/-- The predicate is the empty conjunction. -/
def isEmpty : Predicate → Bool
  | .and [] => true
  | _ => false

/-- The path of a leaf. -/
def path? : Predicate → Option Path
  | .equals path _ => some path
  | .operator path _ => some path
  | _ => none

/-- What has to hold together at the top: the children of a conjunction, or the predicate. -/
def conjuncts : Predicate → List Predicate
  | .and children => children
  | p => [p]

mutual

/-- The paths of the leaves, from left to right. -/
def paths : Predicate → List Path
  | .equals path _ => [path]
  | .operator path _ => [path]
  | .and children => pathsOfAll children
  | .or children => pathsOfAll children
  | .not inner => inner.paths

/-- The paths of the leaves of several predicates. -/
def pathsOfAll : List Predicate → List Path
  | [] => []
  | p :: rest => p.paths ++ pathsOfAll rest

end

mutual

/-- The leaves, from left to right. -/
def leaves : Predicate → List Predicate
  | .equals path value => [.equals path value]
  | .operator path filter => [.operator path filter]
  | .and children => leavesOfAll children
  | .or children => leavesOfAll children
  | .not inner => inner.leaves

/-- The leaves of several predicates. -/
def leavesOfAll : List Predicate → List Predicate
  | [] => []
  | p :: rest => p.leaves ++ leavesOfAll rest

end

mutual

/-- The same tree over agreeing operands. -/
def agrees : Predicate → Predicate → Bool
  | .equals p v, .equals q w => p = q && v.agrees w
  | .operator p f, .operator q g => p = q && f.agrees g
  | .and ps, .and qs => agreeAll ps qs
  | .or ps, .or qs => agreeAll ps qs
  | .not p, .not q => p.agrees q
  | _, _ => false

/-- Lists of predicates agree one by one. -/
def agreeAll : List Predicate → List Predicate → Bool
  | [], [] => true
  | p :: ps, q :: qs => p.agrees q && agreeAll ps qs
  | _, _ => false

end

end Predicate

end Roster
