import Roster.Predicate.Basic

/-!
# Putting predicates together

Composition leaves out empty predicates and does not wrap a single one. The
operations that add a condition which a caller must not escape put it beside the
caller's predicate in a conjunction, so that no disjunction of the caller can
satisfy the query alone.
-/

namespace Roster.Predicate

/-- Several predicates as one: none for none, a single one for itself. -/
def compose (wrap : List Predicate → Predicate) : List Predicate → Option Predicate
  | [] => none
  | [p] => some p
  | ps => some (wrap ps)

/-- The predicates that are there and not empty. -/
def present (clauses : List (Option Predicate)) : List Predicate :=
  (clauses.filterMap id).filter fun p => !p.isEmpty

/-- The conjunction of all clauses that say something. -/
def mergeAnd (clauses : List (Option Predicate)) : Option Predicate :=
  compose .and (present clauses)

/-- The disjunction of all clauses that say something. -/
def mergeOr (clauses : List (Option Predicate)) : Option Predicate :=
  compose .or (present clauses)

/-- Demands one of several alternatives on top of a filter. Without alternatives nothing is
accepted. -/
def requireAny (filter : Option Predicate) (alternatives : List Predicate) : Predicate :=
  match filter with
  | some p => if p.isEmpty then .or alternatives else .and [p, .or alternatives]
  | none => .or alternatives

/-- A path is one of the blocked ones or goes on from one. -/
def isBlockedBy (blocked : List Path) (path : Path) : Bool := blocked.any path.startsWith

mutual

/-- The predicate without the leaves on blocked paths; what loses all its children disappears. -/
def strip (blocked : List Path) : Predicate → Option Predicate
  | .equals path value => if isBlockedBy blocked path then none else some (.equals path value)
  | .operator path filter =>
    if isBlockedBy blocked path then none else some (.operator path filter)
  | .and children => compose .and (stripAll blocked children)
  | .or children => compose .or (stripAll blocked children)
  | .not inner => (strip blocked inner).map .not

/-- What is left of several predicates. -/
def stripAll (blocked : List Path) : List Predicate → List Predicate
  | [] => []
  | p :: rest => (strip blocked p).toList ++ stripAll blocked rest

end

/-- The filter without the leaves on restricted paths. -/
def removeRestricted (filter : Option Predicate) (restricted : List Path) : Option Predicate :=
  match filter with
  | none => none
  | some p =>
    if restricted.isEmpty then (if p.isEmpty then none else some p) else strip restricted p

/-- Holds a field to a value, in place of every condition on it at the top of the filter. -/
def assign (filter : Option Predicate) (path : Path) (value : Scalar) : Predicate :=
  let others := ((filter.map conjuncts).getD []).filter fun p => p.path? != some path
  (compose .and (others ++ [.equals path value])).getD empty

end Roster.Predicate
