import Roster.Predicate.Merge
import Roster.Scope.Caller

/-!
# Rules of visibility

For every role and entity there is one rule: which rows the role may see, and
which fields it may neither filter on, nor sort by, nor read. Which rows is said
by an overlay, a condition that is put on top of every filter.
-/

namespace Roster

/-- A condition put on top of a filter. -/
inductive Overlay where
  /-- All rows. -/
  | passThrough
  /-- The rows with a value in a field, whatever the filter says about that field. -/
  | assign (path : Path) (value : Scalar)
  /-- The rows that pass one of several alternatives. -/
  | anyOf (alternatives : List Predicate)
  /-- The rows whose parent the caller owns. A parent that the filter names under `foreignKey` is
  looked up before. -/
  | parentOwner (foreignKey : Path) (parent ownerField : String) (ownerPath : Path) (owner : Scalar)
  /-- No rows. -/
  | deny
deriving Inhabited

namespace Overlay

/-- All rows are visible. -/
def isPassThrough : Overlay → Bool
  | .passThrough => true
  | _ => false

/-- No row is visible. -/
def isDeny : Overlay → Bool
  | .deny => true
  | _ => false

/-- Puts the condition on a filter. -/
def apply (overlay : Overlay) (filter : Option Predicate) : Option Predicate :=
  match overlay with
  | .passThrough => filter
  | .deny => filter
  | .assign path value => some (Predicate.assign filter path value)
  | .anyOf alternatives => some (Predicate.requireAny filter alternatives)
  | .parentOwner _ _ _ ownerPath owner => some (Predicate.assign filter ownerPath owner)

end Overlay

/-- What a role may see of an entity. -/
structure ScopeRule where
  overlay : Overlay
  restricted : List Path := []
deriving Inhabited

/-- The caller's identifier as an operand. -/
def Caller.asScalar (c : Caller) : Scalar := .text c.id.text

/-- The rule for a caller who reads an entity. -/
def Caller.rule (c : Caller) (entity : String) : ScopeRule :=
  match c.role, entity with
  | .admin, _ => { overlay := .passThrough }
  | .recruiter, "jobs" =>
    { overlay := .anyOf [.equals ⟨["ownerId"]⟩ c.asScalar, .equals ⟨["status"]⟩ (.text "OPEN")] }
  | .recruiter, "applications" =>
    { overlay := .parentOwner ⟨["jobId"]⟩ "jobs" "ownerId" ⟨["job", "ownerId"]⟩ c.asScalar }
  | .recruiter, "candidates" => { overlay := .passThrough }
  | .recruiter, "users" => { overlay := .passThrough }
  | .candidate, "jobs" =>
    { overlay := .assign ⟨["status"]⟩ (.text "OPEN"), restricted := [⟨["ownerId"]⟩] }
  | .candidate, "applications" =>
    { overlay := .assign ⟨["candidateId"]⟩ c.asScalar
      restricted := [⟨["score"]⟩, ⟨["reviewNotes"]⟩] }
  | .candidate, "candidates" => { overlay := .assign ⟨["id"]⟩ c.asScalar }
  | _, _ => { overlay := .deny }

end Roster
