/-!
# Three-valued truth

A comparison with a missing value is neither true nor false. `Truth` has the
third value, and its operators are the ones of SQL: the values are ordered
`no < unknown < yes`, a conjunction is the least and a disjunction the greatest
of its parts.
-/

namespace Roster

/-- A truth value that may be unknown. -/
inductive Truth where
  | no
  | unknown
  | yes
deriving DecidableEq, Repr, Inhabited

namespace Truth

/-- A definite truth value. -/
def ofBool (b : Bool) : Truth := if b then .yes else .no

/-- The value is `yes`. -/
def holds : Truth → Bool
  | .yes => true
  | _ => false

/-- Both. -/
def and : Truth → Truth → Truth
  | .no, _ => .no
  | _, .no => .no
  | .yes, .yes => .yes
  | _, _ => .unknown

/-- Either. -/
def or : Truth → Truth → Truth
  | .yes, _ => .yes
  | _, .yes => .yes
  | .no, .no => .no
  | _, _ => .unknown

/-- The opposite; what is unknown stays so. -/
def not : Truth → Truth
  | .no => .yes
  | .unknown => .unknown
  | .yes => .no

/-- All of a list. -/
def all (ts : List Truth) : Truth := ts.foldl and .yes

/-- Some of a list. -/
def any (ts : List Truth) : Truth := ts.foldl or .no

@[simp] theorem holds_ofBool (b : Bool) : (ofBool b).holds = b := by cases b <;> rfl

theorem and_assoc (a b c : Truth) : (a.and b).and c = a.and (b.and c) := by
  cases a <;> cases b <;> cases c <;> rfl

theorem or_assoc (a b c : Truth) : (a.or b).or c = a.or (b.or c) := by
  cases a <;> cases b <;> cases c <;> rfl

theorem and_comm (a b : Truth) : a.and b = b.and a := by cases a <;> cases b <;> rfl

theorem or_comm (a b : Truth) : a.or b = b.or a := by cases a <;> cases b <;> rfl

@[simp] theorem yes_and (a : Truth) : Truth.yes.and a = a := by cases a <;> rfl

@[simp] theorem and_yes (a : Truth) : a.and .yes = a := by cases a <;> rfl

@[simp] theorem no_or (a : Truth) : Truth.no.or a = a := by cases a <;> rfl

@[simp] theorem or_no (a : Truth) : a.or .no = a := by cases a <;> rfl

@[simp] theorem not_not (a : Truth) : a.not.not = a := by cases a <;> rfl

end Truth

end Roster
