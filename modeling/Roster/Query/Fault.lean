import Roster.Filter
import Roster.Path

/-!
# What can be wrong with a query

A query that is JSON can still fail to be one of ours: a path is no identifier,
a `where` clause or an `orderBy` does not follow its grammar, or a record of the
query has another shape. The causes are kept apart; `message` words them.
-/

namespace Roster

/-- Why a value is no `where` clause. -/
inductive WhereFault where
  /-- A clause has to be an object. -/
  | notObject (kind : String)
  /-- `OR` takes an array only. -/
  | orNotArray
  /-- `AND` takes a clause or an array of them. -/
  | notClauses (keyword kind : String)
  /-- An object with an operator key that is no operator object. -/
  | badOperator (path : Path) (error : ShapeError)
  /-- An operator object that compares nothing. -/
  | noComparison (path : Path)
  /-- A field set against an array. -/
  | arrayOperand (path : Path)
deriving DecidableEq, Repr

/-- Why a value is no `orderBy`. -/
inductive OrderFault where
  /-- Neither an object nor an array. -/
  | notEntries
  /-- An entry of the array is no object. -/
  | entryNotObject
  /-- An entry names no field. -/
  | emptyEntry
  /-- A key is no identifier. -/
  | badName (name : String)
  /-- A direction other than the two. -/
  | unknownDirection (direction : String) (path : Path)
  /-- A key with a value that is neither a direction nor an object. -/
  | badValue (path : Path)
deriving DecidableEq, Repr

/-- Why a part of a query is refused. -/
inductive QueryFault where
  | path (text : String)
  | clause (fault : WhereFault)
  | order (fault : OrderFault)
deriving DecidableEq, Repr

/-- Why a value is no query descriptor. -/
inductive DescriptorFault where
  | shape (error : ShapeError)
  | query (fault : QueryFault)
deriving DecidableEq, Repr

/-- The wording of a path that is no path. -/
def badPathMessage (text : String) : String := "invalid field path '" ++ text ++ "'"

/-- The wording of a fault in a `where` clause. -/
def WhereFault.message : WhereFault → String
  | .notObject kind => "expected an object, found " ++ kind
  | .orNotArray => "OR requires an array of clauses"
  | .notClauses keyword kind => keyword ++ " requires an array of clauses, found " ++ kind
  | .badOperator path error =>
    "invalid operator object for '" ++ path.text ++ "': " ++ error.message
  | .noComparison path => "operator object for '" ++ path.text ++ "' has no comparison"
  | .arrayOperand path =>
    "'" ++ path.text ++ "' cannot be compared to an array; use the `in` operator"

/-- The wording of a fault in an `orderBy`. -/
def OrderFault.message : OrderFault → String
  | .notEntries => "expected an object or an array of objects"
  | .entryNotObject => "each entry must be an object"
  | .emptyEntry => "empty entry"
  | .badName name => badPathMessage name
  | .unknownDirection direction path =>
    "unknown direction '" ++ direction ++ "' for '" ++ path.text ++ "'"
  | .badValue path => "'" ++ path.text ++ "' must map to \"asc\" or \"desc\""

/-- The wording of a fault in a query. -/
def QueryFault.message : QueryFault → String
  | .path text => badPathMessage text
  | .clause fault => "invalid where clause: " ++ fault.message
  | .order fault => "invalid orderBy: " ++ fault.message

/-- The wording of a fault in a descriptor. -/
def DescriptorFault.message : DescriptorFault → String
  | .shape error => error.message
  | .query fault => fault.message

end Roster
