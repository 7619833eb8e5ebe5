import Roster.Json.Shape
import Roster.Query.Descriptor

/-!
# Batches

What a client makes of a page: the rows, read as what they stand for, and how
many rows there are in all. `ClientFault` is what can go wrong on the way.
-/

namespace Roster

/-- Why a client has no rows. -/
inductive ClientFault where
  /-- The server refused. -/
  | status (code : Nat) (body : String)
  /-- A row is not what it should be. -/
  | decode (fault : ShapeError)
  /-- A page would have no rows. -/
  | pageSize
deriving DecidableEq, Repr

namespace ClientFault

/-- The wording of a fault. -/
def message : ClientFault → String
  | status code body => "server responded " ++ decimal code ++ ": " ++ body
  | decode fault => "failed to decode response: " ++ fault.message
  | pageSize => "page size must be at least 1"

/-- The status of a refusal. -/
def status? : ClientFault → Option Nat
  | status code _ => some code
  | _ => none

end ClientFault

/-- Rows of a window, and how many rows there are without it. -/
structure Batch (α : Type) where
  rows : List α
  count : Nat

/-- The batch of a page, every row read. -/
def Page.batch {α : Type} (read : Json → Except ShapeError α) (page : Page) :
    Except ClientFault (Batch α) :=
  match page.data.mapM read with
  | .ok rows => .ok ⟨rows, page.count⟩
  | .error fault => .error (.decode fault)

/-- How many pages of a size some items fill. -/
def pageCount (items size : Nat) : Nat := (items + size - 1) / size

/-- Where the list of an entity is asked for. -/
def listLocation (base entity : String) : String :=
  String.ofList (base.toList.reverse.dropWhile (· = '/')).reverse ++ "/api/" ++ entity ++ "/list"

end Roster
