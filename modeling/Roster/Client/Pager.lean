import Roster.Client.Batch

/-!
# Pagers

A pager shows one page of a list at a time. Moving changes only where the window
starts; the page there has to be fetched. Pages are counted from one.
-/

namespace Roster

/-- A window on a list, and the page that was fetched last. -/
structure Pager (α : Type) where
  descriptor : Descriptor
  pageSize : Nat
  skip : Nat := 0
  totalItems : Nat := 0
  rows : List α := []

namespace Pager

variable {α : Type}

/-- A pager on the first page. A page has a row at least. -/
def of (descriptor : Descriptor) (pageSize : Nat) : Except ClientFault (Pager α) :=
  if pageSize = 0 then .error .pageSize else .ok { descriptor := descriptor, pageSize := pageSize }

/-- The query for the page. It replaces the window of the descriptor. -/
def request (p : Pager α) : Descriptor := p.descriptor.window p.skip p.pageSize

/-- The pager after a fetch; one that failed changes nothing. -/
def receive (p : Pager α) (result : Except ClientFault (Batch α)) :
    Pager α × Except ClientFault (List α) :=
  match result with
  | .ok batch => ({ p with totalItems := batch.count, rows := batch.rows }, .ok batch.rows)
  | .error fault => (p, .error fault)

/-- The number of the page on which the window starts. -/
def currentPage (p : Pager α) : Nat := p.skip / p.pageSize + 1

/-- How many pages there are. -/
def totalPages (p : Pager α) : Nat := pageCount p.totalItems p.pageSize

/-- There is a page after this one. -/
def hasNext (p : Pager α) : Bool := p.currentPage < p.totalPages

/-- There is a page before this one. -/
def hasPrev (p : Pager α) : Bool := 0 < p.skip

/-- The pager on the next page, if there is one. -/
def next? (p : Pager α) : Option (Pager α) :=
  if p.hasNext then some { p with skip := p.skip + p.pageSize } else none

/-- The pager on the page before, if there is one. -/
def prev? (p : Pager α) : Option (Pager α) :=
  if p.hasPrev then some { p with skip := p.skip - p.pageSize } else none

/-- The pager on another page, if there is such a page. -/
def goTo? (p : Pager α) (page : Nat) : Option (Pager α) :=
  if page = 0 ∨ p.totalPages < page ∨ page = p.currentPage then none
  else some { p with skip := (page - 1) * p.pageSize }

/-- The pager with pages of another size, on the first of them. -/
def resize (p : Pager α) (pageSize : Nat) : Except ClientFault (Pager α) :=
  if pageSize = 0 then .error .pageSize else .ok { p with pageSize := pageSize, skip := 0 }

/-- The pager with another query, on its first page. -/
def redirect (p : Pager α) (descriptor : Descriptor) : Pager α :=
  { p with descriptor := descriptor, skip := 0 }

end Pager

end Roster
