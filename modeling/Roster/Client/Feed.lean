import Roster.Client.Batch

/-!
# Feeds

A feed gathers the pages of a list, one after the other. Each way to ask for a
page has two steps: the first one changes the feed and yields a `Ticket`, the
query to send; the second one, `Feed.complete`, applies the answer to that
ticket. In between anything else can happen to the feed.

Whatever starts a feed over gives it a new generation. A ticket carries the
generation that it was issued under, and the answer to a ticket of an earlier
generation is dropped. So the rows of a feed are always those of one
configuration.
-/

namespace Roster

/-- What a feed shows. -/
structure FeedConfig where
  descriptor : Descriptor
  pageSize : Nat

namespace FeedConfig

/-- The query for a window. -/
def window (c : FeedConfig) (skip : Nat) : Descriptor := c.descriptor.window skip c.pageSize

/-- The same query in pages of the same size. -/
def agrees (a b : FeedConfig) : Bool := a.descriptor.agrees b.descriptor && a.pageSize = b.pageSize

end FeedConfig

/-- Where later pages go. -/
inductive Growth where
  /-- After the rows that are there. -/
  | append
  /-- Before the rows that are there. -/
  | prepend
deriving DecidableEq, Repr, Inhabited

/-- What a feed waits for. -/
inductive FeedMode where
  | idle
  | initialLoad
  | loadingMore
deriving DecidableEq, Repr

/-- What has been gathered. -/
structure Gathered (α : Type) where
  rows : List α := []
  /-- Where the last page starts. -/
  skip : Nat := 0
  totalItems : Nat := 0
  totalPages : Nat := 0
  loadingMore : Bool := false

/-- Which page a ticket is for. -/
inductive FeedPhase where
  | initial
  | more (skip : Nat)
deriving DecidableEq, Repr

/-- A query on its way. -/
structure Ticket where
  generation : Nat
  request : Descriptor
  phase : FeedPhase

/-- What came of asking for a page. -/
inductive LoadOutcome where
  /-- The page was applied. -/
  | loaded (rows : Nat)
  /-- There was nothing to ask for. -/
  | skipped
  /-- The page came too late. -/
  | discarded
deriving DecidableEq, Repr

/-- A list that grows page by page. -/
structure Feed (α : Type) where
  growth : Growth
  config : Option FeedConfig := none
  generation : Nat := 0
  mode : FeedMode := .idle
  state : Gathered α := {}

namespace Feed

variable {α : Type}

/-! ## Asking -/

/-- A feed that starts over with the first page of a configuration. -/
def restart (f : Feed α) (c : FeedConfig) : Feed α × Ticket :=
  let generation := f.generation + 1
  ({ f with config := some c, generation := generation, mode := .initialLoad, state := {} },
    ⟨generation, c.window 0, .initial⟩)

/-- Adopts a configuration. With the one that it already has, the feed goes on as it is. -/
def configure (f : Feed α) (c : FeedConfig) : Except ClientFault (Feed α × Option Ticket) :=
  if c.pageSize = 0 then .error .pageSize
  else if f.config.any fun old => old.agrees c then .ok (f, none)
  else
    let (f, ticket) := f.restart c
    .ok (f, some ticket)

/-- Starts over with the configuration that the feed has. -/
def reload (f : Feed α) : Feed α × Option Ticket :=
  match f.config with
  | none => (f, none)
  | some c =>
    let (f, ticket) := f.restart c
    (f, some ticket)

/-- The number of the last page that was loaded, counted from one. -/
def currentPage (f : Feed α) : Nat :=
  match f.config with
  | none => 0
  | some c => f.state.skip / c.pageSize + 1

/-- There is a further page, and nothing is on its way. -/
def canLoadMore (f : Feed α) : Bool :=
  f.config.isSome && f.mode = .idle && !f.state.loadingMore && f.currentPage < f.state.totalPages

/-- Asks for the next page. -/
def loadMore (f : Feed α) : Feed α × Option Ticket :=
  match f.config with
  | none => (f, none)
  | some c =>
    if f.canLoadMore then
      let skip := f.state.skip + c.pageSize
      ({ f with mode := .loadingMore, state := { f.state with loadingMore := true } },
        some ⟨f.generation, c.window skip, .more skip⟩)
    else (f, none)

/-- Forgets the configuration and all rows. -/
def reset (f : Feed α) : Feed α :=
  { f with config := none, generation := f.generation + 1, mode := .idle, state := {} }

/-! ## Answers -/

/-- Rows together with those of a further page. -/
def grow (growth : Growth) (rows page : List α) : List α :=
  match growth with
  | .append => rows ++ page
  | .prepend => page ++ rows

/-- What has been gathered after a page. -/
def gather (f : Feed α) (phase : FeedPhase) (batch : Batch α) : Gathered α :=
  let size := (f.config.map FeedConfig.pageSize).getD 1
  let (rows, skip) :=
    match phase with
    | .initial => (batch.rows, 0)
    | .more skip => (grow f.growth f.state.rows batch.rows, skip)
  ⟨rows, skip, batch.count, pageCount batch.count size, false⟩

/-- Applies the answer to a ticket. -/
def complete (f : Feed α) (t : Ticket) (result : Except ClientFault (Batch α)) :
    Feed α × Except ClientFault LoadOutcome :=
  if f.generation ≠ t.generation then (f, .ok .discarded)
  else
    match result with
    | .error fault =>
      ({ f with mode := .idle, state := { f.state with loadingMore := false } }, .error fault)
    | .ok batch =>
      ({ f with mode := .idle, state := f.gather t.phase batch }, .ok (.loaded batch.rows.length))

end Feed

end Roster
