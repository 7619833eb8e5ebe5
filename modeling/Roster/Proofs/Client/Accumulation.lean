import Mathlib.Logic.Relation
import Roster.Client.Feed

/-!
# What a feed has gathered

A feed is a machine with two kinds of steps. A call issues a ticket, and the answer to a ticket is
applied later; in between any other step can be taken. `FeedRun.Step` is one such step on a feed and
the tickets on their way, `FeedRun.Reaches` is any number of them, and `FeedRun.accumulates` says
what a feed holds whatever happened: nothing, or the first pages of its configuration, each once.

The list behind the feed is fixed for every query, but an answer can fail, it can come late, and
answers can come in any order. What keeps the rows together is that the tickets of the feed's own
generation are known from the feed alone (`Feed.awaited`): there is none, or there is one, and then
the mode says for which page.
-/

namespace Roster

variable {α : Type}

/-! ## Pages of a list -/

/-- The query without its window. -/
def Descriptor.windowless (q : Descriptor) : Descriptor := { q with skip := none, take := none }

/-- The window that a query asks for, of lists that stay as they are. -/
def windowOf (rows : Descriptor → List α) (q : Descriptor) : Batch α :=
  let all := rows q.windowless
  let rest := all.drop (q.skip.getD 0)
  ⟨(q.take.map rest.take).getD rest, all.length⟩

/-- The rows of a page, the pages counted from zero. -/
def pageOf (rows : List α) (size page : Nat) : List α := (rows.drop (page * size)).take size

theorem windowOf_window (rows : Descriptor → List α) (q : Descriptor) (size page : Nat) :
    windowOf rows (q.window (page * size) size) =
      ⟨pageOf (rows q.windowless) size page, (rows q.windowless).length⟩ := rfl

/-- The first pages of a list, as a feed that grows this way shows them. -/
def Growth.firstPages (growth : Growth) (pages : Nat → List α) (count : Nat) : List α :=
  match growth with
  | .append => ((List.range count).map pages).flatten
  | .prepend => ((List.range count).map pages).reverse.flatten

theorem Growth.firstPages_one (growth : Growth) (pages : Nat → List α) :
    growth.firstPages pages 1 = pages 0 := by
  cases growth <;> simp [firstPages]

/-- One more page stands where the feed grows. -/
theorem Growth.grow_firstPages (growth : Growth) (pages : Nat → List α) (count : Nat) :
    Feed.grow growth (growth.firstPages pages count) (pages count) =
      growth.firstPages pages (count + 1) := by
  cases growth <;> simp [firstPages, Feed.grow, List.range_succ]

namespace Feed

/-! ## What a feed knows -/

/-- Nothing has been gathered. -/
def Blank (f : Feed α) : Prop :=
  f.state.rows = [] ∧ f.state.skip = 0 ∧ f.state.totalItems = 0 ∧ f.state.totalPages = 0

/-- The feed has gathered the first pages of a list with so many rows, and nothing else. -/
structure HoldsPages (pages : Nat → List α) (total : Nat) (c : FeedConfig) (count : Nat)
    (f : Feed α) : Prop where
  rows : f.state.rows = f.growth.firstPages pages count
  skip : f.state.skip + c.pageSize = count * c.pageSize
  totalItems : f.state.totalItems = total
  totalPages : f.state.totalPages = pageCount total c.pageSize

/-- The feed has gathered the first pages of its configuration, of lists that stay as they are. -/
def HoldsFirst (source : Descriptor → List α) (c : FeedConfig) (count : Nat) (f : Feed α) : Prop :=
  let rows := source c.descriptor.windowless
  f.HoldsPages (pageOf rows c.pageSize) rows.length c count

/-- The tickets that the feed waits for. -/
def awaited (f : Feed α) : List Ticket :=
  match f.config, f.mode with
  | some c, .initialLoad => [⟨f.generation, c.window 0, .initial⟩]
  | some c, .loadingMore =>
    let skip := f.state.skip + c.pageSize
    [⟨f.generation, c.window skip, .more skip⟩]
  | _, _ => []

theorem length_awaited_le (f : Feed α) : f.awaited.length ≤ 1 := by
  unfold awaited
  split <;> simp

/-- A feed waits for nothing exactly when it is idle. -/
theorem awaited_eq_nil_iff {f : Feed α} (unset : f.config = none → f.mode = .idle) :
    f.mode = .idle ↔ f.awaited = [] := by
  cases hconfig : f.config <;> cases hmode : f.mode <;> simp_all [awaited]

/-- The same rows, gathered from the same place. -/
def SameRows (f g : Feed α) : Prop :=
  g.state.rows = f.state.rows ∧ g.state.skip = f.state.skip ∧
    g.state.totalItems = f.state.totalItems ∧ g.state.totalPages = f.state.totalPages

/-! ## What a call does -/

theorem configure_cases {f g : Feed α} {c : FeedConfig} {ticket : Option Ticket}
    (h : f.configure c = .ok (g, ticket)) :
    (g = f ∧ ticket = none) ∨
      (0 < c.pageSize ∧ g = (f.restart c).1 ∧ ticket = some (f.restart c).2) := by
  unfold configure at h
  split at h
  · cases h
  · next sized =>
    split at h
    · cases h
      exact .inl ⟨rfl, rfl⟩
    · cases h
      exact .inr ⟨Nat.pos_of_ne_zero sized, rfl, rfl⟩

theorem reload_cases (f : Feed α) :
    f.reload = (f, none) ∨
      ∃ c, f.config = some c ∧ f.reload = ((f.restart c).1, some (f.restart c).2) := by
  unfold reload
  split
  · exact .inl rfl
  · next c h => exact .inr ⟨c, h, rfl⟩

/-- A further page is asked for when the feed is idle and there is one. -/
theorem loadMore_cases (f : Feed α) :
    f.loadMore = (f, none) ∨
      ∃ c, f.config = some c ∧ f.mode = .idle ∧ f.currentPage < f.state.totalPages ∧
        f.loadMore =
          ({ f with mode := .loadingMore, state := { f.state with loadingMore := true } },
            some ⟨f.generation, c.window (f.state.skip + c.pageSize),
              .more (f.state.skip + c.pageSize)⟩) := by
  unfold loadMore
  split
  · exact .inl rfl
  · next c hconfig =>
    split
    · next more =>
      simp only [canLoadMore, Bool.and_eq_true, decide_eq_true_eq] at more
      obtain ⟨⟨⟨-, idle⟩, -⟩, further⟩ := more
      exact .inr ⟨c, hconfig, idle, further, rfl⟩
    · exact .inl rfl

/-- An answer is too late, or a failure that ends the waiting, or a page that is gathered. -/
theorem complete_cases (f : Feed α) (t : Ticket) (result : Except ClientFault (Batch α)) :
    (t.generation ≠ f.generation ∧ f.complete t result = (f, .ok .discarded)) ∨
      (t.generation = f.generation ∧
        ((∃ fault, result = .error fault ∧ f.complete t result =
            ({ f with mode := .idle, state := { f.state with loadingMore := false } },
              .error fault)) ∨
          ∃ batch, result = .ok batch ∧ f.complete t result =
            ({ f with mode := .idle, state := f.gather t.phase batch },
              .ok (.loaded batch.rows.length)))) := by
  unfold complete
  split
  · next past => exact .inl ⟨Ne.symm past, rfl⟩
  · next same =>
    refine .inr ⟨(Decidable.not_not.mp same).symm, ?_⟩
    cases result with
    | error fault => exact .inl ⟨fault, rfl, rfl⟩
    | ok batch => exact .inr ⟨batch, rfl, rfl⟩

/-- A failure never touches what has been gathered. -/
theorem sameRows_complete_error (f : Feed α) (t : Ticket) (fault : ClientFault) :
    f.SameRows (f.complete t (.error fault)).1 := by
  unfold complete
  split <;> exact ⟨rfl, rfl, rfl, rfl⟩

/-! ## Gathering pages -/

variable {f : Feed α} {c : FeedConfig} {pages : Nat → List α} {total count : Nat}

/-- The first page is all that a feed has. -/
theorem holdsPages_initial (hconfig : f.config = some c) :
    HoldsPages pages total c 1
      { f with mode := .idle, state := f.gather .initial ⟨pages 0, total⟩ } := by
  refine ⟨?_, ?_, ?_, ?_⟩ <;>
    simp only [gather, hconfig, Option.map_some, Option.getD_some]
  · rw [Growth.firstPages_one]
  · omega

/-- A further page is the one after those that the feed has. -/
theorem HoldsPages.more (held : f.HoldsPages pages total c count) (hconfig : f.config = some c) :
    HoldsPages pages total c (count + 1)
      { f with
        mode := .idle
        state := f.gather (.more (f.state.skip + c.pageSize)) ⟨pages count, total⟩ } := by
  refine ⟨?_, ?_, ?_, ?_⟩ <;>
    simp only [gather, hconfig, Option.map_some, Option.getD_some]
  · rw [held.rows, Growth.grow_firstPages]
  · rw [held.skip, Nat.add_mul, Nat.one_mul]

theorem HoldsPages.pos (held : f.HoldsPages pages total c count) (sized : 0 < c.pageSize) :
    0 < count := by
  have skip := held.skip
  cases count with
  | zero => omega
  | succ count => exact Nat.succ_pos count

/-- The number of pages that a feed has is the number of the last one, counted from one. -/
theorem HoldsPages.currentPage (held : f.HoldsPages pages total c count)
    (hconfig : f.config = some c) (sized : 0 < c.pageSize) : f.currentPage = count := by
  have skip := held.skip
  rw [Feed.currentPage, hconfig]
  calc f.state.skip / c.pageSize + 1
      = (f.state.skip + c.pageSize) / c.pageSize := (Nat.add_div_right _ sized).symm
    _ = count := by rw [skip, Nat.mul_div_cancel _ sized]

end Feed

/-- A feed among its calls. -/
structure FeedRun (α : Type) where
  feed : Feed α
  /-- The tickets on their way. -/
  flights : List Ticket := []
  /-- How many pages were applied since the feed last started over. -/
  applied : Nat := 0

namespace FeedRun

/-! ## Steps -/

/-- The first step of a call: its ticket, if there is one, is on its way. -/
def issue (s : FeedRun α) (feed : Feed α) (ticket : Option Ticket) : FeedRun α where
  feed := feed
  flights := s.flights ++ ticket.toList
  applied := if feed.generation = s.feed.generation then s.applied else 0

/-- The second step of a call: an answer was applied, and other tickets are left. -/
def settle (s : FeedRun α) (others : List Ticket)
    (done : Feed α × Except ClientFault LoadOutcome) : FeedRun α where
  feed := done.1
  flights := others
  applied :=
    match done.2 with
    | .ok (.loaded _) => s.applied + 1
    | _ => s.applied

/-- One step of any call. A configuration that is refused changes nothing. The answer to a ticket is
a failure, or the window that it asks for. -/
inductive Step (rows : Descriptor → List α) : FeedRun α → FeedRun α → Prop
  | configure {s : FeedRun α} {c : FeedConfig} {feed : Feed α} {ticket : Option Ticket} :
      s.feed.configure c = .ok (feed, ticket) → Step rows s (s.issue feed ticket)
  | reload {s : FeedRun α} : Step rows s (s.issue s.feed.reload.1 s.feed.reload.2)
  | loadMore {s : FeedRun α} : Step rows s (s.issue s.feed.loadMore.1 s.feed.loadMore.2)
  | reset {s : FeedRun α} : Step rows s (s.issue s.feed.reset none)
  | complete {s : FeedRun α} {before after : List Ticket} {t : Ticket}
      {result : Except ClientFault (Batch α)} :
      s.flights = before ++ t :: after →
        (∀ batch, result = .ok batch → batch = windowOf rows t.request) →
          Step rows s (s.settle (before ++ after) (s.feed.complete t result))

/-- A new feed gets there by steps of its calls, in any order. -/
def Reaches (rows : Descriptor → List α) (growth : Growth) (s : FeedRun α) : Prop :=
  Relation.ReflTransGen (Step rows) { feed := { growth := growth } } s

/-- The tickets of the feed's generation. -/
def current (s : FeedRun α) : List Ticket :=
  s.flights.filter fun t => t.generation = s.feed.generation

/-! ## The invariant -/

/-- What every step keeps. -/
structure Sound (rows : Descriptor → List α) (s : FeedRun α) : Prop where
  past : ∀ t ∈ s.flights, t.generation ≤ s.feed.generation
  awaits : s.current = s.feed.awaited
  flag : s.feed.state.loadingMore = true ↔ s.feed.mode = .loadingMore
  unset : s.feed.config = none → s.feed.mode = .idle ∧ s.applied = 0 ∧ s.feed.Blank
  sized : ∀ c, s.feed.config = some c → 0 < c.pageSize
  holds : ∀ c, s.feed.config = some c →
    (s.applied = 0 ∧ s.feed.Blank ∧ s.feed.mode ≠ .loadingMore) ∨
      (0 < s.applied ∧ s.feed.HoldsFirst rows c s.applied ∧ s.feed.mode ≠ .initialLoad)

variable {rows : Descriptor → List α} {s : FeedRun α}

theorem sound_start (growth : Growth) :
    Sound rows { feed := { growth := growth } : FeedRun α } where
  past := nofun
  awaits := rfl
  flag := ⟨nofun, nofun⟩
  unset _ := ⟨rfl, rfl, rfl, rfl, rfl, rfl⟩
  sized := nofun
  holds := nofun

/-- Nothing on its way is of a later generation. -/
theorem Sound.filter_flights (sound : s.Sound rows) {generation : Nat}
    (later : s.feed.generation < generation) :
    s.flights.filter (fun t => t.generation = generation) = [] := by
  refine List.filter_eq_nil_iff.mpr fun t member => ?_
  have old := sound.past t member
  simp only [decide_eq_true_eq]
  omega

theorem Sound.restart (sound : s.Sound rows) {c : FeedConfig} (sized : 0 < c.pageSize) :
    (s.issue (s.feed.restart c).1 (some (s.feed.restart c).2)).Sound rows where
  past t member := by
    rcases List.mem_append.mp member with member | member
    · have old := sound.past t member
      exact Nat.le_succ_of_le old
    · obtain rfl := List.mem_singleton.mp member
      exact Nat.le_refl _
  awaits := by
    have older := sound.filter_flights (Nat.lt_succ_self s.feed.generation)
    simp [current, issue, Feed.restart, Feed.awaited, older]
  flag := ⟨nofun, nofun⟩
  unset := nofun
  sized c' h := by
    obtain rfl : c = c' := Option.some.inj h
    exact sized
  holds c' _ := by
    left
    refine ⟨?_, ⟨rfl, rfl, rfl, rfl⟩, nofun⟩
    simp [issue, Feed.restart]

/-- A call that issues nothing and leaves the feed alone is no step. -/
theorem issue_self (s : FeedRun α) : s.issue s.feed none = s := by
  simp [issue]

theorem Sound.configure (sound : s.Sound rows) {c : FeedConfig} {feed : Feed α}
    {ticket : Option Ticket} (h : s.feed.configure c = .ok (feed, ticket)) :
    (s.issue feed ticket).Sound rows := by
  rcases Feed.configure_cases h with ⟨rfl, rfl⟩ | ⟨sized, rfl, rfl⟩
  · rw [issue_self]
    exact sound
  · exact sound.restart sized

theorem Sound.reload (sound : s.Sound rows) :
    (s.issue s.feed.reload.1 s.feed.reload.2).Sound rows := by
  rcases s.feed.reload_cases with same | ⟨c, hconfig, again⟩
  · rw [same, issue_self]
    exact sound
  · rw [again]
    exact sound.restart (sound.sized c hconfig)

theorem Sound.reset (sound : s.Sound rows) : (s.issue s.feed.reset none).Sound rows where
  past t member := by
    have member : t ∈ s.flights := by simpa [issue] using member
    exact Nat.le_succ_of_le (sound.past t member)
  awaits := by
    have older := sound.filter_flights (Nat.lt_succ_self s.feed.generation)
    simp [current, issue, Feed.reset, Feed.awaited, older]
  flag := ⟨nofun, nofun⟩
  unset _ := by
    refine ⟨rfl, ?_, rfl, rfl, rfl, rfl⟩
    simp [issue, Feed.reset]
  sized := nofun
  holds := nofun

theorem Sound.loadMore (sound : s.Sound rows) :
    (s.issue s.feed.loadMore.1 s.feed.loadMore.2).Sound rows := by
  rcases s.feed.loadMore_cases with same | ⟨c, hconfig, idle, further, more⟩
  · rw [same, issue_self]
    exact sound
  · have nothing : s.current = [] := by rw [sound.awaits, Feed.awaited, hconfig, idle]
    have pages : 0 < s.applied ∧ s.feed.HoldsFirst rows c s.applied := by
      rcases sound.holds c hconfig with ⟨-, ⟨-, -, -, empty⟩, -⟩ | ⟨some_, pages, -⟩
      · omega
      · exact ⟨some_, pages⟩
    have applied : (s.issue s.feed.loadMore.1 s.feed.loadMore.2).applied = s.applied := by
      simp [issue, more]
    rw [more] at applied ⊢
    refine ⟨fun t member => ?_, ?_, ⟨fun _ => rfl, fun _ => rfl⟩, ?_, sound.sized, ?_⟩
    · rcases List.mem_append.mp member with member | member
      · exact sound.past t member
      · obtain rfl := List.mem_singleton.mp member
        exact Nat.le_refl _
    · have older : s.flights.filter (fun t => t.generation = s.feed.generation) = [] := nothing
      simp [current, issue, Feed.awaited, hconfig, older]
    · intro unset
      rw [show s.feed.config = none from unset] at hconfig
      cases hconfig
    · intro c' hc'
      obtain rfl : c = c' := Option.some.inj (hconfig.symm.trans hc')
      right
      rw [applied]
      obtain ⟨some_, pages⟩ := pages
      exact ⟨some_, ⟨pages.rows, pages.skip, pages.totalItems, pages.totalPages⟩, nofun⟩

/-- The ticket that is answered is the one that the feed waits for, and no other is. -/
theorem Sound.awaited_eq (sound : s.Sound rows) {before after : List Ticket} {t : Ticket}
    (flights : s.flights = before ++ t :: after) (same : t.generation = s.feed.generation) :
    s.feed.awaited = [t] ∧
      (before ++ after).filter (fun t => t.generation = s.feed.generation) = [] := by
  have waits : s.current = s.feed.awaited := sound.awaits
  rw [current, flights, List.filter_append, List.filter_cons_of_pos (by simpa using same)] at waits
  have single := s.feed.length_awaited_le
  rw [← waits, List.length_append, List.length_cons] at single
  have front : before.filter (fun t => t.generation = s.feed.generation) = [] :=
    List.length_eq_zero_iff.mp (by omega)
  have back : after.filter (fun t => t.generation = s.feed.generation) = [] :=
    List.length_eq_zero_iff.mp (by omega)
  rw [← waits, List.filter_append, front, back]
  exact ⟨rfl, rfl⟩

/-- The page that the feed waits for is the one after those that it has. -/
theorem Sound.gather (sound : s.Sound rows) {c : FeedConfig} {t : Ticket}
    (hconfig : s.feed.config = some c) (waits : s.feed.awaited = [t]) :
    Feed.HoldsFirst rows c (s.applied + 1)
      { s.feed with mode := .idle, state := s.feed.gather t.phase (windowOf rows t.request) } := by
  unfold Feed.awaited at waits
  rw [hconfig] at waits
  cases hmode : s.feed.mode with
  | idle =>
    rw [hmode] at waits
    cases waits
  | initialLoad =>
    rw [hmode] at waits
    obtain rfl := List.singleton_inj.mp waits
    have first : s.applied = 0 := by
      rcases sound.holds c hconfig with ⟨none_, -, -⟩ | ⟨-, -, wrong⟩
      · exact none_
      · exact absurd hmode wrong
    have page := windowOf_window rows c.descriptor c.pageSize 0
    rw [Nat.zero_mul] at page
    rw [first, FeedConfig.window, page]
    exact Feed.holdsPages_initial hconfig
  | loadingMore =>
    rw [hmode] at waits
    obtain rfl := List.singleton_inj.mp waits
    have held : s.feed.HoldsFirst rows c s.applied := by
      rcases sound.holds c hconfig with ⟨-, -, wrong⟩ | ⟨-, held, -⟩
      · exact absurd hmode wrong
      · exact held
    have page := windowOf_window rows c.descriptor c.pageSize s.applied
    rw [← held.skip] at page
    rw [FeedConfig.window, page]
    exact held.more hconfig

theorem Sound.complete (sound : s.Sound rows) {before after : List Ticket} {t : Ticket}
    {result : Except ClientFault (Batch α)} (flights : s.flights = before ++ t :: after)
    (honest : ∀ batch, result = .ok batch → batch = windowOf rows t.request) :
    (s.settle (before ++ after) (s.feed.complete t result)).Sound rows := by
  have past : ∀ u ∈ before ++ after, u.generation ≤ s.feed.generation := by
    intro u member
    refine sound.past u (flights ▸ ?_)
    rcases List.mem_append.mp member with member | member
    · exact List.mem_append_left _ member
    · exact List.mem_append_right _ (List.mem_cons_of_mem _ member)
  rcases s.feed.complete_cases t result with ⟨late, done⟩ | ⟨same, ended⟩
  · rw [done]
    have others : (before ++ after).filter (fun u => u.generation = s.feed.generation) =
        s.current := by
      rw [current, flights, List.filter_append, List.filter_append,
        List.filter_cons_of_neg (by simpa using late)]
    exact ⟨past, others.trans sound.awaits, sound.flag, sound.unset, sound.sized, sound.holds⟩
  · obtain ⟨waits, others⟩ := sound.awaited_eq flights same
    -- the feed has a configuration, for it waits for something
    obtain ⟨c, hconfig⟩ : ∃ c, s.feed.config = some c := by
      cases hconfig : s.feed.config with
      | some c => exact ⟨c, rfl⟩
      | none =>
        rw [Feed.awaited, hconfig] at waits
        cases waits
    rcases ended with ⟨fault, rfl, done⟩ | ⟨batch, rfl, done⟩
    · rw [done]
      refine ⟨past, ?_, ⟨nofun, nofun⟩, fun unset => ?_, sound.sized, fun c' hc' => ?_⟩
      · simpa [current, settle, Feed.awaited, hconfig] using others
      · rw [show s.feed.config = none from unset] at hconfig
        cases hconfig
      · rcases sound.holds c' hc' with ⟨none_, blank, -⟩ | ⟨some_, pages, -⟩
        · exact .inl ⟨none_, blank, nofun⟩
        · exact .inr ⟨some_, ⟨pages.rows, pages.skip, pages.totalItems, pages.totalPages⟩, nofun⟩
    · obtain rfl := honest batch rfl
      rw [done]
      refine ⟨past, ?_, ⟨nofun, nofun⟩, fun unset => ?_, sound.sized, fun c' hc' => ?_⟩
      · simpa [current, settle, Feed.awaited, hconfig] using others
      · rw [show s.feed.config = none from unset] at hconfig
        cases hconfig
      · exact .inr ⟨Nat.succ_pos _, sound.gather hc' waits, nofun⟩

/-- Every step keeps the invariant. -/
theorem Sound.step (sound : s.Sound rows) {after : FeedRun α} (h : Step rows s after) :
    after.Sound rows := by
  cases h with
  | configure done => exact sound.configure done
  | reload => exact sound.reload
  | loadMore => exact sound.loadMore
  | reset => exact sound.reset
  | complete flights honest => exact sound.complete flights honest

/-! ## Every run -/

theorem sound_of_reaches {growth : Growth} (reached : Reaches rows growth s) : s.Sound rows := by
  induction reached with
  | refl => exact sound_start growth
  | tail _ step ih => exact ih.step step

/-- A feed keeps growing where it grows. -/
theorem Step.growth {after : FeedRun α} (h : Step rows s after) :
    after.feed.growth = s.feed.growth := by
  cases h with
  | configure done =>
    rcases Feed.configure_cases done with ⟨rfl, rfl⟩ | ⟨-, rfl, rfl⟩ <;> rfl
  | reload =>
    rcases s.feed.reload_cases with same | ⟨c, -, again⟩
    · rw [same, issue_self]
    · rw [again]
      rfl
  | loadMore =>
    rcases s.feed.loadMore_cases with same | ⟨c, -, -, -, more⟩
    · rw [same, issue_self]
    · rw [more]
      rfl
  | reset => rfl
  | @complete before after t result flights honest =>
    rcases s.feed.complete_cases t result with ⟨-, done⟩ | ⟨-, ⟨_, -, done⟩ | ⟨_, -, done⟩⟩ <;>
      (rw [done]; rfl)

theorem growth_of_reaches {growth : Growth} (reached : Reaches rows growth s) :
    s.feed.growth = growth := by
  induction reached with
  | refl => rfl
  | tail _ step ih => exact step.growth.trans ih

/-- **What a feed holds, whatever happened.** A feed with a configuration has applied nothing since it
started over, and is blank, or it holds its first pages up to the current one, each once and in the
order in which it grows. It waits for at most one ticket of its generation, it is idle exactly when
there is none, and it shows that it loads more exactly when it does. The answer to any other ticket
is dropped, and a failure leaves the rows as they are. -/
theorem accumulates {growth : Growth} (reached : Reaches rows growth s) :
    (s.feed.growth = growth ∧ ∀ c, s.feed.config = some c →
      (s.applied = 0 ∧ s.feed.Blank) ∨
        (s.applied = s.feed.currentPage ∧ s.feed.HoldsFirst rows c s.applied)) ∧
    (s.current.length ≤ 1 ∧ (s.feed.mode = .idle ↔ s.current = []) ∧
      (s.feed.state.loadingMore = true ↔ s.feed.mode = .loadingMore)) ∧
    (∀ t result, t.generation ≠ s.feed.generation →
      s.feed.complete t result = (s.feed, .ok .discarded)) ∧
    ∀ t fault, s.feed.SameRows (s.feed.complete t (.error fault)).1 := by
  have sound := sound_of_reaches reached
  refine ⟨⟨growth_of_reaches reached, fun c hconfig => ?_⟩, ⟨?_, ?_, sound.flag⟩, ?_,
    s.feed.sameRows_complete_error⟩
  · rcases sound.holds c hconfig with ⟨none_, blank, -⟩ | ⟨-, pages, -⟩
    · exact .inl ⟨none_, blank⟩
    · have page := pages.currentPage hconfig (sound.sized c hconfig)
      exact .inr ⟨page.symm, pages⟩
  · rw [sound.awaits]
    exact s.feed.length_awaited_le
  · rw [sound.awaits, Feed.awaited_eq_nil_iff fun unset => (sound.unset unset).1]
  · intro t result late
    rcases s.feed.complete_cases t result with ⟨-, done⟩ | ⟨same, -⟩
    · exact done
    · exact absurd same late

/-- The only ticket on its way is answered. -/
theorem Step.answer (t : Ticket) (result : Except ClientFault (Batch α)) (flights : s.flights = [t])
    (honest : ∀ batch, result = .ok batch → batch = windowOf rows t.request) :
    Step rows s (s.settle [] (s.feed.complete t result)) :=
  .complete (show s.flights = [] ++ t :: [] from flights) honest

/-- The windows that a feed over a list in pages of two asks for first. -/
def firstPair : Ticket := ⟨1, { skip := some 0, take := some 2 }, .initial⟩

def secondPair : Ticket := ⟨1, { skip := some 2, take := some 2 }, .more 2⟩

/-- A feed over three rows in pages of two: it is configured, gets its first page, loads more while
the answer fails once, loads more again, and has all three. -/
theorem accumulates_two_pages : ∃ s : FeedRun Nat,
    Reaches (fun _ => [1, 2, 3]) .append s ∧ s.feed.state.rows = [1, 2, 3] ∧ s.applied = 2 ∧
      s.feed.HoldsFirst (fun _ => [1, 2, 3]) ⟨{}, 2⟩ 2 := by
  obtain ⟨s, reached, hconfig, rows, applied⟩ : ∃ s : FeedRun Nat,
      Reaches (fun _ => [1, 2, 3]) .append s ∧ s.feed.config = some ⟨{}, 2⟩ ∧
        s.feed.state.rows = [1, 2, 3] ∧ s.applied = 2 := by
    have configured : Reaches (fun _ => [1, 2, 3]) .append _ :=
      .single (.configure (c := ⟨{}, 2⟩) rfl)
    have first := configured.tail (.answer firstPair (.ok ⟨[1, 2], 3⟩) rfl fun _ h => by cases h; rfl)
    have failed := (first.tail .loadMore).tail (.answer secondPair (.error .pageSize) rfl nofun)
    have second := (failed.tail .loadMore).tail
      (.answer secondPair (.ok ⟨[3], 3⟩) rfl fun _ h => by cases h; rfl)
    exact ⟨_, second, rfl, rfl, rfl⟩
  refine ⟨s, reached, rows, applied, ?_⟩
  rcases (accumulates reached).1.2 ⟨{}, 2⟩ hconfig with ⟨none_, -⟩ | ⟨-, pages⟩
  · rw [none_] at applied
    cases applied
  · rwa [applied] at pages

end FeedRun

end Roster
