import Roster.Client.Pager
import Roster.Proofs.Client.Accumulation
import Roster.Proofs.Client.WordArithmetic

/-!
# Moving through the pages of a list

Counts come with the answers, and nothing is known about them but that they are words: the next one
can be smaller than the last one, and a pager with pages of another size still has the old count.
What a pager and a feed keep whatever they are told is that their window starts with a page and
leaves room behind it (`StartsPage`). A window only moves forward in front of a further page, so it
never leaves the words.

`Pager.callInWords` and the like are the calls with every sum, product and quotient taken in words,
in the order in which they are needed. `paging_in_words` says that they all have a result, and that
it is the result of the call on natural numbers.
-/

namespace Roster

variable {α : Type}

/-- The answer is a fault, or it has a count that is a word. -/
def Counted (result : Except ClientFault (Batch α)) : Prop :=
  ∀ batch, result = .ok batch → Word.Fits batch.count

theorem counted_ok {batch : Batch α} (fits : Word.Fits batch.count) : Counted (.ok batch) := by
  rintro _ ⟨⟩
  exact fits

/-! ## Pagers -/

/-- What a pager can be asked to do. -/
inductive PagerCall (α : Type) where
  /-- Its page is fetched, and this is the answer. -/
  | fetch (result : Except ClientFault (Batch α))
  | next
  | prev
  | goTo (page : Nat)
  | resize (pageSize : Nat)
  | redirect (descriptor : Descriptor)

/-- If something is fetched, its count is a word. -/
def PagerCall.Counted : PagerCall α → Prop
  | fetch result => Roster.Counted result
  | _ => True

namespace Pager

/-- The pager after a move, if there was one. -/
def orStay (p : Pager α) (moved : Option (Pager α)) : Pager α × Bool :=
  (moved.getD p, moved.isSome)

/-- The pager after a call, and whether the call did what it was for. -/
def call (p : Pager α) : PagerCall α → Pager α × Bool
  | .fetch result =>
    let (shown, answer) := p.receive result
    (shown, answer.toBool)
  | .next => p.orStay p.next?
  | .prev => p.orStay p.prev?
  | .goTo page => p.orStay (p.goTo? page)
  | .resize pageSize => p.orStay (p.resize pageSize).toOption
  | .redirect descriptor => (p.redirect descriptor, true)

theorem orStay_eq_true_iff {p q : Pager α} {moved : Option (Pager α)} :
    p.orStay moved = (q, true) ↔ moved = some q := by
  cases moved <;> simp [orStay]

/-- A new pager gets there by calls. -/
inductive Reached : Pager α → Prop
  | of {q : Descriptor} {size : Nat} {p : Pager α} : Pager.of q size = .ok p → Reached p
  | call {p : Pager α} {input : PagerCall α} :
      Reached p → input.Counted → Reached (p.call input).1

/-! ### Calls in words -/

/-- The number of the page, if it can be computed in words; and so for what follows. -/
def currentPageInWords (p : Pager α) : Option Nat := Word.pageNumber? p.pageSize p.skip

def totalPagesInWords (p : Pager α) : Option Nat := Word.ceilDiv? p.totalItems p.pageSize

def hasNextInWords (p : Pager α) : Option Bool := do
  let page ← p.currentPageInWords
  let pages ← p.totalPagesInWords
  return page < pages

def nextInWords (p : Pager α) : Option (Pager α × Bool) := do
  if ← p.hasNextInWords then
    let skip ← Word.add? p.skip p.pageSize
    return ({ p with skip := skip }, true)
  else return (p, false)

/-- The count of pages and the current page are only looked at when they are needed. -/
def goToInWords (p : Pager α) (page : Nat) : Option (Pager α × Bool) := do
  if page = 0 then return (p, false)
  else if (← p.totalPagesInWords) < page then return (p, false)
  else if page = (← p.currentPageInWords) then return (p, false)
  else
    let before ← Word.sub? page 1
    let skip ← Word.mul? before p.pageSize
    return ({ p with skip := skip }, true)

/-- Only two calls compute: the page before starts at zero if it would start earlier. -/
def callInWords (p : Pager α) : PagerCall α → Option (Pager α × Bool)
  | .next => p.nextInWords
  | .goTo page => p.goToInWords page
  | input => some (p.call input)

/-! ### What every call keeps -/

/-- The window starts with a page, and the count is a word. -/
structure OnPage (p : Pager α) : Prop where
  sized : 0 < p.pageSize
  starts : StartsPage p.pageSize p.skip
  items : Word.Fits p.totalItems

variable {p : Pager α}

theorem onPage_of {q : Descriptor} {size : Nat} (new : Pager.of q size = .ok p) : p.OnPage := by
  unfold Pager.of at new
  split at new
  · cases new
  · next sized =>
    cases new
    exact ⟨Nat.pos_of_ne_zero sized, .first size, Nat.two_pow_pos 64⟩

theorem next?_eq_some_iff {q : Pager α} :
    p.next? = some q ↔
      p.currentPage < p.totalPages ∧ q = { p with skip := p.skip + p.pageSize } := by
  simp [next?, hasNext, eq_comm]

theorem goTo?_eq_some_iff {page : Nat} {q : Pager α} :
    p.goTo? page = some q ↔ (page ≠ 0 ∧ page ≤ p.totalPages ∧ page ≠ p.currentPage) ∧
      q = { p with skip := (page - 1) * p.pageSize } := by
  simp [goTo?, eq_comm]

namespace OnPage

theorem moved (onPage : p.OnPage) {skip : Nat} (starts : StartsPage p.pageSize skip) :
    OnPage { p with skip := skip } := ⟨onPage.sized, starts, onPage.items⟩

/-- There is no further page behind the words. -/
theorem next (onPage : p.OnPage) (further : p.currentPage < p.totalPages) :
    StartsPage p.pageSize (p.skip + p.pageSize) :=
  onPage.starts.next onPage.sized onPage.items further

theorem goTo (onPage : p.OnPage) {page : Nat} (some_ : page ≠ 0) (there : page ≤ p.totalPages) :
    StartsPage p.pageSize ((page - 1) * p.pageSize) :=
  .of_lt_pageCount onPage.sized onPage.items (Nat.sub_one_lt_of_le (Nat.pos_of_ne_zero some_) there)

theorem prev (onPage : p.OnPage) : StartsPage p.pageSize (p.skip - p.pageSize) where
  aligned := Nat.dvd_sub onPage.starts.aligned (Nat.dvd_refl _)
  room := onPage.starts.room.mono (Nat.succ_le_succ (Nat.sub_le _ _))

/-- A move that keeps to pages keeps the invariant; without a move nothing changes. -/
theorem orStay (onPage : p.OnPage) {moved : Option (Pager α)}
    (kept : ∀ q, moved = some q → q.OnPage) : (p.orStay moved).1.OnPage := by
  cases moved with
  | none => exact onPage
  | some q => exact kept q rfl

/-- Every call keeps the invariant. -/
theorem call (onPage : p.OnPage) {input : PagerCall α} (counted : input.Counted) :
    (p.call input).1.OnPage := by
  cases input with
  | fetch result =>
    cases result with
    | ok batch => exact ⟨onPage.sized, onPage.starts, counted batch rfl⟩
    | error fault => exact onPage
  | next =>
    refine onPage.orStay fun q moved => ?_
    obtain ⟨further, rfl⟩ := next?_eq_some_iff.mp moved
    exact onPage.moved (onPage.next further)
  | prev =>
    refine onPage.orStay fun q moved => ?_
    simp only [prev?, Option.ite_none_right_eq_some, Option.some.injEq] at moved
    obtain ⟨-, rfl⟩ := moved
    exact onPage.moved onPage.prev
  | goTo page =>
    refine onPage.orStay fun q moved => ?_
    obtain ⟨⟨some_, there, -⟩, rfl⟩ := goTo?_eq_some_iff.mp moved
    exact onPage.moved (onPage.goTo some_ there)
  | resize pageSize =>
    refine onPage.orStay fun q moved => ?_
    unfold Pager.resize at moved
    split at moved
    · cases moved
    · next sized =>
      cases moved
      exact ⟨Nat.pos_of_ne_zero sized, .first pageSize, onPage.items⟩
  | redirect descriptor => exact ⟨onPage.sized, .first p.pageSize, onPage.items⟩

end OnPage

theorem Reached.onPage (reached : p.Reached) : p.OnPage := by
  induction reached with
  | of new => exact onPage_of new
  | call _ counted ih => exact ih.call counted

/-! ### Results in words -/

namespace OnPage

variable (onPage : p.OnPage)
include onPage

theorem currentPageInWords : p.currentPageInWords = some p.currentPage :=
  onPage.starts.pageNumber onPage.sized

theorem totalPagesInWords : p.totalPagesInWords = some p.totalPages :=
  Word.ceilDiv?_eq_pageCount onPage.sized onPage.items

theorem hasNextInWords : p.hasNextInWords = some p.hasNext := by
  rw [Pager.hasNextInWords, onPage.currentPageInWords, onPage.totalPagesInWords]
  rfl

theorem nextInWords : p.nextInWords = some (p.call .next) := by
  rw [Pager.nextInWords, onPage.hasNextInWords, Option.bind_eq_bind, Option.bind_some]
  cases further : p.hasNext with
  | false => simp [Pager.call, Pager.orStay, next?, further]
  | true =>
    have start := onPage.next (of_decide_eq_true further)
    simp [Pager.call, Pager.orStay, next?, further, Word.add?_eq_some start.fits]

theorem goToInWords (page : Nat) : p.goToInWords page = some (p.call (.goTo page)) := by
  rw [Pager.goToInWords, onPage.currentPageInWords, onPage.totalPagesInWords]
  simp only [Option.bind_eq_bind, Option.bind_some, Pager.call, Pager.orStay, goTo?]
  by_cases zero : page = 0
  · simp [zero]
  by_cases beyond : p.totalPages < page
  · simp [zero, beyond]
  by_cases here : page = p.currentPage
  · simp [← here]
  have start := onPage.goTo zero (Nat.le_of_not_lt beyond)
  have before : Word.sub? page 1 = some (page - 1) :=
    Word.sub?_eq_some (Nat.one_le_iff_ne_zero.mpr zero)
  simp [zero, beyond, here, before, Word.mul?_eq_some start.fits]

theorem callInWords (input : PagerCall α) : p.callInWords input = some (p.call input) := by
  cases input with
  | next => exact onPage.nextInWords
  | goTo page => exact onPage.goToInWords page
  | _ => rfl

/-- One page on and one page back. -/
theorem prev_next {q : Pager α} (moved : p.call .next = (q, true)) : q.call .prev = (p, true) := by
  obtain ⟨-, rfl⟩ := next?_eq_some_iff.mp (orStay_eq_true_iff.mp moved)
  have behind : 0 < p.skip + p.pageSize := Nat.add_pos_right _ onPage.sized
  refine orStay_eq_true_iff.mpr ?_
  simp only [prev?, hasPrev, decide_eq_true_eq, if_pos behind, Nat.add_sub_cancel]

theorem currentPage_goTo {page : Nat} {q : Pager α} (moved : p.call (.goTo page) = (q, true)) :
    q.currentPage = page := by
  obtain ⟨⟨some_, -, -⟩, rfl⟩ := goTo?_eq_some_iff.mp (orStay_eq_true_iff.mp moved)
  calc (page - 1) * p.pageSize / p.pageSize + 1
      = page - 1 + 1 := by rw [Nat.mul_div_cancel _ onPage.sized]
    _ = page := Nat.sub_one_add_one some_

end OnPage

/-- A call that does nothing changes nothing. -/
theorem eq_of_call_eq_false {input : PagerCall α} {q : Pager α}
    (refused : p.call input = (q, false)) : q = p := by
  have stayed : ∀ {moved : Option (Pager α)}, p.orStay moved = (q, false) → q = p := by
    intro moved refused
    cases moved with
    | none => exact (congrArg Prod.fst refused).symm
    | some _ => cases refused
  cases input with
  | fetch result =>
    cases result with
    | ok _ => cases refused
    | error _ => exact (congrArg Prod.fst refused).symm
  | redirect _ => cases refused
  | next => exact stayed refused
  | prev => exact stayed refused
  | goTo page => exact stayed refused
  | resize pageSize => exact stayed refused

/-- All that is computed fits into words, and moves go where they should. -/
structure Navigable (p : Pager α) : Prop where
  sized : 1 ≤ p.pageSize
  aligned : p.pageSize ∣ p.skip
  currentPage : p.currentPageInWords = some p.currentPage
  totalPages : p.totalPagesInWords = some p.totalPages
  hasNext : p.hasNextInWords = some p.hasNext
  call : ∀ input, p.callInWords input = some (p.call input)
  back : ∀ q, p.call .next = (q, true) → q.call .prev = (p, true)
  arrives : ∀ page q, p.call (.goTo page) = (q, true) → q.currentPage = page
  refused : ∀ input q, p.call input = (q, false) → q = p

theorem Reached.navigable (reached : p.Reached) : p.Navigable :=
  have onPage := reached.onPage
  { sized := onPage.sized
    aligned := onPage.starts.aligned
    currentPage := onPage.currentPageInWords
    totalPages := onPage.totalPagesInWords
    hasNext := onPage.hasNextInWords
    call := onPage.callInWords
    back := fun _ => onPage.prev_next
    arrives := fun _ _ => onPage.currentPage_goTo
    refused := fun _ _ => eq_of_call_eq_false }

end Pager

/-! ## Feeds -/

namespace Feed

/-! ### Calls in words -/

/-- The number of the last page, if it can be computed in words; and so for what follows. -/
def currentPageInWords (f : Feed α) : Option Nat :=
  match f.config with
  | none => some 0
  | some c => Word.pageNumber? c.pageSize f.state.skip

/-- The page is only looked at when nothing is on its way. -/
def canLoadMoreInWords (f : Feed α) : Option Bool :=
  if f.config.isSome && f.mode = .idle && !f.state.loadingMore then do
    let page ← f.currentPageInWords
    return page < f.state.totalPages
  else some false

def loadMoreInWords (f : Feed α) : Option (Feed α × Option Ticket) :=
  match f.config with
  | none => some (f, none)
  | some c => do
    if ← f.canLoadMoreInWords then
      let skip ← Word.add? f.state.skip c.pageSize
      return ({ f with mode := .loadingMore, state := { f.state with loadingMore := true } },
        some ⟨f.generation, c.window skip, .more skip⟩)
    else return (f, none)

def gatherInWords (f : Feed α) (phase : FeedPhase) (batch : Batch α) : Option (Gathered α) := do
  let pages ← Word.ceilDiv? batch.count ((f.config.map FeedConfig.pageSize).getD 1)
  return { f.gather phase batch with totalPages := pages }

def completeInWords (f : Feed α) (t : Ticket) (result : Except ClientFault (Batch α)) :
    Option (Feed α × Except ClientFault LoadOutcome) :=
  if f.generation ≠ t.generation then some (f, .ok .discarded)
  else
    match result with
    | .error fault => some
      ({ f with mode := .idle, state := { f.state with loadingMore := false } }, .error fault)
    | .ok batch => do
      let state ← f.gatherInWords t.phase batch
      return ({ f with mode := .idle, state := state }, .ok (.loaded batch.rows.length))

end Feed

/-! ### What every step keeps -/

/-- The last page that was gathered is a page, and the pages are those of a count that is a word. -/
structure Gathered.OnPage (c : FeedConfig) (g : Gathered α) : Prop where
  sized : 0 < c.pageSize
  starts : StartsPage c.pageSize g.skip
  items : Word.Fits g.totalItems
  pages : g.totalPages = pageCount g.totalItems c.pageSize

theorem Gathered.onPage_empty {c : FeedConfig} (sized : 0 < c.pageSize) :
    OnPage c ({} : Gathered α) where
  sized := sized
  starts := .first c.pageSize
  items := Nat.two_pow_pos 64
  pages := by
    refine (Nat.div_eq_of_lt ?_).symm
    show 0 + c.pageSize - 1 < c.pageSize
    omega

/-- A feed that is configured has gathered pages up to some page. -/
def Feed.OnPage (f : Feed α) : Prop := ∀ c, f.config = some c → f.state.OnPage c

/-- The page after the last one, when there is one. -/
theorem Feed.OnPage.next {f : Feed α} (onPage : f.OnPage) {c : FeedConfig}
    (hconfig : f.config = some c) (further : f.currentPage < f.state.totalPages) :
    StartsPage c.pageSize (f.state.skip + c.pageSize) := by
  have gathered := onPage c hconfig
  rw [Feed.currentPage, hconfig, gathered.pages] at further
  exact gathered.starts.next gathered.sized gathered.items further

namespace FeedRun

/-- One step of any call, when an answer can have any count. -/
inductive Exchange : FeedRun α → FeedRun α → Prop
  | configure {s : FeedRun α} {c : FeedConfig} {feed : Feed α} {ticket : Option Ticket} :
      s.feed.configure c = .ok (feed, ticket) → Exchange s (s.issue feed ticket)
  | reload {s : FeedRun α} : Exchange s (s.issue s.feed.reload.1 s.feed.reload.2)
  | loadMore {s : FeedRun α} : Exchange s (s.issue s.feed.loadMore.1 s.feed.loadMore.2)
  | reset {s : FeedRun α} : Exchange s (s.issue s.feed.reset none)
  | complete {s : FeedRun α} {before after : List Ticket} {t : Ticket}
      {result : Except ClientFault (Batch α)} :
      s.flights = before ++ t :: after → Counted result →
        Exchange s (s.settle (before ++ after) (s.feed.complete t result))

/-- The only ticket on its way is answered. -/
theorem Exchange.answer {s : FeedRun α} (t : Ticket) {result : Except ClientFault (Batch α)}
    (flights : s.flights = [t]) (counted : Counted result) :
    Exchange s (s.settle [] (s.feed.complete t result)) :=
  .complete (show s.flights = [] ++ t :: [] from flights) counted

/-- A new feed gets there by so many steps of its calls, in any order. -/
inductive Exchanges (growth : Growth) : Nat → FeedRun α → Prop
  | start : Exchanges growth 0 { feed := { growth := growth } }
  | step {count : Nat} {s after : FeedRun α} :
      Exchanges growth count s → Exchange s after → Exchanges growth (count + 1) after

/-- A page that is still awaited starts where a page of the configuration does. -/
structure OnPages (s : FeedRun α) : Prop where
  past : ∀ t ∈ s.flights, t.generation ≤ s.feed.generation
  awaited : ∀ t ∈ s.flights, t.generation = s.feed.generation → ∃ c, s.feed.config = some c ∧
    ∀ skip, t.phase = .more skip → StartsPage c.pageSize skip
  gathered : s.feed.OnPage

variable {s : FeedRun α}

theorem onPages_start (growth : Growth) :
    OnPages { feed := { growth := growth } : FeedRun α } where
  past := nofun
  awaited := nofun
  gathered := nofun

namespace OnPages

/-- No ticket on its way is of the next generation. -/
theorem generation_ne_succ (onPages : s.OnPages) {t : Ticket} (member : t ∈ s.flights) :
    t.generation ≠ s.feed.generation + 1 :=
  Nat.ne_of_lt (Nat.lt_succ_of_le (onPages.past t member))

theorem restart (onPages : s.OnPages) {c : FeedConfig} (sized : 0 < c.pageSize) :
    (s.issue (s.feed.restart c).1 (some (s.feed.restart c).2)).OnPages where
  past t member := by
    rcases List.mem_append.mp member with member | member
    · exact Nat.le_succ_of_le (onPages.past t member)
    · obtain rfl := List.mem_singleton.mp member
      exact Nat.le_refl _
  awaited t member same := by
    -- whatever was awaited before belongs to an earlier generation now
    rcases List.mem_append.mp member with member | member
    · exact absurd same (onPages.generation_ne_succ member)
    · obtain rfl := List.mem_singleton.mp member
      exact ⟨c, rfl, nofun⟩
  gathered c' hconfig := by
    obtain rfl : c = c' := Option.some.inj hconfig
    exact Gathered.onPage_empty sized

theorem configure (onPages : s.OnPages) {c : FeedConfig} {feed : Feed α} {ticket : Option Ticket}
    (done : s.feed.configure c = .ok (feed, ticket)) : (s.issue feed ticket).OnPages := by
  rcases Feed.configure_cases done with ⟨rfl, rfl⟩ | ⟨sized, rfl, rfl⟩
  · rw [issue_self]
    exact onPages
  · exact onPages.restart sized

theorem reload (onPages : s.OnPages) : (s.issue s.feed.reload.1 s.feed.reload.2).OnPages := by
  rcases s.feed.reload_cases with same | ⟨c, hconfig, again⟩
  · rw [same, issue_self]
    exact onPages
  · rw [again]
    exact onPages.restart (onPages.gathered c hconfig).sized

theorem reset (onPages : s.OnPages) : (s.issue s.feed.reset none).OnPages where
  past t member := by
    have member : t ∈ s.flights := by simpa [issue] using member
    exact Nat.le_succ_of_le (onPages.past t member)
  awaited t member same := by
    have member : t ∈ s.flights := by simpa [issue] using member
    exact absurd same (onPages.generation_ne_succ member)
  gathered := nofun

theorem loadMore (onPages : s.OnPages) :
    (s.issue s.feed.loadMore.1 s.feed.loadMore.2).OnPages := by
  rcases s.feed.loadMore_cases with same | ⟨c, hconfig, -, further, more⟩
  · rw [same, issue_self]
    exact onPages
  · rw [more]
    refine ⟨fun t member => ?_, fun t member same => ?_, fun c' hconfig' => ?_⟩
    · rcases List.mem_append.mp member with member | member
      · exact onPages.past t member
      · obtain rfl := List.mem_singleton.mp member
        exact Nat.le_refl _
    · rcases List.mem_append.mp member with member | member
      · exact onPages.awaited t member same
      · obtain rfl := List.mem_singleton.mp member
        refine ⟨c, hconfig, fun skip phase => ?_⟩
        cases phase
        exact onPages.gathered.next hconfig further
    · have gathered := onPages.gathered c' hconfig'
      exact ⟨gathered.sized, gathered.starts, gathered.items, gathered.pages⟩

/-- A page that was awaited is gathered where it starts. -/
theorem gather (onPages : s.OnPages) {t : Ticket} {batch : Batch α} {c : FeedConfig}
    (member : t ∈ s.flights) (same : t.generation = s.feed.generation)
    (hconfig : s.feed.config = some c) (fits : Word.Fits batch.count) :
    (s.feed.gather t.phase batch).OnPage c := by
  have sized := (onPages.gathered c hconfig).sized
  obtain ⟨c', hconfig', starts⟩ := onPages.awaited t member same
  obtain rfl : c = c' := Option.some.inj (hconfig.symm.trans hconfig')
  have size : (s.feed.config.map FeedConfig.pageSize).getD 1 = c.pageSize := by rw [hconfig]; rfl
  refine ⟨sized, ?_, fits, congrArg (pageCount batch.count) size⟩
  cases phase : t.phase with
  | initial => exact .first c.pageSize
  | more skip => exact starts skip phase

theorem complete (onPages : s.OnPages) {before after : List Ticket} {t : Ticket}
    {result : Except ClientFault (Batch α)} (flights : s.flights = before ++ t :: after)
    (counted : Counted result) :
    (s.settle (before ++ after) (s.feed.complete t result)).OnPages := by
  have answered : t ∈ s.flights := by simp [flights]
  have others : ∀ u ∈ before ++ after, u ∈ s.flights := by
    intro u member
    rw [flights]
    rcases List.mem_append.mp member with member | member
    · exact List.mem_append_left _ member
    · exact List.mem_append_right _ (List.mem_cons_of_mem _ member)
  have past : ∀ u ∈ before ++ after, u.generation ≤ s.feed.generation :=
    fun u member => onPages.past u (others u member)
  have awaited : ∀ u ∈ before ++ after, u.generation = s.feed.generation →
      ∃ c, s.feed.config = some c ∧ ∀ skip, u.phase = .more skip → StartsPage c.pageSize skip :=
    fun u member => onPages.awaited u (others u member)
  rcases s.feed.complete_cases t result with
    ⟨-, done⟩ | ⟨same, ⟨fault, rfl, done⟩ | ⟨batch, rfl, done⟩⟩ <;> rw [done]
  · exact ⟨past, awaited, onPages.gathered⟩
  · refine ⟨past, awaited, fun c hconfig => ?_⟩
    have gathered := onPages.gathered c hconfig
    exact ⟨gathered.sized, gathered.starts, gathered.items, gathered.pages⟩
  · exact ⟨past, awaited, fun c hconfig =>
      onPages.gather answered same hconfig (counted batch rfl)⟩

/-- Every step keeps the invariant. -/
theorem step (onPages : s.OnPages) {after : FeedRun α} (exchange : Exchange s after) :
    after.OnPages := by
  cases exchange with
  | configure done => exact onPages.configure done
  | reload => exact onPages.reload
  | loadMore => exact onPages.loadMore
  | reset => exact onPages.reset
  | complete flights counted => exact onPages.complete flights counted

end OnPages

/-- A step begins one generation at most. -/
theorem Exchange.generation_le {after : FeedRun α} (exchange : Exchange s after) :
    after.feed.generation ≤ s.feed.generation + 1 := by
  cases exchange with
  | configure done =>
    rcases Feed.configure_cases done with ⟨rfl, rfl⟩ | ⟨-, rfl, rfl⟩
    · exact Nat.le_succ _
    · exact Nat.le_refl _
  | reload =>
    rcases s.feed.reload_cases with same | ⟨c, -, again⟩
    · rw [same, issue_self]
      exact Nat.le_succ _
    · rw [again]
      exact Nat.le_refl _
  | loadMore =>
    rcases s.feed.loadMore_cases with same | ⟨c, -, -, -, more⟩
    · rw [same, issue_self]
      exact Nat.le_succ _
    · rw [more]
      exact Nat.le_succ _
  | reset => exact Nat.le_refl _
  | @complete before after t result _ _ =>
    rcases s.feed.complete_cases t result with ⟨-, done⟩ | ⟨-, ⟨_, -, done⟩ | ⟨_, -, done⟩⟩ <;>
      (rw [done]; exact Nat.le_succ _)

variable {growth : Growth} {count : Nat}

theorem Exchanges.onPages (run : Exchanges growth count s) : s.OnPages := by
  induction run with
  | start => exact onPages_start growth
  | step _ exchange ih => exact ih.step exchange

theorem Exchanges.generation_le (run : Exchanges growth count s) : s.feed.generation ≤ count := by
  induction run with
  | start => exact Nat.le_refl 0
  | step _ exchange ih => exact Nat.le_trans exchange.generation_le (Nat.succ_le_succ ih)

end FeedRun

/-! ### Results in words -/

namespace Feed

variable {f : Feed α}

namespace OnPage

variable (onPage : f.OnPage)
include onPage

theorem currentPageInWords : f.currentPageInWords = some f.currentPage := by
  cases hconfig : f.config with
  | none => simp only [Feed.currentPageInWords, Feed.currentPage, hconfig]
  | some c =>
    have gathered := onPage c hconfig
    simp only [Feed.currentPageInWords, Feed.currentPage, hconfig,
      gathered.starts.pageNumber gathered.sized]

theorem canLoadMoreInWords : f.canLoadMoreInWords = some f.canLoadMore := by
  unfold Feed.canLoadMoreInWords Feed.canLoadMore
  rw [onPage.currentPageInWords]
  split
  · next ready => simp [ready]
  · next busy => simp [busy]

theorem loadMoreInWords : f.loadMoreInWords = some f.loadMore := by
  cases hconfig : f.config with
  | none => simp only [Feed.loadMoreInWords, Feed.loadMore, hconfig]
  | some c =>
    simp only [Feed.loadMoreInWords, Feed.loadMore, hconfig, onPage.canLoadMoreInWords,
      Option.bind_eq_bind, Option.bind_some]
    cases more : f.canLoadMore with
    | false => rfl
    | true =>
      simp only [canLoadMore, Bool.and_eq_true, decide_eq_true_eq] at more
      have start := onPage.next hconfig more.2
      simp only [if_true, Word.add?_eq_some start.fits, Option.bind_some]
      rfl

theorem gatherInWords (phase : FeedPhase) {batch : Batch α} (fits : Word.Fits batch.count) :
    f.gatherInWords phase batch = some (f.gather phase batch) := by
  have sized : 0 < (f.config.map FeedConfig.pageSize).getD 1 := by
    cases hconfig : f.config with
    | none => exact Nat.one_pos
    | some c => exact (onPage c hconfig).sized
  rw [Feed.gatherInWords, Word.ceilDiv?_eq_pageCount sized fits]
  rfl

theorem completeInWords (t : Ticket) {result : Except ClientFault (Batch α)}
    (counted : Counted result) : f.completeInWords t result = some (f.complete t result) := by
  unfold Feed.completeInWords complete
  split
  · rfl
  · cases result with
    | error fault => rfl
    | ok batch =>
      simp only [onPage.gatherInWords t.phase (counted batch rfl), Option.bind_eq_bind,
        Option.bind_some]
      rfl

end OnPage

/-- All that is computed fits into words, and the last page starts where a page does. -/
structure Navigable (f : Feed α) : Prop where
  aligned : ∀ c, f.config = some c → 1 ≤ c.pageSize ∧ c.pageSize ∣ f.state.skip
  currentPage : f.currentPageInWords = some f.currentPage
  canLoadMore : f.canLoadMoreInWords = some f.canLoadMore
  loadMore : f.loadMoreInWords = some f.loadMore
  complete : ∀ t result, Counted result → f.completeInWords t result = some (f.complete t result)

theorem OnPage.navigable (onPage : f.OnPage) : f.Navigable where
  aligned c hconfig := ⟨(onPage c hconfig).sized, (onPage c hconfig).starts.aligned⟩
  currentPage := onPage.currentPageInWords
  canLoadMore := onPage.canLoadMoreInWords
  loadMore := onPage.loadMoreInWords
  complete t _ := onPage.completeInWords t

end Feed

/-! ## Both -/

/-- **Paging stays within words.** Whatever calls a pager has got and whatever counts it was told, its
window starts with a page, every call computes in words what it computes on natural numbers, a step
on and a step back lead to the same place, a jump leads to the page that was asked for, and a call
that was refused has changed nothing. In the same way the last page of a feed starts with a page and
everything that a feed computes fits into words, with whatever answers and in whatever order. The
generations of a feed are not more than the steps that were taken. -/
theorem paging_in_words {p : Pager α} (reached : p.Reached) {growth : Growth} {count : Nat}
    {s : FeedRun α} (run : FeedRun.Exchanges growth count s) :
    p.Navigable ∧ s.feed.Navigable ∧ s.feed.generation ≤ count :=
  ⟨reached.navigable, run.onPages.gathered.navigable, run.generation_le⟩

/-- As many rows as can be counted. -/
def mostRows : Batch Nat := ⟨[], 18446744073709551615⟩

/-- The windows that a feed asks for in pages of half as many. -/
def halfOfRows (phase : FeedPhase) (skip : Nat) : Ticket :=
  ⟨1, { skip := some skip, take := some 9223372036854775808 }, phase⟩

/-- As many rows as can be counted, in pages of ten and in two pages: behind the last page there is
no word for the next window, and neither the pager nor the feed computes it. -/
theorem paging_in_words_longest : ∃ (p : Pager Nat) (s : FeedRun Nat),
    (p.Reached ∧ p.skip = 18446744073709551610 ∧ p.call .next = (p, false)) ∧
    (FeedRun.Exchanges .append 4 s ∧ s.feed.state.skip = 9223372036854775808 ∧
      s.feed.canLoadMore = false) ∧
    p.Navigable ∧ s.feed.Navigable ∧ s.feed.generation ≤ 4 := by
  have counted : Counted (.ok mostRows) := counted_ok (by decide)
  have pager := Pager.Reached.of (show Pager.of {} 10 = .ok (_ : Pager Nat) from rfl)
  have fetched : Pager.Reached (Pager.call _ (.fetch (.ok mostRows))).1 := pager.call counted
  have last : Pager.Reached (Pager.call _ (.goTo 1844674407370955162)).1 := fetched.call trivial
  have configured : FeedRun.Exchanges (α := Nat) .append 1 _ :=
    .step .start (.configure (c := ⟨{}, 9223372036854775808⟩) rfl)
  have first := configured.step (.answer (halfOfRows .initial 0) rfl counted)
  have asked := first.step .loadMore
  have second := asked.step
    (.answer (halfOfRows (.more 9223372036854775808) 9223372036854775808) rfl counted)
  exact ⟨_, _, ⟨last, rfl, rfl⟩, ⟨second, rfl, rfl⟩, paging_in_words last second⟩

end Roster
