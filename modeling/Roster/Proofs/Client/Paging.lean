import Roster.Client.Pager
import Roster.Proofs.Client.Accumulation

/-!
# Going through all pages

A pager that fetches its page and moves on until there is no next page makes a tour, and a feed that
loads more until there is nothing to load is driven to its end. Both are told how many rows there are
by the answers that they get. When every window is answered with its page and with the same number of
rows, the tour and the drive end, and what they have gathered are all the pages, in order.
-/

namespace Roster

variable {α : Type}

/-- The pages of a query are these, of so many rows in all. -/
def AnswersPages (transport : Descriptor → Except ClientFault (Batch α)) (q : Descriptor)
    (size total : Nat) (pages : Nat → List α) : Prop :=
  ∀ page, transport (q.window (page * size) size) = .ok ⟨pages page, total⟩

/-- How many pages are fetched: the first one in any case. -/
def tourLength (total size : Nat) : Nat := max 1 (pageCount total size)

theorem le_tourLength_mul (total : Nat) {size : Nat} (sized : 0 < size) :
    total ≤ tourLength total size * size := by
  have pages : total ≤ pageCount total size * size := by
    have rest := Nat.lt_div_mul_add (a := total + size - 1) sized
    rw [pageCount]
    omega
  exact Nat.le_trans pages (Nat.mul_le_mul_right size (Nat.le_max_right 1 _))

/-- Consecutive pages make up the list so far. -/
theorem flatten_pageOf (rows : List α) (size count : Nat) :
    ((List.range count).map (pageOf rows size)).flatten = rows.take (count * size) := by
  induction count with
  | zero => simp
  | succ count ih =>
    rw [List.range_succ, List.map_append, List.flatten_append, ih, List.map_singleton,
      List.flatten_singleton, pageOf, Nat.succ_mul, List.take_add]

/-- The pages of a tour make up the list. -/
theorem flatten_pageOf_tour (rows : List α) {size : Nat} (sized : 0 < size) :
    ((List.range (tourLength rows.length size)).map (pageOf rows size)).flatten = rows := by
  rw [flatten_pageOf, List.take_of_length_le (le_tourLength_mul _ sized)]

variable {transport : Descriptor → Except ClientFault (Batch α)}

namespace Pager

/-- A pager fetches its page and moves on until there is no next page; these are the pages that it
showed. -/
inductive Tour (transport : Descriptor → Except ClientFault (Batch α)) :
    Pager α → List (List α) → Prop
  | last {p shown : Pager α} {rows : List α} :
      p.receive (transport p.request) = (shown, .ok rows) → shown.next? = none →
        Tour transport p [rows]
  | next {p shown moved : Pager α} {rows : List α} {rest : List (List α)} :
      p.receive (transport p.request) = (shown, .ok rows) → shown.next? = some moved →
        Tour transport moved rest → Tour transport p (rows :: rest)

/-- There is one tour at most. -/
theorem Tour.unique {p : Pager α} {pages : List (List α)} (tour : p.Tour transport pages) :
    ∀ {others : List (List α)}, p.Tour transport others → others = pages := by
  induction tour with
  | last received done =>
    intro others tour
    cases tour with
    | last received' _ =>
      rw [received] at received'
      cases received'
      rfl
    | next received' moves _ =>
      rw [received] at received'
      cases received'
      rw [done] at moves
      cases moves
  | next received moves _ ih =>
    intro others tour
    cases tour with
    | last received' done =>
      rw [received] at received'
      cases received'
      rw [moves] at done
      cases done
    | next received' moves' tour =>
      rw [received] at received'
      cases received'
      rw [moves] at moves'
      cases moves'
      rw [ih tour]

variable {q : Descriptor} {size total : Nat} {pages : Nat → List α}

/-- From a page on, the tour shows the pages that are left. -/
theorem tour_from (sized : 0 < size) (answers : AnswersPages transport q size total pages) :
    ∀ (left page items : Nat) (rows : List α), page + 1 + left = tourLength total size →
      Tour transport ⟨q, size, page * size, items, rows⟩
        ((List.range' page (left + 1)).map pages) := by
  have number : ∀ page, page * size / size = page := fun page => Nat.mul_div_cancel page sized
  intro left
  induction left with
  | zero =>
    intro page items rows last
    refine .last (congrArg _ (answers page)) (if_neg ?_)
    unfold tourLength at last
    simp only [hasNext, currentPage, totalPages, number, decide_eq_true_eq]
    omega
  | succ left ih =>
    intro page items rows further
    refine .next (congrArg _ (answers page)) (if_pos ?_) ?_
    · unfold tourLength at further
      simp only [hasNext, currentPage, totalPages, number, decide_eq_true_eq]
      omega
    · have rest := ih (page + 1) total (pages page) (by omega)
      rwa [Nat.succ_mul] at rest

/-- **A tour shows every page once, in order.** -/
theorem tour_pages (sized : 0 < size) (answers : AnswersPages transport q size total pages) :
    ∃ p, Pager.of q size = .ok p ∧
      p.Tour transport ((List.range (tourLength total size)).map pages) := by
  refine ⟨_, if_neg (Nat.ne_of_gt sized), ?_⟩
  obtain ⟨left, length⟩ : ∃ left, tourLength total size = left + 1 :=
    ⟨tourLength total size - 1, (Nat.sub_add_cancel (Nat.le_max_left 1 _)).symm⟩
  rw [length, List.range_eq_range']
  have tour := tour_from sized answers left 0 0 [] (by omega)
  rwa [Nat.zero_mul] at tour

end Pager

namespace Feed

/-- A feed loads more, one answer after the other, until there is nothing to load. -/
inductive Drive (transport : Descriptor → Except ClientFault (Batch α)) : Feed α → Feed α → Prop
  | done {f : Feed α} : f.loadMore = (f, none) → Drive transport f f
  | more {f asked loaded last : Feed α} {t : Ticket} {count : Nat} :
      f.loadMore = (asked, some t) →
        asked.complete t (transport t.request) = (loaded, .ok (.loaded count)) →
          Drive transport loaded last → Drive transport f last

/-- There is one end at most. -/
theorem Drive.unique {f last : Feed α} (drive : f.Drive transport last) :
    ∀ {other : Feed α}, f.Drive transport other → other = last := by
  induction drive with
  | done rest =>
    intro other drive
    cases drive with
    | done _ => rfl
    | more asks _ _ =>
      rw [rest] at asks
      cases asks
  | more asks answered _ ih =>
    intro other drive
    cases drive with
    | done rest =>
      rw [asks] at rest
      cases rest
    | more asks' answered' drive =>
      rw [asks] at asks'
      cases asks'
      rw [answered] at answered'
      cases answered'
      exact ih drive

variable {c : FeedConfig} {total : Nat} {pages : Nat → List α}

theorem complete_ok {f : Feed α} {t : Ticket} (same : f.generation = t.generation)
    (batch : Batch α) :
    f.complete t (.ok batch) =
      ({ f with mode := .idle, state := f.gather t.phase batch },
        .ok (.loaded batch.rows.length)) := by
  rw [complete, if_neg (not_not_intro same)]

/-- The answer to a further page is gathered. -/
theorem complete_more {f : Feed α} {count : Nat} (hconfig : f.config = some c)
    (idle : f.mode = .idle) (quiet : f.state.loadingMore = false)
    (held : f.HoldsPages pages total c count)
    (answers : AnswersPages transport c.descriptor c.pageSize total pages)
    (further : f.currentPage < f.state.totalPages) :
    ∃ asked t loaded, f.loadMore = (asked, some t) ∧
      asked.complete t (transport t.request) = (loaded, .ok (.loaded (pages count).length)) ∧
      loaded.config = some c ∧ loaded.mode = .idle ∧ loaded.state.loadingMore = false ∧
      loaded.growth = f.growth ∧ loaded.HoldsPages pages total c (count + 1) := by
  have able : f.canLoadMore = true := by
    simp [canLoadMore, hconfig, idle, quiet, further]
  let asked : Feed α :=
    { f with mode := .loadingMore, state := { f.state with loadingMore := true } }
  have heldAsked : asked.HoldsPages pages total c count :=
    ⟨held.rows, held.skip, held.totalItems, held.totalPages⟩
  have page : transport (c.window (f.state.skip + c.pageSize)) = .ok ⟨pages count, total⟩ := by
    rw [FeedConfig.window, held.skip]
    exact answers count
  refine ⟨asked, ⟨f.generation, c.window (f.state.skip + c.pageSize),
    .more (f.state.skip + c.pageSize)⟩, _, ?_, ?_, ?_, ?_, ?_, ?_, heldAsked.more hconfig⟩
  · unfold loadMore
    split
    · next unset => rw [hconfig] at unset; cases unset
    · next c' same =>
      obtain rfl : c = c' := Option.some.inj (hconfig.symm.trans same)
      rw [if_pos able]
  · exact (congrArg (asked.complete _) page).trans (complete_ok rfl _)
  all_goals first | exact hconfig | rfl

/-- From some pages on, the drive gathers those that are left. -/
theorem drive_from (sized : 0 < c.pageSize)
    (answers : AnswersPages transport c.descriptor c.pageSize total pages) :
    ∀ (left count : Nat) {f : Feed α}, f.config = some c → f.mode = .idle →
      f.state.loadingMore = false → f.HoldsPages pages total c count →
        count + left = tourLength total c.pageSize →
          ∃ last, Drive transport f last ∧ last.growth = f.growth ∧
            last.HoldsPages pages total c (tourLength total c.pageSize) := by
  intro left
  induction left with
  | zero =>
    intro count f hconfig idle quiet held full
    obtain rfl : count = tourLength total c.pageSize := full
    refine ⟨f, .done ?_, rfl, held⟩
    have none_ : f.canLoadMore = false := by
      have number := held.currentPage hconfig sized
      have known := held.totalPages
      unfold tourLength at number
      simp only [canLoadMore, Bool.and_eq_false_iff, decide_eq_false_iff_not]
      right
      omega
    simp [loadMore, hconfig, none_]
  | succ left ih =>
    intro count f hconfig idle quiet held further
    have next : f.currentPage < f.state.totalPages := by
      have started := held.pos sized
      have number := held.currentPage hconfig sized
      have known := held.totalPages
      unfold tourLength at further
      omega
    obtain ⟨asked, t, loaded, asks, answered, hconfig', idle', quiet', growth, held'⟩ :=
      complete_more hconfig idle quiet held answers next
    obtain ⟨last, drive, kept, all⟩ := ih (count + 1) hconfig' idle' quiet' held' (by omega)
    exact ⟨last, .more asks answered drive, kept.trans growth, all⟩

/-- **A feed that is configured and driven to its end holds every page once**, in the order in which
it grows. -/
theorem drive_pages (growth : Growth) (sized : 0 < c.pageSize)
    (answers : AnswersPages transport c.descriptor c.pageSize total pages) :
    ∃ asked t loaded last, ({ growth := growth } : Feed α).configure c = .ok (asked, some t) ∧
      asked.complete t (transport t.request) = (loaded, .ok (.loaded (pages 0).length)) ∧
      loaded.Drive transport last ∧
      last.state.rows = growth.firstPages pages (tourLength total c.pageSize) := by
  let started := ({ growth := growth } : Feed α).restart c
  have page : transport (c.window 0) = .ok ⟨pages 0, total⟩ := by
    have first := answers 0
    rwa [Nat.zero_mul] at first
  have held : HoldsPages pages total c 1
      { started.1 with mode := .idle, state := started.1.gather .initial ⟨pages 0, total⟩ } :=
    holdsPages_initial rfl
  obtain ⟨last, drive, kept, all⟩ := drive_from sized answers (tourLength total c.pageSize - 1) 1
    rfl rfl rfl held (by unfold tourLength; omega)
  refine ⟨started.1, started.2, _, last, ?_, ?_, drive, ?_⟩
  · rw [configure, if_neg (Nat.ne_of_gt sized)]
    rfl
  · exact (congrArg (started.1.complete _) page).trans (complete_ok rfl _)
  · rw [all.rows, kept]
    rfl

end Feed

end Roster
