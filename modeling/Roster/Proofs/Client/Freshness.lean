import Mathlib.Data.List.Basic
import Mathlib.Logic.Function.Basic
import Mathlib.Logic.Relation
import Roster.Client.Session
import Roster.Proofs.Client.WordArithmetic
import Roster.Proofs.Keyed
import Roster.Proofs.Number.Text

/-!
# What a cache returns after an invalidation

A lookup computes its key, then it finds a page, or it waits for the fetch of that key, which may have
begun long ago, or it begins one. Any other step may come in between: a page that was asked for before
an invalidation may be kept after it, and a page may be lost at any time. `CacheRun.Step` is one such
step and `CacheRun.Reaches` is any number of them.

`CacheRun.serves_fresh` is the law: what a lookup returns was not asked for before an invalidation
that came before its key. It rests on the epochs alone. An invalidation hands out an epoch that no key
of that entity has so far, so the keys that come later differ from all earlier ones. That keys of
different epochs differ does not depend on the digest.

Epochs are natural numbers here. The last one is the number of invalidations so far
(`CacheRun.Reaches.last_eq_drops`), and no other epoch is larger, so all of them are words as long as
that number is.
-/

namespace Roster

/-! ## Keys -/

theorem colon_notMem_decimal (n : Nat) : ':' ∉ (decimal n).toList :=
  fun member => absurd (isDigit_of_mem_decimal member) (by decide)

theorem colon_notMem_hex (bytes : List UInt8) : ':' ∉ (Text.hex bytes).toList := by
  have digits : ∀ n < 16, Json.hexDigit n ≠ ':' := by decide
  intro member
  rw [Text.hex, String.toList_ofList] at member
  obtain ⟨b, -, member⟩ := List.mem_flatMap.mp member
  have small := b.toNat_lt
  rcases List.mem_pair.mp member with high | low
  · exact digits (b.toNat / 16) (by omega) high.symm
  · exact digits (b.toNat % 16) (by omega) low.symm

/-- A text is told apart at its last colon. -/
theorem append_colon_inj {s s' t t' : String} (ht : ':' ∉ t.toList) (ht' : ':' ∉ t'.toList)
    (same : s ++ ":" ++ t = s' ++ ":" ++ t') : s = s' ∧ t = t' := by
  have lists : t.toList.reverse ++ ':' :: s.toList.reverse =
      t'.toList.reverse ++ ':' :: s'.toList.reverse := by
    simpa using congrArg (fun text => text.toList.reverse) same
  obtain ⟨backs, fronts⟩ := split_at (mt List.mem_reverse.mp ht) (mt List.mem_reverse.mp ht') lists
  exact ⟨String.toList_inj.mp (List.reverse_inj.mp fronts),
    String.toList_inj.mp (List.reverse_inj.mp backs)⟩

/-! ## Epochs -/

namespace Epochs

/-- A new epoch for one entity, or for all. -/
def renew (e : Epochs) : Option String → Epochs
  | some entity => e.advance entity
  | none => e.advanceAll

theorem last_renew (e : Epochs) (target : Option String) : (e.renew target).last = e.last + 1 := by
  cases target <;> rfl

theorem floor_renew_le {e : Epochs} (floor : e.floor ≤ e.last) (target : Option String) :
    (e.renew target).floor ≤ (e.renew target).last := by
  cases target with
  | some entity => exact Nat.le_succ_of_le floor
  | none => exact Nat.le_refl _

/-- Whom the new epoch is for gets it, and the others keep theirs. -/
theorem current_renew {e : Epochs} (floor : e.floor ≤ e.last) (target : Option String)
    (entity : String) :
    (e.renew target).current entity =
      if target = none ∨ target = some entity then e.last + 1 else e.current entity := by
  cases target with
  | none => simp [renew, advanceAll, current]
  | some changed =>
    simp only [renew, advance, current, Keyed.get?_put, reduceCtorEq, Option.some.injEq, false_or]
    split
    · rw [Option.getD_some]
      omega
    · rfl

end Epochs

namespace PageCache

/-- The key of a query at an epoch. -/
def keyAt (entity : String) (epoch : Nat) (q : Descriptor) : String :=
  entity ++ ":" ++ decimal epoch ++ ":" ++ digest q

/-- **A key tells its entity and its epoch.** -/
theorem keyAt_inj {entity entity' : String} {epoch epoch' : Nat} {q q' : Descriptor}
    (same : keyAt entity epoch q = keyAt entity' epoch' q') : entity = entity' ∧ epoch = epoch' := by
  obtain ⟨front, -⟩ := append_colon_inj (colon_notMem_hex _) (colon_notMem_hex _) same
  obtain ⟨entities, epochs⟩ :=
    append_colon_inj (colon_notMem_decimal _) (colon_notMem_decimal _) front
  exact ⟨entities, decimal_inj epochs⟩

theorem mem_pages_of_lookup {c : PageCache} {key : String} {page : Page}
    (h : c.lookup key = .page page) : (key, page) ∈ c.pages := by
  unfold lookup at h
  split at h
  · next found =>
    cases h
    exact Keyed.mem_of_get? found
  · cases h
  · cases h

theorem mem_flights_of_lookup {c : PageCache} {key : String} {number : Nat}
    (h : c.lookup key = .flight number) : (key, number) ∈ c.flights := by
  unfold lookup at h
  split at h
  · cases h
  · next _ found =>
    cases h
    exact Keyed.mem_of_get? found
  · cases h

theorem mem_flights_of_keyOf? {c : PageCache} {key : String} {number : Nat}
    (h : c.keyOf? number = some key) : (key, number) ∈ c.flights := by
  obtain ⟨⟨k, n⟩, found, rfl⟩ := Option.map_eq_some_iff.mp h
  have same : n = number := by simpa using List.find?_some found
  exact same ▸ List.mem_of_find?_eq_some found

/-- How an invalidation of one entity, or of all, goes on with a cache. The epochs are changed first.
Until the pages are dropped as well, other steps can see the cache in between. -/
inductive Invalidates (c : PageCache) : Option String → PageCache → Prop
  | entity (entity : String) : Invalidates c (some entity) (c.invalidate entity)
  | all : Invalidates c none c.invalidateAll
  | entityEpoch (entity : String) :
      Invalidates c (some entity) { c with epochs := c.epochs.advance entity }
  | allEpochs : Invalidates c none { c with epochs := c.epochs.advanceAll }

theorem Invalidates.effect {c after : PageCache} {target : Option String}
    (h : c.Invalidates target after) :
    after.epochs = c.epochs.renew target ∧ after.flights = c.flights ∧
      ∀ p ∈ after.pages, p ∈ c.pages := by
  cases h with
  | entity entity => exact ⟨rfl, rfl, fun p member => List.mem_of_mem_filter member⟩
  | all => exact ⟨rfl, rfl, nofun⟩
  | entityEpoch entity => exact ⟨rfl, rfl, fun p member => member⟩
  | allEpochs => exact ⟨rfl, rfl, fun p member => member⟩

end PageCache

/-- The end of a change that succeeded is an invalidation of its entity. -/
theorem Session.invalidates_of_mutate {session : Session} {entity : String} {α : Type} {value : α}
    {c after : PageCache} (had : session.cache = some c)
    (has : (session.mutate entity (.ok value)).cache = some after) :
    c.Invalidates (some entity) after := by
  rw [mutate, invalidate, had] at has
  obtain rfl := Option.some.inj has
  exact .entity entity

/-- A change that failed leaves the cache as it was. -/
theorem Session.eq_of_mutate_error {session : Session} {entity : String} {α : Type}
    {fault : ClientFault} {c after : PageCache} (had : session.cache = some c)
    (has : (session.mutate entity (.error fault : Except ClientFault α)).cache = some after) :
    after = c := by
  rw [mutate, had] at has
  exact (Option.some.inj has).symm

/-! ## Steps -/

/-- A lookup whose key is computed. -/
structure Lookup where
  entity : String
  key : String
  /-- When the key was computed. -/
  keyed : Nat

/-- A page that a lookup returned. -/
structure Served where
  lookup : Lookup
  page : Page
  /-- When the fetch of the page began. -/
  began : Nat

/-- An invalidation, of one entity or of all. -/
structure Drop where
  entity : Option String
  time : Nat
  /-- The epoch that it handed out. -/
  epoch : Nat

/-- The invalidation is one of this entity. -/
def Drop.Covers (d : Drop) (entity : String) : Prop := d.entity = none ∨ d.entity = some entity

/-- A cache among the calls that use it. A fetch is known by the time at which it began. -/
structure CacheRun where
  cache : PageCache := {}
  clock : Nat := 0
  /-- When the fetch of the page that is kept under a key began. -/
  origin : String → Nat := fun _ => 0
  lookups : List Lookup := []
  /-- Who waits for which fetch. -/
  waiting : List (Lookup × Nat) := []
  served : List Served := []
  drops : List Drop := []

namespace CacheRun

/-- A lookup computes its key. -/
def ask (s : CacheRun) (entity : String) (q : Descriptor) : CacheRun :=
  { s with clock := s.clock + 1, lookups := ⟨entity, s.cache.key entity q, s.clock⟩ :: s.lookups }

/-- A lookup finds a page. -/
def find (s : CacheRun) (l : Lookup) (page : Page) : CacheRun :=
  { s with clock := s.clock + 1, served := ⟨l, page, s.origin l.key⟩ :: s.served }

/-- A lookup waits for a fetch that is on its way. -/
def join (s : CacheRun) (l : Lookup) (number : Nat) : CacheRun :=
  { s with clock := s.clock + 1, waiting := (l, number) :: s.waiting }

/-- A lookup begins a fetch. -/
def depart (s : CacheRun) (l : Lookup) : CacheRun :=
  { s with
    cache := s.cache.depart l.key s.clock
    clock := s.clock + 1
    waiting := (l, s.clock) :: s.waiting }

/-- A fetch is over. Its page, if there is one, is kept and returned to all who wait for it. -/
def land (s : CacheRun) (number : Nat) (key : String) (page? : Option Page) : CacheRun :=
  { s with
    cache := s.cache.land key page?
    clock := s.clock + 1
    origin := if page?.isSome then Function.update s.origin key number else s.origin
    served := (page?.toList.flatMap fun page =>
      (s.waiting.filter (·.2 = number)).map fun w => ⟨w.1, page, number⟩) ++ s.served }

/-- Pages are lost. -/
def evict (s : CacheRun) (keep : String × Page → Bool) : CacheRun :=
  { s with cache := { s.cache with pages := s.cache.pages.filter keep }, clock := s.clock + 1 }

/-- Something else was done to the cache. -/
def become (s : CacheRun) (cache : PageCache) : CacheRun :=
  { s with cache := cache, clock := s.clock + 1 }

/-- An invalidation was done to the cache. -/
def drop (s : CacheRun) (entity : Option String) (cache : PageCache) : CacheRun :=
  { s.become cache with drops := ⟨entity, s.clock, cache.epochs.last⟩ :: s.drops }

/-- One step of any call. A lookup may look more than once: who waited for a fetch that was given up
looks again. -/
inductive Step : CacheRun → CacheRun → Prop
  | ask {s : CacheRun} (entity : String) (q : Descriptor) : Step s (s.ask entity q)
  | find {s : CacheRun} {l : Lookup} {page : Page} :
      l ∈ s.lookups → s.cache.lookup l.key = .page page → Step s (s.find l page)
  | join {s : CacheRun} {l : Lookup} {number : Nat} :
      l ∈ s.lookups → s.cache.lookup l.key = .flight number → Step s (s.join l number)
  | depart {s : CacheRun} {l : Lookup} :
      l ∈ s.lookups → s.cache.lookup l.key = .absent → Step s (s.depart l)
  | land {s : CacheRun} {number : Nat} {key : String} (page? : Option Page) :
      s.cache.keyOf? number = some key → Step s (s.land number key page?)
  | evict {s : CacheRun} (keep : String × Page → Bool) : Step s (s.evict keep)
  | invalidate {s : CacheRun} {entity : Option String} {cache : PageCache} :
      s.cache.Invalidates entity cache → Step s (s.drop entity cache)
  | changed {s : CacheRun} {session : Session} {entity : String} {α : Type} {value : α}
      {cache : PageCache} : session.cache = some s.cache →
        (session.mutate entity (.ok value)).cache = some cache → Step s (s.drop (some entity) cache)
  | unchanged {s : CacheRun} {session : Session} {entity : String} {α : Type} {fault : ClientFault}
      {cache : PageCache} : session.cache = some s.cache →
        (session.mutate entity (.error fault : Except ClientFault α)).cache = some cache →
          Step s (s.become cache)

/-- A new cache gets there by steps of any calls. -/
def Reaches (s : CacheRun) : Prop := Relation.ReflTransGen Step {} s

/-! ## The invariant -/

/-- A fetch under this key that began at this time is older than no key that comes after an
invalidation: the epoch in the key has been handed out, and an invalidation after that time handed out
a later one. -/
def Current (s : CacheRun) (key : String) (began : Nat) : Prop :=
  ∃ entity epoch q, key = PageCache.keyAt entity epoch q ∧ epoch ≤ s.cache.epochs.last ∧
    ∀ d ∈ s.drops, d.Covers entity → began < d.time → epoch < d.epoch

/-- The key of a lookup holds an epoch that has been handed out, and no earlier one than those of the
invalidations before it. -/
def Informed (s : CacheRun) (l : Lookup) : Prop :=
  l.keyed < s.clock ∧ ∃ epoch q, l.key = PageCache.keyAt l.entity epoch q ∧
    epoch ≤ s.cache.epochs.last ∧
      ∀ d ∈ s.drops, d.Covers l.entity → d.time < l.keyed → d.epoch ≤ epoch

/-- What every step keeps. -/
structure Sound (s : CacheRun) : Prop where
  floor : s.cache.epochs.floor ≤ s.cache.epochs.last
  current : ∀ entity, s.cache.epochs.current entity ≤ s.cache.epochs.last
  drops : ∀ d ∈ s.drops, d.time < s.clock ∧ ∀ entity, d.Covers entity →
    d.epoch ≤ s.cache.epochs.current entity
  flights : ∀ p ∈ s.cache.flights, s.Current p.1 p.2
  pages : ∀ p ∈ s.cache.pages, s.Current p.1 (s.origin p.1)
  lookups : ∀ l ∈ s.lookups, s.Informed l
  waiting : ∀ w ∈ s.waiting, w.1 ∈ s.lookups ∧ s.Current w.1.key w.2
  served : ∀ a ∈ s.served, a.lookup ∈ s.lookups ∧ s.Current a.lookup.key a.began

variable {s : CacheRun}

theorem sound_start : Sound {} where
  floor := Nat.le_refl _
  current _ := Nat.le_refl _
  drops := nofun
  flights := nofun
  pages := nofun
  lookups := nofun
  waiting := nofun
  served := nofun

/-- A lookup is informed a moment later. -/
theorem Informed.later {l : Lookup} (informed : s.Informed l) {after : CacheRun}
    (epochs : after.cache.epochs = s.cache.epochs) (drops : after.drops = s.drops)
    (clock : after.clock = s.clock + 1) : after.Informed l := by
  obtain ⟨keyed, epoch, q, key, handed, earlier⟩ := informed
  refine ⟨by omega, epoch, q, key, ?_, ?_⟩
  · rw [epochs]
    exact handed
  · rw [drops]
    exact earlier

theorem Sound.drops_later (sound : s.Sound) {d : Drop} (member : d ∈ s.drops) :
    d.time < s.clock + 1 ∧ ∀ entity, d.Covers entity → d.epoch ≤ s.cache.epochs.current entity := by
  obtain ⟨before, reached⟩ := sound.drops d member
  exact ⟨by omega, reached⟩

theorem Sound.informed_ask (sound : s.Sound) (entity : String) (q : Descriptor) :
    (s.ask entity q).Informed ⟨entity, s.cache.key entity q, s.clock⟩ := by
  refine ⟨Nat.lt_succ_self _, s.cache.epochs.current entity, q, rfl, sound.current entity, ?_⟩
  intro d member covers _
  exact (sound.drops d member).2 entity covers

theorem Sound.ask (sound : s.Sound) (entity : String) (q : Descriptor) :
    (s.ask entity q).Sound where
  floor := sound.floor
  current := sound.current
  drops _ := sound.drops_later
  flights := sound.flights
  pages := sound.pages
  lookups l member := by
    rcases List.mem_cons.mp member with rfl | member
    · exact sound.informed_ask entity q
    · exact (sound.lookups l member).later rfl rfl rfl
  waiting w member := by
    obtain ⟨asked, current⟩ := sound.waiting w member
    exact ⟨List.mem_cons_of_mem _ asked, current⟩
  served a member := by
    obtain ⟨asked, current⟩ := sound.served a member
    exact ⟨List.mem_cons_of_mem _ asked, current⟩

theorem Sound.find (sound : s.Sound) {l : Lookup} {page : Page} (asked : l ∈ s.lookups)
    (found : s.cache.lookup l.key = .page page) : (s.find l page).Sound where
  floor := sound.floor
  current := sound.current
  drops _ := sound.drops_later
  flights := sound.flights
  pages := sound.pages
  lookups l member := (sound.lookups l member).later rfl rfl rfl
  waiting := sound.waiting
  served a member := by
    rcases List.mem_cons.mp member with rfl | member
    · exact ⟨asked, sound.pages _ (PageCache.mem_pages_of_lookup found)⟩
    · exact sound.served a member

theorem Sound.join (sound : s.Sound) {l : Lookup} {number : Nat} (asked : l ∈ s.lookups)
    (found : s.cache.lookup l.key = .flight number) : (s.join l number).Sound where
  floor := sound.floor
  current := sound.current
  drops _ := sound.drops_later
  flights := sound.flights
  pages := sound.pages
  lookups l member := (sound.lookups l member).later rfl rfl rfl
  waiting w member := by
    rcases List.mem_cons.mp member with rfl | member
    · exact ⟨asked, sound.flights _ (PageCache.mem_flights_of_lookup found)⟩
    · exact sound.waiting w member
  served := sound.served

/-- No invalidation is later than now. -/
theorem Sound.current_now (sound : s.Sound) {l : Lookup} (asked : l ∈ s.lookups) :
    s.Current l.key s.clock := by
  obtain ⟨-, epoch, q, key, handed, -⟩ := sound.lookups l asked
  refine ⟨l.entity, epoch, q, key, handed, fun d member _ later => ?_⟩
  have before := (sound.drops d member).1
  omega

theorem Sound.depart (sound : s.Sound) {l : Lookup} (asked : l ∈ s.lookups) :
    (s.depart l).Sound where
  floor := sound.floor
  current := sound.current
  drops _ := sound.drops_later
  flights p member := by
    rcases Keyed.mem_put member with rfl | member
    · exact sound.current_now asked
    · exact sound.flights p member
  pages := sound.pages
  lookups l member := (sound.lookups l member).later rfl rfl rfl
  waiting w member := by
    rcases List.mem_cons.mp member with rfl | member
    · exact ⟨asked, sound.current_now asked⟩
    · exact sound.waiting w member
  served := sound.served

theorem Sound.land (sound : s.Sound) {number : Nat} {key : String} (page? : Option Page)
    (flight : s.cache.keyOf? number = some key) : (s.land number key page?).Sound where
  floor := sound.floor
  current := sound.current
  drops _ := sound.drops_later
  flights p member := sound.flights p (List.mem_of_mem_filter member)
  pages p member := by
    cases page? with
    | none => exact sound.pages p member
    | some page =>
      show s.Current p.1 (Function.update s.origin key number p.1)
      have landed := sound.flights _ (PageCache.mem_flights_of_keyOf? flight)
      by_cases same : p.1 = key
      · rw [same, Function.update_self]
        exact landed
      · rw [Function.update_of_ne same]
        rcases Keyed.mem_put member with rfl | member
        · exact absurd rfl same
        · exact sound.pages p member
  lookups l member := (sound.lookups l member).later rfl rfl rfl
  waiting := sound.waiting
  served a member := by
    rcases List.mem_append.mp member with member | member
    · obtain ⟨page, -, member⟩ := List.mem_flatMap.mp member
      obtain ⟨w, waits, rfl⟩ := List.mem_map.mp member
      obtain ⟨waits, awaited⟩ := List.mem_filter.mp waits
      obtain ⟨asked, current⟩ := sound.waiting w waits
      rw [of_decide_eq_true awaited] at current
      exact ⟨asked, current⟩
    · exact sound.served a member

theorem Sound.evict (sound : s.Sound) (keep : String × Page → Bool) : (s.evict keep).Sound where
  floor := sound.floor
  current := sound.current
  drops _ := sound.drops_later
  flights := sound.flights
  pages p member := sound.pages p (List.mem_of_mem_filter member)
  lookups l member := (sound.lookups l member).later rfl rfl rfl
  waiting := sound.waiting
  served := sound.served

theorem Sound.become_self (sound : s.Sound) : (s.become s.cache).Sound where
  floor := sound.floor
  current := sound.current
  drops _ := sound.drops_later
  flights := sound.flights
  pages := sound.pages
  lookups l member := (sound.lookups l member).later rfl rfl rfl
  waiting := sound.waiting
  served := sound.served

/-- An invalidation hands out an epoch that no key has. -/
theorem Current.drop {key : String} {began : Nat} (current : s.Current key began)
    {target : Option String} {cache : PageCache} (epochs : cache.epochs = s.cache.epochs.renew target) :
    (s.drop target cache).Current key began := by
  obtain ⟨entity, epoch, q, key, handed, earlier⟩ := current
  have last : cache.epochs.last = s.cache.epochs.last + 1 := by
    rw [epochs, Epochs.last_renew]
  refine ⟨entity, epoch, q, key, ?_, fun d member covers after => ?_⟩
  · show epoch ≤ cache.epochs.last
    omega
  · rcases List.mem_cons.mp member with rfl | member
    · show epoch < cache.epochs.last
      omega
    · exact earlier d member covers after

/-- No key is computed after the invalidation yet. -/
theorem Informed.drop {l : Lookup} (informed : s.Informed l) {target : Option String}
    {cache : PageCache} (epochs : cache.epochs = s.cache.epochs.renew target) :
    (s.drop target cache).Informed l := by
  obtain ⟨keyed, epoch, q, key, handed, earlier⟩ := informed
  have last : cache.epochs.last = s.cache.epochs.last + 1 := by
    rw [epochs, Epochs.last_renew]
  refine ⟨Nat.lt_succ_of_lt keyed, epoch, q, key, ?_, fun d member covers before => ?_⟩
  · show epoch ≤ cache.epochs.last
    omega
  · rcases List.mem_cons.mp member with rfl | member
    · exact absurd keyed (Nat.lt_asymm before)
    · exact earlier d member covers before

theorem Sound.drop (sound : s.Sound) {target : Option String} {cache : PageCache}
    (h : s.cache.Invalidates target cache) : (s.drop target cache).Sound := by
  obtain ⟨epochs, flights, pages⟩ := h.effect
  have last : cache.epochs.last = s.cache.epochs.last + 1 := by
    rw [epochs, Epochs.last_renew]
  have renewed : ∀ entity, cache.epochs.current entity =
      if target = none ∨ target = some entity then s.cache.epochs.last + 1
      else s.cache.epochs.current entity := fun entity => by
    rw [epochs, Epochs.current_renew sound.floor]
  refine ⟨?_, fun entity => ?_, fun d member => ?_, fun p member => ?_, fun p member => ?_,
    fun l member => ?_, fun w member => ?_, fun a member => ?_⟩
  · show cache.epochs.floor ≤ cache.epochs.last
    rw [epochs]
    exact Epochs.floor_renew_le sound.floor target
  · show cache.epochs.current entity ≤ cache.epochs.last
    have reached := sound.current entity
    rw [renewed, last]
    split <;> omega
  · rcases List.mem_cons.mp member with rfl | member
    · refine ⟨Nat.lt_succ_self _, fun entity covers => ?_⟩
      show cache.epochs.last ≤ cache.epochs.current entity
      have covered : target = none ∨ target = some entity := covers
      rw [renewed, if_pos covered]
      exact Nat.le_of_eq last
    · obtain ⟨before, reached⟩ := sound.drops d member
      refine ⟨Nat.lt_succ_of_lt before, fun entity covers => ?_⟩
      show d.epoch ≤ cache.epochs.current entity
      have epoch := reached entity covers
      have bound := sound.current entity
      rw [renewed]
      split <;> omega
  · exact (sound.flights p (flights ▸ member)).drop epochs
  · exact (sound.pages p (pages p member)).drop epochs
  · exact (sound.lookups l member).drop epochs
  · obtain ⟨asked, current⟩ := sound.waiting w member
    exact ⟨asked, current.drop epochs⟩
  · obtain ⟨asked, current⟩ := sound.served a member
    exact ⟨asked, current.drop epochs⟩

theorem Sound.step (sound : s.Sound) {after : CacheRun} (h : Step s after) : after.Sound := by
  cases h with
  | ask entity q => exact sound.ask entity q
  | find asked found => exact sound.find asked found
  | join asked found => exact sound.join asked found
  | depart asked _ => exact sound.depart asked
  | land page? flight => exact sound.land page? flight
  | evict keep => exact sound.evict keep
  | invalidate h => exact sound.drop h
  | changed had has => exact sound.drop (Session.invalidates_of_mutate had has)
  | unchanged had has =>
    obtain rfl := Session.eq_of_mutate_error had has
    exact sound.become_self

theorem sound_of_reaches (reached : s.Reaches) : s.Sound := by
  induction reached with
  | refl => exact sound_start
  | tail _ step ih => exact ih.step step

/-! ## Epochs are a count -/

/-- An invalidation hands out one epoch, and no other step hands out any. -/
theorem Step.counts {after : CacheRun} (h : Step s after) :
    ∃ count ≤ 1, after.cache.epochs.last = s.cache.epochs.last + count ∧
      after.drops.length = s.drops.length + count ∧ after.clock = s.clock + 1 := by
  have dropped {target : Option String} {cache : PageCache} (h : s.cache.Invalidates target cache) :
      cache.epochs.last = s.cache.epochs.last + 1 := by
    rw [h.effect.1, Epochs.last_renew]
  cases h with
  | invalidate h => exact ⟨1, Nat.le_refl 1, dropped h, rfl, rfl⟩
  | changed had has =>
    exact ⟨1, Nat.le_refl 1, dropped (Session.invalidates_of_mutate had has), rfl, rfl⟩
  | unchanged had has =>
    obtain rfl := Session.eq_of_mutate_error had has
    exact ⟨0, Nat.zero_le 1, rfl, rfl, rfl⟩
  | _ => exact ⟨0, Nat.zero_le 1, rfl, rfl, rfl⟩

/-- **The last epoch is the number of invalidations**, and of these there are not more than steps. -/
theorem Reaches.last_eq_drops (reached : s.Reaches) :
    s.cache.epochs.last = s.drops.length ∧ s.drops.length ≤ s.clock := by
  induction reached with
  | refl => exact ⟨rfl, Nat.le_refl 0⟩
  | tail _ step ih =>
    obtain ⟨count, single, last, drops, clock⟩ := step.counts
    omega

/-- Epochs are words as long as the number of invalidations is one: the last one, the one that all
entities have reached and the one of each entity. -/
theorem Reaches.epochs_fit (reached : s.Reaches) (few : Word.Fits s.drops.length) :
    Word.Fits s.cache.epochs.last ∧ Word.Fits s.cache.epochs.floor ∧
      ∀ entity, Word.Fits (s.cache.epochs.current entity) := by
  have sound := sound_of_reaches reached
  have last : Word.Fits s.cache.epochs.last := reached.last_eq_drops.1 ▸ few
  exact ⟨last, last.mono sound.floor, fun entity => last.mono (sound.current entity)⟩

/-! ## Every run -/

/-- **Nothing stale is returned.** What a lookup returns was not asked for before an invalidation that
came before its key was computed, be it one of its entity, one of all, or the end of a change that
succeeded. A change that fails leaves the cache as it is. -/
theorem serves_fresh (reached : s.Reaches) :
    (∀ a ∈ s.served, ∀ d ∈ s.drops, d.Covers a.lookup.entity → d.time < a.lookup.keyed →
      d.time ≤ a.began) ∧
    ∀ (session : Session) (entity : String) (α : Type) (fault : ClientFault),
      session.mutate entity (.error fault : Except ClientFault α) = session := by
  have sound := sound_of_reaches reached
  refine ⟨fun a member d dropped covers before => ?_, fun _ _ _ _ => rfl⟩
  obtain ⟨asked, entity, epoch, q, key, -, older⟩ := sound.served a member
  obtain ⟨-, epoch', q', key', -, informed⟩ := sound.lookups a.lookup asked
  -- the page and the lookup share the key, so they share the entity and the epoch
  obtain ⟨rfl, rfl⟩ := PageCache.keyAt_inj (key'.symm.trans key)
  have reached := informed d dropped covers before
  by_contra late
  have earlier := older d dropped covers (by omega)
  omega

/-- A list of jobs is asked for, the jobs are invalidated, and the same list is asked for again while
the first fetch is still on its way. The second lookup returns the page of a second fetch. -/
theorem serves_fresh_refetch : ∃ s : CacheRun, s.Reaches ∧ ∃ a ∈ s.served, ∃ d ∈ s.drops,
    d.Covers a.lookup.entity ∧ d.time < a.lookup.keyed ∧ d.time ≤ a.began := by
  have differ : PageCache.keyAt "jobs" 0 {} ≠ PageCache.keyAt "jobs" 1 {} := fun same =>
    absurd (PageCache.keyAt_inj same).2 (by decide)
  have asked : Reaches _ := .single (.ask "jobs" {})
  have begun := asked.tail
    (.depart (l := ⟨"jobs", PageCache.keyAt "jobs" 0 {}, 0⟩) List.mem_cons_self rfl)
  have dropped := begun.tail (.invalidate (.entity "jobs"))
  have again := dropped.tail (.ask "jobs" {})
  have refetched := again.tail
    (.depart (l := ⟨"jobs", PageCache.keyAt "jobs" 1 {}, 3⟩) List.mem_cons_self (by
      show PageCache.lookup ⟨_, [], [(PageCache.keyAt "jobs" 0 {}, 1)]⟩ _ = .absent
      rw [PageCache.lookup, Keyed.get?, Keyed.get?, if_neg differ, Keyed.get?]))
  have flights : Keyed.put [(PageCache.keyAt "jobs" 0 {}, 1)] (PageCache.keyAt "jobs" 1 {}) 4 =
      [(PageCache.keyAt "jobs" 0 {}, 1), (PageCache.keyAt "jobs" 1 {}, 4)] := by
    rw [Keyed.put, if_neg differ, Keyed.put]
  have landed := refetched.tail (.land (some ⟨[], 0, {}⟩)
    (show PageCache.keyOf? ⟨_, [], Keyed.put [(PageCache.keyAt "jobs" 0 {}, 1)] _ 4⟩ 4 =
        some (PageCache.keyAt "jobs" 1 {}) by
      rw [PageCache.keyOf?, flights]
      rfl))
  refine ⟨_, landed, _, List.mem_cons_self, _, List.mem_cons_self, .inr rfl, by decide, ?_⟩
  exact (serves_fresh landed).1 _ List.mem_cons_self _ List.mem_cons_self (.inr rfl) (by decide)

end CacheRun

end Roster
