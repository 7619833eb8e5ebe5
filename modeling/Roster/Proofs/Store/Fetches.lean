import Mathlib.Data.List.Forall2
import Roster.Proofs.Query.IncludePath
import Roster.Store.Includes

/-!
# What a storage is asked to fetch

`Storage.recorded` keeps a record of the fetches that it is asked for and leaves everything else to a
storage without one. Related records are loaded with one fetch for each place of the include tree at
most, in the order of the tree and however many rows there are (`Includes.load_recorded`): the places
that are fetched for are some of `IncludeTree.requestedPlaces`, each of them once, and a fetch for a
place looks up records of the entity there, by keys and the filter of the place.
-/

namespace Roster

/-- Fetches, in the order in which they are asked for. -/
abbrev FetchRecord := List (Entity × Descriptor)

/-- The storage, with a record of the fetches. -/
def Storage.recorded (s : Storage Id) : Storage (StateM FetchRecord) where
  fetch e q := ExceptT.mk fun before => (s.fetch e q, before ++ [(e, q)])
  count e filter := ExceptT.mk fun before => (s.count e filter, before)
  healthy := fun before => (s.healthy, before)

/-- `x` does what `y` does, and puts `fetches` on the record. -/
def Records {ε α : Type} (x : ExceptT ε (StateM FetchRecord) α) (y : ExceptT ε Id α)
    (fetches : FetchRecord) : Prop :=
  ∀ before : FetchRecord, x.run.run before = (y.run, before ++ fetches)

namespace Records

variable {ε ε' α β : Type} {x : ExceptT ε (StateM FetchRecord) α} {y : ExceptT ε Id α}
  {fetches : FetchRecord}

theorem pure (a : α) : Records (ε := ε) (Pure.pure a) (Pure.pure a) [] := by
  intro before
  rw [List.append_nil]
  rfl

theorem throw (fault : ε) :
    Records (throw fault : ExceptT ε (StateM FetchRecord) α) (throw fault) [] := by
  intro before
  rw [List.append_nil]
  rfl

theorem bind_ok {f : α → ExceptT ε (StateM FetchRecord) β} {g : α → ExceptT ε Id β} {a : α}
    {more : FetchRecord} (first : Records x y fetches) (result : y.run = .ok a)
    (second : Records (f a) (g a) more) : Records (x >>= f) (y >>= g) (fetches ++ more) := by
  intro before
  rw [ExceptT.run_bind, ExceptT.run_bind, StateT.run_bind, first before, result,
    ← List.append_assoc]
  exact second (before ++ fetches)

/-- What comes after a failure is not asked for. -/
theorem bind_error {f : α → ExceptT ε (StateM FetchRecord) β} {g : α → ExceptT ε Id β} {fault : ε}
    (first : Records x y fetches) (result : y.run = .error fault) :
    Records (x >>= f) (y >>= g) fetches := by
  intro before
  rw [ExceptT.run_bind, ExceptT.run_bind, StateT.run_bind, first before, result]
  rfl

/-- What is asked for next may not come to be asked for, so nothing has to be among what it may
be. -/
theorem bind {f : α → ExceptT ε (StateM FetchRecord) β} {g : α → ExceptT ε Id β}
    {P : FetchRecord → Prop} (first : Records x y fetches) (nothing : P [])
    (next : ∀ a, y.run = .ok a → ∃ more, P more ∧ Records (f a) (g a) more) :
    ∃ more, P more ∧ Records (x >>= f) (y >>= g) (fetches ++ more) := by
  cases result : y.run with
  | error fault =>
    refine ⟨[], nothing, ?_⟩
    rw [List.append_nil]
    exact first.bind_error result
  | ok a =>
    obtain ⟨more, hmore, second⟩ := next a result
    exact ⟨more, hmore, first.bind_ok result second⟩

/-- Nothing is asked for next. -/
theorem bind_quiet {f : α → ExceptT ε (StateM FetchRecord) β} {g : α → ExceptT ε Id β}
    (first : Records x y fetches) (quiet : ∀ a, y.run = .ok a → Records (f a) (g a) []) :
    Records (x >>= f) (y >>= g) fetches := by
  obtain ⟨_, rfl, records⟩ :=
    first.bind (P := (· = [])) rfl fun a result => ⟨[], rfl, quiet a result⟩
  rwa [List.append_nil] at records

theorem adapt (f : ε → ε') (h : Records x y fetches) : Records (x.adapt f) (y.adapt f) fetches := by
  intro before
  change (fun result => (result.1.mapError f, result.2)) (x.run.run before) = _
  rw [h before]
  rfl

end Records

theorem Storage.fetch_recorded (s : Storage Id) (e : Entity) (q : Descriptor) :
    Records (s.recorded.fetch e q) (s.fetch e q) [(e, q)] := fun _ => rfl

theorem Storage.count_recorded (s : Storage Id) (e : Entity) (filter : Option Predicate) :
    Records (s.recorded.count e filter) (s.count e filter) [] := by
  intro before
  rw [List.append_nil]
  rfl

/-! ## Places -/

namespace IncludeEntry

mutual

/-- The places of an entry and below it that are wanted. -/
def requestedPlaces (name : String) : IncludeEntry → List (List String)
  | .null => []
  | .flag wanted => if wanted then [[name]] else []
  | .nested inc _ _ => [name] :: (placesOfInclude inc).map (name :: ·)

/-- The wanted places below a node. -/
def placesOfInclude : Option (List (String × IncludeEntry)) → List (List String)
  | none => []
  | some tree => placesOfTree tree

/-- The wanted places of a tree. -/
def placesOfTree : List (String × IncludeEntry) → List (List String)
  | [] => []
  | (name, entry) :: rest => entry.requestedPlaces name ++ placesOfTree rest

end

end IncludeEntry

/-- The places of a tree whose records are wanted, in the order of the tree. -/
def IncludeTree.requestedPlaces (tree : IncludeTree) : List (List String) :=
  IncludeEntry.placesOfTree tree

namespace IncludeEntry

theorem mem_placesOfTree_iff {names : List String} {tree : IncludeTree} :
    names ∈ placesOfTree tree ↔ ∃ p ∈ tree, names ∈ p.2.requestedPlaces p.1 := by
  induction tree with
  | nil => exact ⟨nofun, nofun⟩
  | cons first rest ih =>
    obtain ⟨name, entry⟩ := first
    rw [placesOfTree, List.mem_append, ih, List.exists_mem_cons_iff]

theorem mem_requestedPlaces_iff {names : List String} {name : String} {entry : IncludeEntry} :
    names ∈ entry.requestedPlaces name ↔
      names = [name] ∧ entry.isRequested = true ∨
        ∃ inner lower, entry.include? = some inner ∧ lower ∈ placesOfTree inner ∧
          name :: lower = names := by
  cases entry with
  | null => simp [requestedPlaces, isRequested, IncludeEntry.include?, node?]
  | flag wanted =>
    simp [requestedPlaces, isRequested, IncludeEntry.include?, node?, and_comm]
  | nested inc select filter =>
    cases inc <;>
      simp [requestedPlaces, placesOfInclude, isRequested, IncludeEntry.include?, node?]

end IncludeEntry

/-- **The places that are wanted** are those of the entries that are. -/
theorem IncludeTree.mem_requestedPlaces_iff {names : List String} : ∀ {tree : IncludeTree},
    names ∈ tree.requestedPlaces ↔ ∃ entry, tree.At names entry ∧ entry.isRequested = true := by
  induction names with
  | nil =>
    intro tree
    rw [requestedPlaces, IncludeEntry.mem_placesOfTree_iff]
    constructor
    · rintro ⟨p, -, place⟩
      obtain ⟨none_, -⟩ | ⟨_, _, -, -, none_⟩ := IncludeEntry.mem_requestedPlaces_iff.mp place <;>
        cases none_
    · rintro ⟨entry, at_, -⟩
      nomatch at_
  | cons name rest ih =>
    intro tree
    rw [requestedPlaces, IncludeEntry.mem_placesOfTree_iff]
    constructor
    · rintro ⟨⟨_, outer⟩, member, place⟩
      obtain ⟨same, wanted⟩ | ⟨inner, _, hinner, lower, same⟩ :=
        IncludeEntry.mem_requestedPlaces_iff.mp place
      · obtain ⟨rfl, rfl⟩ := List.cons.inj same
        exact ⟨outer, .here member, wanted⟩
      · obtain ⟨rfl, rfl⟩ := List.cons.inj same
        obtain ⟨entry, at_, wanted⟩ := ih.mp lower
        exact ⟨entry, .deeper member hinner at_, wanted⟩
    · rintro ⟨entry, at_, wanted⟩
      cases at_ with
      | here member =>
        exact ⟨_, member, IncludeEntry.mem_requestedPlaces_iff.mpr (.inl ⟨rfl, wanted⟩)⟩
      | deeper member hinner lower =>
        exact ⟨_, member, IncludeEntry.mem_requestedPlaces_iff.mpr
          (.inr ⟨_, rest, hinner, ih.mpr ⟨entry, lower, wanted⟩, rfl⟩)⟩

theorem IncludeTree.At.mono {tree tree' : IncludeTree} {names : List String} {entry : IncludeEntry}
    (at_ : tree.At names entry) (within : ∀ p ∈ tree, p ∈ tree') : tree'.At names entry := by
  cases at_ with
  | here member => exact .here (within _ member)
  | deeper member hinner lower => exact .deeper (within _ member) hinner lower

namespace Includes

/-- The fetch looks up the records for a place that is wanted: records of the entity there, by the
filter of the place and by keys. -/
def Serves (r : Registry) (e : Entity) (tree : IncludeTree) (names : List String)
    (fetch : Entity × Descriptor) : Prop :=
  ∃ entry, tree.At names entry ∧ entry.isRequested = true ∧ r.follow e names = .ok fetch.1 ∧
    ∃ field keys, fetch.2 = childQuery entry.filter? field keys

/-- The fetches are for some of the places, one for each and in their order. -/
def Served (r : Registry) (e : Entity) (tree : IncludeTree) (places : List (List String))
    (fetches : FetchRecord) : Prop :=
  ∃ used : List (List String), used.Sublist places ∧ List.Forall₂ (Serves r e tree) used fetches

variable {r : Registry} {e target : Entity} {tree tree' inner : IncludeTree} {name : String}
  {entry : IncludeEntry} {places places' : List (List String)} {fetches fetches' : FetchRecord}

theorem Served.nil : Served r e tree places [] := ⟨[], List.nil_sublist _, .nil⟩

theorem Served.length_le (served : Served r e tree places fetches) :
    fetches.length ≤ places.length := by
  obtain ⟨used, sub, forall₂⟩ := served
  exact forall₂.length_eq ▸ sub.length_le

theorem Served.append (first : Served r e tree places fetches)
    (second : Served r e tree places' fetches') :
    Served r e tree (places ++ places') (fetches ++ fetches') := by
  obtain ⟨used, sub, forall₂⟩ := first
  obtain ⟨used', sub', forall₂'⟩ := second
  exact ⟨used ++ used', sub.append sub', List.rel_append forall₂ forall₂'⟩

theorem Served.mono (served : Served r e tree places fetches)
    (within : ∀ p ∈ tree, p ∈ tree') : Served r e tree' places fetches := by
  obtain ⟨used, sub, forall₂⟩ := served
  refine ⟨used, sub, forall₂.imp fun names fetch => ?_⟩
  rintro ⟨entry, at_, rest⟩
  exact ⟨entry, at_.mono within, rest⟩

/-- What is fetched below an entry is fetched for the places below it. -/
theorem Served.below (served : Served r target inner places fetches)
    (ht : r.target? e name = some target) (hinner : entry.include? = some inner) :
    Served r e [(name, entry)] (places.map (name :: ·)) fetches := by
  obtain ⟨used, sub, forall₂⟩ := served
  refine ⟨used.map (name :: ·), sub.map _, List.forall₂_map_left_iff.mpr (forall₂.imp ?_)⟩
  rintro names fetch ⟨lower, at_, wanted, follow, query⟩
  exact ⟨lower, .deeper List.mem_cons_self hinner at_, wanted,
    (Registry.follow_cons ht names).trans follow, query⟩

/-! ## Loading -/

variable (s : Storage Id)

theorem linkOf_recorded (r : Registry) (e : Entity) (name : String) :
    Records (linkOf r e name) (linkOf r e name) [] := by
  unfold linkOf
  split
  · exact .throw _
  · split
    · exact .pure _
    · exact .throw _

theorem target?_of_linkOf {found : Relation × Entity}
    (h : (linkOf (m := Id) r e name).run = .ok found) : r.target? e name = some found.2 := by
  unfold linkOf at h
  split at h
  · cases h
  · next l hl =>
    split at h
    · next target ht =>
      obtain rfl := Except.ok.inj h
      exact Option.bind_eq_some_iff.mpr ⟨l, hl, ht⟩
    · cases h

/-- The records of all rows behind a relation take one fetch, or none if no row has a key. -/
theorem fetchChildren_recorded (l : Relation) (target : Entity) (filter : Option Predicate)
    (rows : List Json) :
    ∃ fetches, (fetches = [] ∨
        ∃ keys, fetches = [(target, childQuery filter l.foreignField keys)]) ∧
      Records (fetchChildren s.recorded l target filter rows)
        (fetchChildren s l target filter rows) fetches := by
  unfold fetchChildren
  split
  · exact ⟨[], .inl rfl, .pure []⟩
  · have asked := (s.fetch_recorded target
      (childQuery filter l.foreignField (keysOf l.localField rows))).adapt (LoadFault.fetch l.name)
    exact ⟨_, .inr ⟨_, rfl⟩, asked.bind_quiet fun found _ => .pure found.rows⟩

/-- The fetch for a place. -/
theorem served_fetchChildren {filter : Option Predicate} {field : String}
    (ht : r.target? e name = some target) (wanted : entry.isRequested = true)
    (hfilter : entry.filter? = filter)
    (h : fetches = [] ∨ ∃ keys, fetches = [(target, childQuery filter field keys)]) :
    Served r e [(name, entry)] [[name]] fetches := by
  rcases h with rfl | ⟨keys, rfl⟩
  · exact .nil
  · have follow : r.follow e [name] = .ok target := by
      rw [Registry.follow_cons ht, Registry.follow]
    exact ⟨[[name]], .refl _, .cons ⟨entry, .here List.mem_cons_self, wanted, follow, field, keys,
      by rw [hfilter]⟩ .nil⟩

section Load

variable (r : Registry) (maxDepth : Nat)

mutual

theorem loadEntry_recorded (depth : Nat) (e : Entity) (name : String) (rows : List Json) :
    (entry : IncludeEntry) → ∃ fetches,
      Served r e [(name, entry)] (entry.requestedPlaces name) fetches ∧
        Records (loadEntry s.recorded r maxDepth depth e name rows entry)
          (loadEntry s r maxDepth depth e name rows entry) fetches
  | .null => ⟨[], .nil, .pure rows⟩
  | .flag false => ⟨[], .nil, .pure rows⟩
  | .flag true => by
    refine (linkOf_recorded r e name).bind .nil fun ⟨l, target⟩ found => ?_
    have ht := target?_of_linkOf found
    obtain ⟨fetches, one, records⟩ := fetchChildren_recorded s l target none rows
    exact ⟨fetches, served_fetchChildren ht rfl rfl one,
      records.bind_quiet fun children _ => .pure (distribute l none none children rows)⟩
  | .nested inc select filter => by
    refine (linkOf_recorded r e name).bind .nil fun ⟨l, target⟩ found => ?_
    have ht := target?_of_linkOf found
    obtain ⟨fetches, one, records⟩ := fetchChildren_recorded s l target filter rows
    have served : Served r e [(name, .nested inc select filter)] [[name]] fetches :=
      served_fetchChildren ht rfl rfl one
    -- the records below come after the records of this place
    obtain ⟨more, below, records⟩ := records.bind
      (P := fun more => Served r e [(name, .nested inc select filter)]
        ((IncludeEntry.placesOfInclude inc).map (name :: ·)) more) .nil fun children _ => by
      obtain ⟨more, lower, records⟩ := loadNested_recorded (depth + 1) target children inc
      exact ⟨more, lower e name select filter ht,
        records.bind_quiet fun children _ => .pure (distribute l select inc children rows)⟩
    exact ⟨fetches ++ more, served.append below, records⟩

theorem loadNested_recorded (depth : Nat) (target : Entity) (rows : List Json) :
    (inc : Option (List (String × IncludeEntry))) → ∃ fetches,
      (∀ (e : Entity) (name : String) (select : Option Select) (filter : Option Predicate),
        r.target? e name = some target → Served r e [(name, .nested inc select filter)]
          ((IncludeEntry.placesOfInclude inc).map (name :: ·)) fetches) ∧
        Records (loadNested s.recorded r maxDepth depth target rows inc)
          (loadNested s r maxDepth depth target rows inc) fetches
  | none => ⟨[], fun _ _ _ _ _ => .nil, .pure rows⟩
  | some tree => by
    rw [loadNested, loadNested]
    split
    · exact ⟨[], fun _ _ _ _ _ => .nil, .pure rows⟩
    · obtain ⟨fetches, served, records⟩ := loadTree_recorded depth target rows tree
      exact ⟨fetches, fun _ _ _ _ ht => served.below ht rfl, records⟩

/-- **Loading a tree takes one fetch at most for each place that is wanted.** -/
theorem loadTree_recorded (depth : Nat) (e : Entity) (rows : List Json) :
    (tree : List (String × IncludeEntry)) → ∃ fetches,
      Served r e tree (IncludeEntry.placesOfTree tree) fetches ∧
        Records (loadTree s.recorded r maxDepth depth e rows tree)
          (loadTree s r maxDepth depth e rows tree) fetches
  | [] => ⟨[], .nil, .pure rows⟩
  | (name, entry) :: rest => by
    obtain ⟨fetches, served, records⟩ := loadEntry_recorded depth e name rows entry
    obtain ⟨more, later, records⟩ := records.bind
      (P := Served r e ((name, entry) :: rest) (IncludeEntry.placesOfTree rest)) .nil
      fun rows _ => by
        obtain ⟨more, later, records⟩ := loadTree_recorded depth e rows rest
        exact ⟨more, later.mono fun p member => List.mem_cons_of_mem _ member, records⟩
    refine ⟨fetches ++ more, (served.mono fun p member => ?_).append later, records⟩
    rw [List.mem_singleton.mp member]
    exact List.mem_cons_self

end

theorem load_recorded (depth : Nat) (e : Entity) (tree : IncludeTree) (rows : List Json) :
    ∃ fetches, Served r e tree tree.requestedPlaces fetches ∧
      Records (load s.recorded r maxDepth depth e tree rows)
        (load s r maxDepth depth e tree rows) fetches := by
  unfold load
  split
  · exact ⟨[], .nil, .pure rows⟩
  · exact loadTree_recorded s r maxDepth depth e rows tree

end Load

end Includes

end Roster
