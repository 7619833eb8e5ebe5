import Roster.Proofs.Predicate.Leaves
import Roster.Proofs.Query.IncludePath
import Roster.Schema.Recruiting
import Roster.Scope.Narrow
import Roster.Scope.Redact

/-!
# A narrowed query is confined

What leaves `Caller.narrow` reads no more than its caller may see, at every depth of its includes.
`Confined` is the property of one filter: what it accepts satisfies the overlay of the entity, and
each leaf comes from the overlay or is a leaf of the caller's that is not blocked. The same holds of
the filter at every place of the include tree, for the entity that the place belongs to.

The storage has no part in it. It can make the narrowing fail, where a record is looked up, but not
change the query that comes out: `Caller.narrowed` is that query as a function of the one that goes
in.
-/

namespace Roster

/-- A filter as an entity's rule allows it, made from the filter that was asked for. -/
structure Confined (c : Caller) (r : Registry) (e : Entity) (asked narrowed : Option Predicate) :
    Prop where
  /-- What is accepted satisfies the overlay. -/
  within : ∀ row, accepts? narrowed row = true → (c.rule e.name).overlay.Admits row
  /-- A leaf belongs to the overlay, or was asked for and is not blocked. -/
  leaves : ∀ leaf ∈ Predicate.leavesOf narrowed,
    leaf ∈ (c.rule e.name).overlay.condition.leaves ∨
      leaf ∈ Predicate.leavesOf asked ∧ ∀ path ∈ leaf.paths, c.blocks r e path = false

namespace Caller

variable {c : Caller} {r : Registry} {e : Entity}

/-! ## Filters -/

/-- What stripping leaves was asked for and is not blocked. -/
theorem mem_leavesOf_strip {leaf : Predicate} {filter : Option Predicate}
    (h : leaf ∈ Predicate.leavesOf (c.strip r e filter)) :
    leaf ∈ Predicate.leavesOf filter ∧ ∀ path ∈ leaf.paths, c.blocks r e path = false := by
  cases filter with
  | none => cases h
  | some p =>
    rw [strip, Option.bind_some, Predicate.leavesOf_removeRestricted] at h
    obtain ⟨hleaf, hoff⟩ := List.mem_filter.mp h
    refine ⟨hleaf, fun path hpath => ?_⟩
    rw [← Bool.not_eq_true]
    intro blocked
    -- a blocked path is itself on the list that the leaf would have to avoid
    have listed : path ∈ p.paths.filter (c.blocks r e) :=
      List.mem_filter.mpr ⟨(Predicate.mem_paths_iff p).mpr ⟨leaf, hleaf, hpath⟩, blocked⟩
    have hon : Predicate.isOn (p.paths.filter (c.blocks r e)) leaf = true := by
      refine List.any_eq_true.mpr ⟨path, hpath, List.any_eq_true.mpr ⟨path, listed, ?_⟩⟩
      simp [Path.startsWith]
    rw [hon] at hoff
    cases hoff

/-- The filter that narrowing makes is confined. -/
theorem confined_apply_strip (filter : Option Predicate)
    (visible : (c.rule e.name).overlay.isDeny = false) :
    Confined c r e filter ((c.rule e.name).overlay.apply (c.strip r e filter)) where
  within row h := by
    rw [Overlay.accepts?_apply _ _ _ visible, Bool.and_eq_true] at h
    exact (Overlay.accepts_condition_iff _ _).mp h.1
  leaves leaf h := by
    rcases Overlay.mem_leavesOf_apply h with h | h
    · exact .inr (mem_leavesOf_strip h)
    · exact .inl h

/-! ## Restricted fields -/

/-- Restricted paths are named fields of the entity itself. -/
theorem segments_of_restricted {entity : String} {path : Path}
    (h : path ∈ (c.rule entity).restricted) :
    path.segments = [path.leaf] ∧ path.leaf ≠ "" := by
  unfold rule at h
  split at h <;> simp only [List.mem_cons, List.not_mem_nil, or_false] at h
  · rw [h]
    exact ⟨rfl, by decide⟩
  · rcases h with rfl | rfl <;> exact ⟨rfl, by decide⟩

/-- The name of a field is hidden when the path to it is restricted. -/
theorem hides_iff {entity name : String} :
    c.hides entity name = true ↔ Path.mk [name] ∈ (c.rule entity).restricted := by
  rw [hides, List.any_eq_true]
  constructor
  · rintro ⟨path, hpath, hname⟩
    have hsegments := (segments_of_restricted hpath).1
    rw [beq_iff_eq] at hname
    rw [hname] at hsegments
    cases path
    exact hsegments ▸ hpath
  · exact fun h => ⟨_, h, by simp [Path.leaf]⟩

theorem mem_narrowOrder {restricted : List Path} {keys : List SortKey} {k : SortKey}
    (h : k ∈ (narrowOrder restricted keys).getD []) : k ∈ keys ∧ k.path ∉ restricted := by
  have hfilter : k ∈ keys.filter fun k => !restricted.contains k.path := by
    unfold narrowOrder at h
    split at h
    · cases h
    · next kept hkept => exact h
  simpa using List.mem_filter.mp hfilter

/-! ## Includes -/

/-- An entry made from directives has those directives, and is wanted. -/
theorem entryOf_parts (n : IncludeNode) :
    (entryOf n).filter? = n.filter ∧ (entryOf n).select? = n.select ∧
      (entryOf n).include? = n.include? ∧ (entryOf n).isRequested = true := by
  obtain ⟨inc, select, filter⟩ := n
  cases inc <;> cases select <;> cases filter <;> exact ⟨rfl, rfl, rfl, rfl⟩

/-- A narrowed entry stands under the name of an entry that was asked for. -/
theorem mem_narrowTree {tree : IncludeTree} {name : String} {entry : IncludeEntry}
    (known : tree.Known r e) (h : (name, entry) ∈ c.narrowTree r e tree) :
    ∃ asked target, (name, asked) ∈ tree ∧ r.target? e name = some target ∧
      c.narrowEntry r target asked = some entry := by
  induction tree with
  | nil => cases h
  | cons first rest ih =>
    obtain ⟨relation, head⟩ := first
    have knownRest : IncludeTree.Known r e rest := by
      intro names entry at_
      cases at_ with
      | here member => exact known _ _ (.here (List.mem_cons_of_mem _ member))
      | deeper member hinner lower =>
        exact known _ _ (.deeper (List.mem_cons_of_mem _ member) hinner lower)
    have tail (h : (name, entry) ∈ c.narrowTree r e rest) :
        ∃ asked target, (name, asked) ∈ (relation, head) :: rest ∧
          r.target? e name = some target ∧ c.narrowEntry r target asked = some entry := by
      obtain ⟨asked, target, member, ht, hentry⟩ := ih knownRest h
      exact ⟨asked, target, List.mem_cons_of_mem _ member, ht, hentry⟩
    obtain ⟨target, ht⟩ := known.target? List.mem_cons_self
    rw [narrowTree, ht] at h
    dsimp only at h
    split at h
    · next narrowed hentry =>
      rcases List.mem_cons.mp h with same | h
      · obtain ⟨rfl, rfl⟩ := Prod.mk.inj same
        exact ⟨head, target, List.mem_cons_self, ht, hentry⟩
      · exact tail h
    · exact tail h

/-- A wanted entry that narrowing keeps has its own directives, narrowed, and leads to an entity
that the caller may read. -/
theorem narrowEntry_eq_some {target : Entity} {asked entry : IncludeEntry}
    (h : c.narrowEntry r target asked = some entry) (wanted : asked.isRequested = true) :
    (c.rule target.name).overlay.isDeny = false ∧
      entry = entryOf
        { filter := (c.rule target.name).overlay.apply (c.strip r target asked.filter?)
          include? := c.narrowInclude r target asked.include?
          select := asked.select? } := by
  have shape : c.narrowEntry r target asked =
      if (c.rule target.name).overlay.isDeny then none
      else some (entryOf
        { filter := (c.rule target.name).overlay.apply (c.strip r target asked.filter?)
          include? := c.narrowInclude r target asked.include?
          select := asked.select? }) := by
    cases asked with
    | null => cases wanted
    | flag flag =>
      obtain rfl : flag = true := wanted
      rfl
    | nested inc select filter => rfl
  rw [shape] at h
  cases hd : (c.rule target.name).overlay.isDeny with
  | true =>
    rw [if_pos hd] at h
    cases h
  | false =>
    rw [if_neg (by simp [hd])] at h
    exact ⟨rfl, (Option.some.inj h).symm⟩

/-- What narrowing makes of an entry that it keeps and that is wanted. -/
theorem narrowEntry_parts {target : Entity} {asked entry : IncludeEntry}
    (h : c.narrowEntry r target asked = some entry) (wanted : entry.isRequested = true) :
    asked.isRequested = true ∧ (c.rule target.name).overlay.isDeny = false ∧
      entry.filter? = (c.rule target.name).overlay.apply (c.strip r target asked.filter?) ∧
      entry.select? = asked.select? ∧
      entry.include? = asked.include?.map (c.narrowTree r target) := by
  have requested : asked.isRequested = true := by
    cases asked with
    | null => cases h; exact wanted
    | flag flag =>
      cases flag with
      | false => cases h; exact wanted
      | true => rfl
    | nested => rfl
  obtain ⟨seen, rfl⟩ := narrowEntry_eq_some h requested
  obtain ⟨hfilter, hselect, hinc, -⟩ := entryOf_parts
    { filter := (c.rule target.name).overlay.apply (c.strip r target asked.filter?)
      include? := c.narrowInclude r target asked.include?
      select := asked.select? }
  refine ⟨requested, seen, hfilter, hselect, hinc.trans ?_⟩
  cases asked.include? <;> rfl

/-- **Every place of a narrowed tree was a place of the tree that was asked for**, and its entry is
the narrowed entry of that place. -/
theorem place_narrowTree {names : List String} {entry : IncludeEntry} {narrowed : IncludeTree}
    (at_ : narrowed.At names entry) :
    ∀ {e : Entity} {tree : IncludeTree}, narrowed = c.narrowTree r e tree → tree.Known r e →
      ∃ asked owner, tree.At names asked ∧ r.follow e names = .ok owner ∧
        c.narrowEntry r owner asked = some entry := by
  induction at_ with
  | here member =>
    rintro e tree rfl known
    obtain ⟨asked, target, hmem, ht, hentry⟩ := mem_narrowTree known member
    exact ⟨asked, target, .here hmem, by rw [Registry.follow_cons ht, Registry.follow], hentry⟩
  | @deeper _ inner _ outer entry names member hinner lower ih =>
    rintro e tree rfl known
    obtain ⟨asked, target, hmem, ht, hentry⟩ := mem_narrowTree known member
    have requested : outer.isRequested = true := by
      cases outer with
      | nested _ _ _ => rfl
      | null => cases hinner
      | flag _ => cases hinner
    obtain ⟨-, -, -, -, hinc⟩ := narrowEntry_parts hentry requested
    rw [hinner] at hinc
    obtain ⟨below, hbelow, rfl⟩ := Option.map_eq_some_iff.mp hinc.symm
    obtain ⟨entryAsked, owner, hat, hfollow, hnarrow⟩ := ih rfl (known.includes hmem ht hbelow)
    exact ⟨entryAsked, owner, .deeper hmem hbelow hat,
      by rw [Registry.follow_cons ht, hfollow], hnarrow⟩

/-! ## Queries -/

/-- The query that comes out of narrowing, if one does. -/
def narrowed (c : Caller) (r : Registry) (e : Entity) (q : Descriptor) : Descriptor :=
  { q with
    filter := (c.rule e.name).overlay.apply (c.strip r e q.filter)
    orderBy := q.orderBy.bind (narrowOrder (c.rule e.name).restricted)
    include? := c.narrowInclude r e q.include? }

/-- A computation with a state succeeds only if its first step does. -/
theorem exists_of_run_bind {σ ε α β : Type} {x : ExceptT ε (StateM σ) α}
    {f : α → ExceptT ε (StateM σ) β} {before : σ} {b : β}
    (h : ((x >>= f).run before).1 = .ok b) :
    ∃ a after, x.run before = (.ok a, after) ∧ ((f a).run after).1 = .ok b := by
  rw [ExceptT.run_bind] at h
  generalize x.run = first at h ⊢
  change (StateT.bind first _ before).1 = _ at h
  rw [StateT.bind] at h
  cases hfirst : first before with
  | mk result after =>
    rw [hfirst] at h
    cases result with
    | ok a => exact ⟨a, after, rfl, h⟩
    | error fault => cases h

/-- Narrowing is a refusal, or the checks of the storage and then `narrowed`. -/
theorem narrow_eq {m : Type → Type} [Monad m] [LawfulMonad m] (s : Storage m) (q : Descriptor) :
    c.narrow r s e q =
      if (c.rule e.name).overlay.isDeny then throw (.forbidden c.role e.name)
      else
        c.checkParents r s (c.rule e.name).overlay (c.strip r e q.filter) >>= fun _ =>
          pure (c.narrowed r e q) := by
  apply ExceptT.ext
  cases hd : (c.rule e.name).overlay.isDeny with
  | true => simp [narrow, hd]
  | false => simp [narrow, hd, narrowed]

/-- A storage with a state of its own can refuse a query, and answer nothing but `narrowed`. -/
theorem eq_narrowed {σ : Type} {s : Storage (StateM σ)} {before : σ} {q answer : Descriptor}
    (h : ((c.narrow r s e q).run before).1 = .ok answer) :
    (c.rule e.name).overlay.isDeny = false ∧ answer = c.narrowed r e q := by
  rw [narrow_eq] at h
  cases hd : (c.rule e.name).overlay.isDeny with
  | true =>
    rw [if_pos hd] at h
    cases h
  | false =>
    rw [if_neg (by simp [hd])] at h
    obtain ⟨_, _, -, h⟩ := exists_of_run_bind h
    exact ⟨rfl, (Except.ok.inj h).symm⟩

/-- The parts of a valid query are valid. -/
theorem valid_query {q : Descriptor} (valid : r.accepts e q = true) :
    (∀ p, q.filter = some p → p.problems r e "where" = []) ∧
      (∀ k ∈ q.orderBy.getD [], k.problems e = []) ∧
      ∀ tree, q.include? = some tree → IncludeEntry.treeProblems r e "include" tree = [] := by
  rw [Registry.accepts, List.isEmpty_iff, Registry.problems, List.append_eq_nil_iff,
    List.append_eq_nil_iff, List.append_eq_nil_iff] at valid
  obtain ⟨⟨⟨hfilter, horder⟩, -⟩, hinc⟩ := valid
  refine ⟨fun p hp => ?_, fun k hk => List.flatMap_eq_nil_iff.mp horder k hk, fun tree ht => ?_⟩
  · rw [hp] at hfilter
    exact hfilter
  · rw [ht] at hinc
    exact hinc

/-- A valid sort key off the restricted paths does not sort by a hidden field. -/
theorem hides_leaf_eq_false {k : SortKey} (valid : k.problems e = [])
    (free : k.path ∉ (c.rule e.name).restricted) : c.hides e.name k.path.leaf = false := by
  obtain ⟨⟨segments⟩, direction⟩ := k
  rw [← Bool.not_eq_true, hides_iff]
  intro restricted
  match segments with
  | [] => exact (segments_of_restricted restricted).2 rfl
  | [name] => exact free restricted
  | first :: second :: rest => simp [SortKey.problems, Path.isNested] at valid

/-- **A query that leaves the narrowing is confined**: its filter is, no sort key is restricted, and
at every place of its includes a wanted relation leads to an entity that the caller may read, under a
confined filter and with the selection that was asked for. -/
theorem narrow_confines {σ : Type} (c : Caller) (r : Registry) (e : Entity)
    (s : Storage (StateM σ)) (before : σ) (q answer : Descriptor) (valid : r.accepts e q = true)
    (returned : ((c.narrow r s e q).run before).1 = .ok answer) :
    Confined c r e q.filter answer.filter ∧
      (∀ k ∈ answer.orderBy.getD [],
        k.path ∉ (c.rule e.name).restricted ∧ c.hides e.name k.path.leaf = false) ∧
      ∀ narrowed names entry, answer.include? = some narrowed → narrowed.At names entry →
        entry.isRequested = true →
          ∃ tree asked owner, q.include? = some tree ∧ tree.At names asked ∧
            asked.isRequested = true ∧ r.follow e names = .ok owner ∧
            (c.rule owner.name).overlay.isDeny = false ∧
            Confined c r owner asked.filter? entry.filter? ∧ entry.select? = asked.select? := by
  obtain ⟨visible, rfl⟩ := eq_narrowed returned
  obtain ⟨-, validKeys, validTree⟩ := valid_query valid
  refine ⟨confined_apply_strip q.filter visible, fun k hk => ?_, ?_⟩
  · cases horder : q.orderBy with
    | none =>
      rw [narrowed, horder] at hk
      cases hk
    | some keys =>
      rw [narrowed, horder] at hk
      obtain ⟨hmem, free⟩ := mem_narrowOrder hk
      rw [horder] at validKeys
      exact ⟨free, hides_leaf_eq_false (validKeys k hmem) free⟩
  · intro narrowedTree names entry htree at_ wanted
    cases hinc : q.include? with
    | none =>
      rw [narrowed, hinc] at htree
      cases htree
    | some tree =>
      rw [narrowed, hinc] at htree
      have known := IncludeEntry.known_of_valid (validTree tree hinc)
      obtain ⟨asked, owner, hat, hfollow, hnarrow⟩ :=
        place_narrowTree at_ (Option.some.inj htree).symm known
      obtain ⟨hasked, hvisible, hfilter, hselect, -⟩ := narrowEntry_parts hnarrow wanted
      refine ⟨tree, asked, owner, rfl, hat, hasked, hfollow, hvisible, ?_, hselect⟩
      rw [hfilter]
      exact confined_apply_strip asked.filter? hvisible

/-- A candidate who filters and sorts applications by their score, and asks for the other
applications to the same job and for its owner. -/
theorem narrow_confines_candidate :
    let c : Caller := ⟨⟨0x5eed⟩, .candidate⟩
    let q : Descriptor :=
      { filter := some (.or [.operator ⟨["score"]⟩ { gte := some (.int 3) },
          .equals ⟨["status"]⟩ (.text "NEW")])
        orderBy := some [⟨⟨["score"]⟩, .desc⟩, ⟨⟨["createdAt"]⟩, .asc⟩]
        include? := some [("job", .nested
          (some [("applications", .nested none none (some (.not (.equals ⟨["reviewNotes"]⟩ .null)))),
            ("owner", .flag true)]) none (some (.equals ⟨["status"]⟩ (.text "CLOSED"))))] }
    let s : Storage (StateM Nat) := Storage.failing
    let answer := c.narrowed .recruiting Registry.applications q
    Registry.recruiting.accepts Registry.applications q = true ∧
      ((c.narrow .recruiting s Registry.applications q).run 0).1 = .ok answer ∧
      Confined c .recruiting Registry.applications q.filter answer.filter ∧
      ∀ narrowed names entry, answer.include? = some narrowed → narrowed.At names entry →
        entry.isRequested = true →
          ∃ owner, Registry.recruiting.follow Registry.applications names = .ok owner ∧
            (c.rule owner.name).overlay.isDeny = false := by
  intro c q s answer
  have valid : Registry.recruiting.accepts Registry.applications q = true := by decide +kernel
  have returned : ((c.narrow .recruiting s Registry.applications q).run 0).1 = .ok answer := rfl
  obtain ⟨hfilter, -, hinc⟩ := narrow_confines c _ _ s 0 q answer valid returned
  refine ⟨valid, returned, hfilter, fun narrowed names entry htree at_ wanted => ?_⟩
  obtain ⟨_, _, owner, -, -, -, hfollow, hvisible, -⟩ := hinc narrowed names entry htree at_ wanted
  exact ⟨owner, hfollow, hvisible⟩

end Caller

end Roster
