import Roster.Proofs.Scope.Recruiting
import Roster.Service.Listing

/-!
# Nothing hidden shows in an answer

Two runs of the service are compared: one on the full tables, one on the tables that the caller may
see. `Alike` says that they end the same way, with one fault or with results that are related, and
each step of a list is shown to keep the runs alike: the checks of owners, the page, the records of
every include, and what is handed out in the end. In between the rows of the two runs differ by what
the caller may not read, so the relation on rows is that they have the same redaction.

The induction over includes is on the tree that was asked for, since that is what the schema has
checked; the tree that is loaded is its narrowing, built along the same recursion.
-/

namespace Roster

/-- Two computations end with the same fault, or with related results. -/
inductive Alike {ε α β : Type} (R : α → β → Prop) : Except ε α → Except ε β → Prop
  | ok {a : α} {b : β} : R a b → Alike R (.ok a) (.ok b)
  | error (fault : ε) : Alike R (.error fault) (.error fault)

namespace Alike

variable {ε ε' α α' β β' : Type} {R : α → β → Prop} {S : α' → β' → Prop}

theorem refl (x : Except ε α) : Alike Eq x x := by
  cases x with
  | ok a => exact .ok rfl
  | error fault => exact .error fault

/-- Computations stay alike when what follows keeps related results alike. -/
theorem bind {x : ExceptT ε Id α} {y : ExceptT ε Id β} {f : α → ExceptT ε Id α'}
    {g : β → ExceptT ε Id β'} (h : Alike R x.run y.run)
    (next : ∀ a b, R a b → Alike S (f a).run (g b).run) :
    Alike S (x >>= f).run (y >>= g).run := by
  rw [ExceptT.run_bind, ExceptT.run_bind]
  generalize x.run = a at h ⊢
  generalize y.run = b at h ⊢
  cases h with
  | ok related => exact next _ _ related
  | error fault => exact .error fault

theorem adapt {x : ExceptT ε Id α} {y : ExceptT ε Id β} (f : ε → ε')
    (h : Alike R x.run y.run) : Alike R (x.adapt f).run (y.adapt f).run := by
  change Alike R ((x.run : Except ε α).mapError f) ((y.run : Except ε β).mapError f)
  generalize x.run = a at h ⊢
  generalize y.run = b at h ⊢
  cases h with
  | ok related => exact .ok related
  | error fault => exact .error (f fault)

theorem eq {x y : ExceptT ε Id α} (h : Alike Eq x.run y.run) : x = y := by
  apply ExceptT.ext
  generalize x.run = a at h ⊢
  generalize y.run = b at h ⊢
  cases h with
  | ok related => rw [related]
  | error fault => rfl

end Alike

open Caller

variable {c : Caller} {r : Registry} {t : Tables} {e target : Entity}

/-! ## Checks of owners -/

/-- The condition that the owner of a parent is looked up with is legible. -/
theorem legible_owned {ownerField : String} {alternatives : List Predicate} (id : String)
    (overlay : (c.rule e.name).overlay = .anyOf alternatives)
    (owned : Predicate.equals ⟨[ownerField]⟩ c.asScalar ∈ alternatives)
    (identified : c.Reads r e ⟨["id"]⟩) (reads : c.Reads r e ⟨[ownerField]⟩) :
    Legible c r e
      (some (.and [.equals ⟨["id"]⟩ (.text id), .equals ⟨[ownerField]⟩ c.asScalar])) where
  within row h := by
    rw [accepts?, Option.all_some, Predicate.accepts_and] at h
    rw [overlay]
    exact ⟨_, owned, by simpa using (List.all_eq_true.mp h) _ (List.mem_cons_of_mem _ (.head _))⟩
  paths leaf hleaf path hpath := by
    right
    simp only [Predicate.leavesOf_some, Predicate.leaves, Predicate.leavesOfAll, List.append_nil,
      List.cons_append, List.nil_append, List.mem_cons, List.not_mem_nil, or_false] at hleaf
    rcases hleaf with rfl | rfl
    · exact List.mem_singleton.mp hpath ▸ identified
    · exact List.mem_singleton.mp hpath ▸ reads

theorem checkParents_visibleTo (sealed_ : Sealed c r) (objects : t.Objects)
    (registered : r.Registered e) (filter : Option Predicate) :
    c.checkParents (m := Id) r ((t.visibleTo r c).storage r) (c.rule e.name).overlay filter =
      c.checkParents r (t.storage r) (c.rule e.name).overlay filter := by
  unfold checkParents
  split
  · next foreignKey parent ownerField ownerPath owner hoverlay =>
    obtain ⟨entity, alternatives, hentity, spelled, overlay, owned, reads⟩ :=
      sealed_.parents registered hoverlay
    have registeredParent : r.Registered entity := ⟨_, hentity⟩
    simp only [hentity]
    generalize pinnedTexts filter foreignKey = ids
    have same : ∀ ids : List String,
        c.checkOwned (m := Id) ((t.visibleTo r c).storage r) entity ownerField ids =
          c.checkOwned (t.storage r) entity ownerField ids := by
      intro ids
      induction ids with
      | nil => rfl
      | cons id rest ih =>
        have legible := legible_owned id overlay owned (sealed_.identified registeredParent) reads
        have count : ((t.visibleTo r c).storage (m := Id) r).count entity _ =
            (t.storage r).count entity _ :=
          congrArg pure (Tables.count_visibleTo sealed_ objects registeredParent legible)
        have idPath : Path.ofText "id" = ⟨["id"]⟩ := by decide
        rw [checkOwned, checkOwned, spelled, idPath, count, ih]
    split
    · rfl
    · exact same _
  · rfl

theorem narrow_visibleTo (sealed_ : Sealed c r) (objects : t.Objects)
    (registered : r.Registered e) (q : Descriptor) :
    c.narrow (m := Id) r ((t.visibleTo r c).storage r) e q = c.narrow r (t.storage r) e q := by
  rw [narrow_eq, narrow_eq, checkParents_visibleTo sealed_ objects registered]

/-! ## Records of includes -/

theorem legible_narrowed (filter : Option Predicate) {place : String}
    (seen : (c.rule e.name).overlay.isDeny = false)
    (valid : ∀ p, filter = some p → p.problems r e place = []) :
    Legible c r e ((c.rule e.name).overlay.apply (c.strip r e filter)) := by
  refine .of_confined (confined_apply_strip filter seen) fun leaf hleaf path hpath => ?_
  cases filter with
  | none => cases hleaf
  | some p =>
    exact Predicate.resolves_of_valid p (valid p rfl) path
      ((Predicate.mem_paths_iff p).mpr ⟨leaf, hleaf, hpath⟩)

/-- Rows that look alike bring records that look alike. -/
theorem fetchChildren_alike (sealed_ : Sealed c r) (objects : t.Objects)
    (registered : r.Registered target) {l : Relation} (sees : SeesLink c e l target)
    (spelled : Path.ofText l.foreignField = ⟨[l.foreignField]⟩)
    (reads : c.Reads r target ⟨[l.foreignField]⟩) {filter : Option Predicate}
    (legible : Legible c r target filter) {rows rows' : List Json}
    (h : rows.map (c.redact r e) = rows'.map (c.redact r e)) :
    Alike (fun a b => a.map (c.redact r target) = b.map (c.redact r target))
      (Includes.fetchChildren (m := Id) (t.storage r) l target filter rows).run
      (Includes.fetchChildren (m := Id) ((t.visibleTo r c).storage r) l target filter
        rows').run := by
  have keys : Includes.keysOf l.localField rows = Includes.keysOf l.localField rows' := by
    rw [← keysOf_redact (r := r) sees.localColumn sees.localVisible rows, h,
      keysOf_redact sees.localColumn sees.localVisible]
  rw [Includes.fetchChildren, Includes.fetchChildren, keys]
  generalize Includes.keysOf l.localField rows' = keys
  cases keys with
  | nil => exact .ok rfl
  | cons key rest =>
    have legibleChild : Legible c r target
        (Includes.childQuery filter l.foreignField (key :: rest)).filter := by
      refine legible.mergeAnd List.mem_cons_self fun clause hclause => ?_
      rcases List.mem_cons.mp hclause with rfl | hclause
      · exact .inl rfl
      · right
        intro leaf hleaf path hpath
        rw [List.mem_singleton.mp hclause, spelled] at hleaf
        rw [List.mem_singleton.mp hleaf] at hpath
        exact List.mem_singleton.mp hpath ▸ reads
    have fetched := Tables.fetch_visibleTo sealed_ objects registered legibleChild nofun
    refine .ok ?_
    simp only [fetched, List.map_map]
    exact List.map_congr_left fun row _ => (redact_veil row).symm

/-- The relation of a name that leads to an entity. -/
theorem linkOf_eq {name : String} (h : r.target? e name = some target) :
    ∃ l, e.relation? name = some l ∧ l.name = name ∧ r.entity? l.target = some target ∧
      Includes.linkOf (m := Id) r e name = pure (l, target) := by
  obtain ⟨l, hl, ht⟩ := Option.bind_eq_some_iff.mp h
  refine ⟨l, hl, by simpa using List.find?_some hl, ht, ?_⟩
  simp only [Includes.linkOf, hl, ht]

/-- An entry made as short as its directives allow loads what the directives say. -/
theorem loadEntry_entryOf {s : Storage Id} {maxDepth depth : Nat} {name : String}
    {rows : List Json} (n : IncludeNode) :
    Includes.loadEntry s r maxDepth depth e name rows (entryOf n) =
      Includes.loadEntry s r maxDepth depth e name rows (.ofNode n) := by
  obtain ⟨inc, select, filter⟩ := n
  cases inc <;> cases select <;> cases filter <;> rfl

/-- The rows of two runs look alike to the caller. -/
abbrev SameSeen (c : Caller) (r : Registry) (e : Entity) (rows rows' : List Json) : Prop :=
  rows.map (c.redact r e) = rows'.map (c.redact r e)

section Load

variable (maxDepth depth : Nat)

/-- Directives with a legible filter bring records that look alike, if their own includes do. -/
theorem loadNode_alike (sealed_ : Sealed c r) (objects : t.Objects) (registered : r.Registered e)
    {name : String} (ht : r.target? e name = some target)
    (seen : (c.rule target.name).overlay.isDeny = false) {n : IncludeNode}
    (legible : Legible c r target n.filter)
    (inner : ∀ rows rows', SameSeen c r target rows rows' → Alike (SameSeen c r target)
      (Includes.loadNested (m := Id) (t.storage r) r maxDepth (depth + 1) target rows
        n.include?).run
      (Includes.loadNested (m := Id) ((t.visibleTo r c).storage r) r maxDepth (depth + 1) target
        rows' n.include?).run)
    {rows rows' : List Json} (h : SameSeen c r e rows rows') :
    Alike (SameSeen c r e)
      (Includes.loadEntry (m := Id) (t.storage r) r maxDepth depth e name rows (entryOf n)).run
      (Includes.loadEntry (m := Id) ((t.visibleTo r c).storage r) r maxDepth depth e name rows'
        (entryOf n)).run := by
  obtain ⟨l, hl, rfl, htarget, hlink⟩ := linkOf_eq ht
  have registeredTarget : r.Registered target := ⟨_, htarget⟩
  obtain ⟨sees, spelled, reads⟩ := sealed_.links registered hl htarget seen
  rw [loadEntry_entryOf, loadEntry_entryOf, IncludeEntry.ofNode, Includes.loadEntry,
    Includes.loadEntry, hlink, pure_bind, pure_bind]
  refine .bind (fetchChildren_alike sealed_ objects registeredTarget sees spelled reads legible h)
    fun children children' hchildren => ?_
  refine .bind (inner children children' hchildren) fun loaded loaded' hloaded => ?_
  exact .ok (distribute_congr sees ht hloaded h n.select n.include?)

mutual

/-- **A narrowed entry brings records that look alike into rows that look alike.** -/
theorem loadEntry_alike (sealed_ : Sealed c r) (objects : t.Objects) {e target : Entity}
    {name place : String} (depth : Nat) (registered : r.Registered e)
    (ht : r.target? e name = some target) :
    (asked : IncludeEntry) → asked.problems r target place = [] →
      ∀ {entry : IncludeEntry} {rows rows' : List Json},
        c.narrowEntry r target asked = some entry → SameSeen c r e rows rows' →
          Alike (SameSeen c r e)
            (Includes.loadEntry (m := Id) (t.storage r) r maxDepth depth e name rows entry).run
            (Includes.loadEntry (m := Id) ((t.visibleTo r c).storage r) r maxDepth depth e name
              rows' entry).run
  | .null, _, entry, rows, rows', hentry, h => by
    cases hentry
    exact .ok h
  | .flag false, _, entry, rows, rows', hentry, h => by
    cases hentry
    exact .ok h
  | .flag true, _, entry, rows, rows', hentry, h => by
    obtain ⟨seen, rfl⟩ := narrowEntry_eq_some hentry rfl
    have legible := @legible_narrowed c r target none place seen nofun
    exact loadNode_alike maxDepth depth sealed_ objects registered ht seen
      (n := { filter := (c.rule target.name).overlay.apply none }) legible
      (fun _ _ same => .ok same) h
  | .nested inc select filter, valid, entry, rows, rows', hentry, h => by
    obtain ⟨seen, rfl⟩ := narrowEntry_eq_some hentry rfl
    obtain ⟨validFilter, -, -⟩ := IncludeEntry.valid_parts valid
    rw [IncludeEntry.problems, List.append_eq_nil_iff] at valid
    exact loadNode_alike maxDepth depth sealed_ objects registered ht seen
      (legible_narrowed _ seen validFilter)
      (fun rows rows' same => loadNested_alike sealed_ objects (depth + 1)
        (Registry.registered_of_target? ht) inc valid.2 same) h

theorem loadNested_alike (sealed_ : Sealed c r) (objects : t.Objects) {e : Entity}
    {place : String} (depth : Nat) (registered : r.Registered e) :
    (asked : Option (List (String × IncludeEntry))) →
      IncludeEntry.includeProblems r e place asked = [] →
      ∀ {rows rows' : List Json}, SameSeen c r e rows rows' →
        Alike (SameSeen c r e)
          (Includes.loadNested (m := Id) (t.storage r) r maxDepth depth e rows
            (c.narrowInclude r e asked)).run
          (Includes.loadNested (m := Id) ((t.visibleTo r c).storage r) r maxDepth depth e rows'
            (c.narrowInclude r e asked)).run
  | none, _, rows, rows', h => .ok h
  | some asked, valid, rows, rows', h => by
    have empty : rows.isEmpty = rows'.isEmpty := by
      rw [← List.isEmpty_map, h, List.isEmpty_map]
    rw [narrowInclude, Includes.loadNested, Includes.loadNested, empty]
    split
    · exact .ok h
    · exact loadTree_alike sealed_ objects depth registered asked valid h

theorem loadTree_alike (sealed_ : Sealed c r) (objects : t.Objects) {e : Entity}
    {place : String} (depth : Nat) (registered : r.Registered e) :
    (asked : List (String × IncludeEntry)) → IncludeEntry.treeProblems r e place asked = [] →
      ∀ {rows rows' : List Json}, SameSeen c r e rows rows' →
        Alike (SameSeen c r e)
          (Includes.loadTree (m := Id) (t.storage r) r maxDepth depth e rows
            (c.narrowTree r e asked)).run
          (Includes.loadTree (m := Id) ((t.visibleTo r c).storage r) r maxDepth depth e rows'
            (c.narrowTree r e asked)).run
  | [], _, rows, rows', h => .ok h
  | (name, asked) :: rest, valid, rows, rows', h => by
    obtain ⟨target, ht, validEntry⟩ := IncludeEntry.valid_of_mem valid List.mem_cons_self
    rw [IncludeEntry.treeProblems, List.append_eq_nil_iff] at valid
    rw [narrowTree, ht]
    dsimp only
    cases hentry : c.narrowEntry r target asked with
    | none => exact loadTree_alike sealed_ objects depth registered rest valid.2 h
    | some entry =>
      dsimp only
      rw [Includes.loadTree, Includes.loadTree]
      exact .bind (loadEntry_alike sealed_ objects depth registered ht asked validEntry hentry h)
        fun loaded loaded' same => loadTree_alike sealed_ objects depth registered rest valid.2 same

end

end Load

/-! ## Resolved queries -/

/-- A query that was resolved: it can be run on either tables, and what it includes is the narrowing
of a valid tree. -/
structure Resolved (c : Caller) (r : Registry) (e : Entity) (q : Descriptor) : Prop where
  registered : r.Registered e
  legible : Legible c r e q.filter
  visible : ∀ k ∈ q.orderBy.getD [], c.hides e.name k.path.leaf = false
  includes : ∃ asked, q.include? = c.narrowInclude r e asked ∧
    IncludeEntry.includeProblems r e "include" asked = []

theorem resolved_of_valid {limits : Limits} {q : Descriptor} (registered : r.Registered e)
    (seen : (c.rule e.name).overlay.isDeny = false) (valid : r.problems e q = []) :
    Resolved c r e (c.narrowed r e (limits.bound q)) := by
  have accepted : r.accepts e q = true := by rw [Registry.accepts, valid]; rfl
  obtain ⟨validFilter, validKeys, -⟩ := valid_query accepted
  refine ⟨registered, legible_narrowed _ seen validFilter, fun k hk => ?_, ?_⟩
  · cases horder : q.orderBy with
    | none =>
      have hk : k ∈ (q.orderBy.bind (narrowOrder (c.rule e.name).restricted)).getD [] := hk
      rw [horder] at hk
      cases hk
    | some keys =>
      have hk : k ∈ (q.orderBy.bind (narrowOrder (c.rule e.name).restricted)).getD [] := hk
      rw [horder] at hk
      rw [horder] at validKeys
      obtain ⟨member, free⟩ := mem_narrowOrder hk
      exact hides_leaf_eq_false (validKeys k member) free
  · refine ⟨q.include?.map (IncludeTree.sanitize · limits.maxIncludeDepth), rfl, ?_⟩
    rw [Registry.problems, List.append_eq_nil_iff] at valid
    cases hinc : q.include? with
    | none => rfl
    | some tree =>
      rw [hinc] at valid
      exact IncludeEntry.problems_truncateTree e "include" limits.maxIncludeDepth tree valid.2

namespace Service

variable {limits : Limits}

theorem resolve_alike (sealed_ : Sealed c r) (objects : t.Objects) (entity : String)
    (q : Descriptor) :
    Alike (fun a b => a = b ∧ Resolved c r a.1 a.2)
      (resolve (m := Id) ⟨r, t.storage r, limits⟩ entity c q).run
      (resolve (m := Id) ⟨r, (t.visibleTo r c).storage r, limits⟩ entity c q).run := by
  have screened : Alike (fun a b : Entity × Descriptor => a = b ∧ r.Registered a.1 ∧
        r.problems a.1 q = [] ∧ a.2 = limits.bound q)
      (screen (m := Id) ⟨r, t.storage r, limits⟩ entity q)
      (screen (m := Id) ⟨r, (t.visibleTo r c).storage r, limits⟩ entity q) := by
    unfold screen
    dsimp only
    split
    · exact .error _
    · next e he =>
      have registered : r.Registered e := ⟨entity, (Option.filter_eq_some_iff.mp he).1⟩
      split
      · next valid => exact .ok ⟨rfl, registered, valid, rfl⟩
      · exact .error _
  refine .bind (x := ExceptT.mk (pure _)) screened ?_
  rintro ⟨e, bounded⟩ _ ⟨rfl, registered, valid, rfl⟩
  have narrowed : Alike (fun a b => a = b ∧ Resolved c r e a)
      (c.narrow (m := Id) r (t.storage r) e (limits.bound q)).run
      (c.narrow (m := Id) r ((t.visibleTo r c).storage r) e (limits.bound q)).run := by
    rw [narrow_visibleTo sealed_ objects registered, narrow_eq]
    cases hd : (c.rule e.name).overlay.isDeny with
    | true => exact .error _
    | false =>
      exact .bind (.refl _) fun _ _ _ => .ok ⟨rfl, resolved_of_valid registered hd valid⟩
  refine .bind (narrowed.adapt ListFault.scope) ?_
  rintro narrowed _ ⟨rfl, resolved⟩
  exact .ok ⟨rfl, resolved⟩

theorem loadRows_alike (sealed_ : Sealed c r) (objects : t.Objects) {q : Descriptor}
    (resolved : Resolved c r e q) {rows rows' : List Json} (h : SameSeen c r e rows rows') :
    Alike (SameSeen c r e)
      (loadRows (m := Id) ⟨r, t.storage r, limits⟩ e q.include? rows).run
      (loadRows (m := Id) ⟨r, (t.visibleTo r c).storage r, limits⟩ e q.include? rows').run := by
  obtain ⟨asked, hinc, valid⟩ := resolved.includes
  have empty : rows.isEmpty = rows'.isEmpty := by
    rw [← List.isEmpty_map, h, List.isEmpty_map]
  cases asked with
  | none =>
    rw [hinc]
    exact .ok h
  | some tree =>
    rw [hinc, narrowInclude, loadRows, loadRows, empty]
    split
    · exact .ok h
    · exact (loadTree_alike limits.maxIncludeDepth sealed_ objects 0 resolved.registered tree valid
        h).adapt _

theorem list_alike (sealed_ : Sealed c r) (objects : t.Objects) (entity : String) (q : Descriptor) :
    Alike Eq (list (m := Id) ⟨r, t.storage r, limits⟩ entity c q).run
      (list (m := Id) ⟨r, (t.visibleTo r c).storage r, limits⟩ entity c q).run := by
  refine .bind (resolve_alike sealed_ objects entity q) ?_
  rintro ⟨e, q⟩ _ ⟨rfl, resolved⟩
  have fetched := Tables.fetch_visibleTo sealed_ objects resolved.registered resolved.legible
    resolved.visible
  refine .bind (R := fun a b => b = ⟨a.rows.map (c.veil e), a.total⟩) (.ok fetched) ?_
  rintro found _ rfl
  have alike : SameSeen c r e found.rows (found.rows.map (c.veil e)) := by
    rw [SameSeen, List.map_map]
    exact List.map_congr_left fun row _ => (redact_veil row).symm
  refine .bind (loadRows_alike sealed_ objects resolved alike) fun rows rows' same => .ok ?_
  have data : ∀ rows : List Json,
      (rows.map fun row => c.redact r e (project row q.select q.include?)) =
      (rows.map (c.redact r e)).map (project · q.select q.include?) := by
    intro rows
    rw [List.map_map]
    exact List.map_congr_left fun row _ => redact_project row q.select q.include?
  dsimp only
  rw [data, data, same]

theorem get_alike (sealed_ : Sealed c r) (objects : t.Objects) (entity : String) (id : Uuid) :
    Alike Eq (get (m := Id) ⟨r, t.storage r, limits⟩ entity c id).run
      (get (m := Id) ⟨r, (t.visibleTo r c).storage r, limits⟩ entity c id).run := by
  refine .bind (resolve_alike sealed_ objects entity {}) ?_
  rintro ⟨e, q⟩ _ ⟨rfl, resolved⟩
  have legible : Legible c r e
      (Predicate.mergeAnd [some (.equals (Path.ofText "id") (.text id.text)), q.filter]) := by
    refine resolved.legible.mergeAnd (by simp) fun clause hclause => ?_
    rcases List.mem_cons.mp hclause with rfl | hclause
    · right
      intro leaf hleaf path hpath
      rw [List.mem_singleton.mp hleaf] at hpath
      have idPath : Path.ofText "id" = ⟨["id"]⟩ := by decide
      rw [List.mem_singleton.mp hpath, idPath]
      exact sealed_.identified resolved.registered
    · exact .inl (List.mem_singleton.mp hclause)
  have fetched := Tables.fetch_visibleTo sealed_ objects resolved.registered (q := {
    filter := Predicate.mergeAnd [some (.equals (Path.ofText "id") (.text id.text)), q.filter]
    skip := some 0
    take := some 1 }) legible nofun
  refine .bind (R := fun a b => b = ⟨a.rows.map (c.veil e), a.total⟩) (.ok fetched) ?_
  rintro ⟨rows, total⟩ _ rfl
  cases rows with
  | nil => exact .error _
  | cons row rest => exact .ok (redact_veil row).symm

/-- **Nothing that is hidden from a caller shows in an answer.** On the office's schema, every list
and every look-up of a record is answered the same on the full tables as on the tables that the caller
may see: the same fault, or the same rows, the same count and the same query. -/
theorem answers_visibleTo (c : Caller) (t : Tables) (objects : t.Objects) (limits : Limits) :
    let full : Service Id := ⟨.recruiting, t.storage .recruiting, limits⟩
    let visible : Service Id :=
      ⟨.recruiting, (t.visibleTo .recruiting c).storage .recruiting, limits⟩
    (∀ entity q, full.list entity c q = visible.list entity c q) ∧
      ∀ entity id, full.get entity c id = visible.get entity c id :=
  ⟨fun entity q => (list_alike (sealed_recruiting c) objects entity q).eq,
    fun entity id => (get_alike (sealed_recruiting c) objects entity id).eq⟩

/-- A candidate who looks for jobs by their owner, among an open and a closed one: the answers are
those of the one open job without its owner. -/
theorem answers_visibleTo_candidate :
    let c : Caller := ⟨⟨0x5eed⟩, .candidate⟩
    let vacant := Json.obj [("id", .str "1"), ("status", .str "OPEN"), ("ownerId", .str "9")]
    let closed := Json.obj [("id", .str "2"), ("status", .str "CLOSED"), ("ownerId", .str "9")]
    let t : Tables := ⟨[("jobs", [vacant, closed])]⟩
    let shown : Tables := ⟨[("jobs", [.obj [("id", .str "1"), ("status", .str "OPEN")]])]⟩
    let q : Descriptor := { filter := some (.or [.equals ⟨["ownerId"]⟩ (.text "9"),
      .equals ⟨["status"]⟩ (.text "CLOSED")]) }
    t.Objects ∧ t.visibleTo .recruiting c = shown ∧
      list (m := Id) ⟨.recruiting, t.storage .recruiting, {}⟩ "jobs" c q =
        list ⟨.recruiting, shown.storage .recruiting, {}⟩ "jobs" c q := by
  intro c vacant closed t shown q
  have objects : t.Objects := by decide
  have visible : t.visibleTo .recruiting c = shown := rfl
  exact ⟨objects, visible, visible ▸ (answers_visibleTo c t objects {}).1 "jobs" q⟩

end Service

end Roster
