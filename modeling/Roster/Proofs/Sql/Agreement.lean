import Roster.Proofs.Schema.Recruiting
import Roster.Proofs.Sql.Mirror

/-!
# Tables and databases keep the same rows

A filter is evaluated on rows that carry related rows, and compiled to a condition with an `EXISTS`
for every relation on a path. Over a database that mirrors the tables the two keep the same rows
(`Tables.matching_eq_selected`).

The condition is built once, before any row is looked at, so every step states what it means for all
names that stand for records: where the record under the name of a row mirrors the row, the
condition has the value of the predicate. A hop gives a new name to the related row, one above all
names in use, so the outer row keeps its record. Behind a hop both sides ask whether some related
row passes and are two-valued; in front of it they are three-valued.
-/

namespace Roster

/-! ## What is compared exactly -/

namespace Predicate

/-- A leaf whose filter does not ignore case and whose operands are compared as they are written. -/
def isPlain : Predicate → Bool
  | .equals _ value => value.isExact
  | .operator _ filter =>
    !filter.ignoreCase && filter.comparisons.all fun c => c.operands.all Scalar.isExact
  | _ => true

end Predicate

/-! ## Values behind a path -/

/-- The value of a test of the values that segments lead to, as a leaf makes it. -/
def Truth.behind (segments : List String) (test : Json → Truth) (values : List Json) : Truth :=
  if 1 < segments.length then .ofBool (values.any fun v => (test v).holds)
  else .any (values.map test)

theorem leafTruth_eq_behind (row : Json) (path : Path) (test : Json → Truth) :
    leafTruth row path test = .behind path.segments test (path.valuesIn row) := by
  simp only [leafTruth, Truth.behind, Path.isNested, decide_eq_true_eq]

namespace Truth

variable (test : Json → Truth)

theorem behind_field (name : String) (v : Json) : behind [name] test [v] = test v := by
  simp [behind]

theorem behind_hop (hop next : String) (rest : List String) (values : List Json) :
    behind (hop :: next :: rest) test values = .ofBool (values.any fun v => (test v).holds) := by
  simp [behind]

theorem holds_behind (segments : List String) (values : List Json) :
    (behind segments test values).holds = values.any fun v => (test v).holds := by
  rw [behind]
  split
  · rw [holds_ofBool]
  · rw [holds_any, List.any_map]
    rfl

end Truth

theorem FieldKind.flatten_of_stores {kind : FieldKind} {v : Json} (h : kind.stores v = true) :
    v.flatten = [v] := by
  cases v with
  | arr items => cases kind <;> cases h
  | _ => rfl

namespace Sql

variable {r : Registry} {t : Tables} {db : Database} {e : Entity}

/-! ## Names -/

/-- The name is in use when `used` related rows have their numbers. -/
def Alias.Within (used : Nat) : Alias → Prop
  | .main => True
  | .related number => number ≤ used

theorem Alias.Within.ne_next {used : Nat} {name : Alias} (within : name.Within used) :
    name ≠ .related (used + 1) := by
  rintro rfl
  exact Nat.not_succ_le_self used within

@[simp] theorem bind_self (env : Alias → Record) (name : Alias) (record : Record) :
    bind env name record name = record := if_pos rfl

theorem bind_of_ne (env : Alias → Record) {name other : Alias} (h : other ≠ name)
    (record : Record) : bind env name record other = env other := if_neg h

/-- A column is found under the field that it keeps. -/
theorem columnOf_eq {e : Entity} {field : String} {f : Field} (h : e.field? field = some f)
    (row : Alias) : columnOf e row field = .ok ⟨row, f.column⟩ := by
  rw [columnOf, h]

/-! ## Lists side by side -/

theorem any_congr_of_forall₂ {α β : Type} {R : α → β → Prop} {as : List α} {bs : List β}
    {p : α → Bool} {q : β → Bool} (h : List.Forall₂ R as bs)
    (same : ∀ a ∈ as, ∀ b, R a b → q b = p a) : bs.any q = as.any p := by
  induction h with
  | nil => rfl
  | cons hab _ ih =>
    rw [List.any_cons, List.any_cons, same _ List.mem_cons_self _ hab,
      ih fun a ha => same a (List.mem_cons_of_mem _ ha)]

theorem filter_eq_of_forall₂ {α β : Type} {R : α → β → Prop} {as : List α} {bs : List β}
    {p : α → Bool} {q : β → Bool} (h : List.Forall₂ R as bs)
    (same : ∀ a ∈ as, ∀ b, R a b → q b = p a) :
    as.filter p = ((as.zip bs).filter fun pair => q pair.2).map Prod.fst := by
  induction h with
  | nil => rfl
  | @cons a b as bs hab _ ih =>
    have rest := ih fun a ha => same a (List.mem_cons_of_mem _ ha)
    rw [List.zip_cons_cons, List.filter_cons, List.filter_cons, same a List.mem_cons_self b hab]
    split
    · rw [List.map_cons, rest]
    · exact rest

/-! ## Paths -/

/-- The condition of a path that starts with a hop. -/
theorem ofPath_hop {test : Column → Condition} {target : Entity} {l : Relation} {f g : Field}
    {hop next : String} {rest : List String} {row : Alias} {used : Nat} {inner : Condition}
    (hl : e.relation? hop = some l) (ht : r.entity? l.target = some target)
    (hf : e.field? l.localField = some f) (hg : target.field? l.foreignField = some g)
    (hinner : ofPath r test target (.related (used + 1)) (used + 1) (next :: rest) = .ok inner) :
    ofPath r test e row used (hop :: next :: rest) =
      .ok (.exists target.table ⟨.related (used + 1), g.column⟩ ⟨row, f.column⟩ inner) := by
  simp only [ofPath, hl, ht, columnOf_eq hf, columnOf_eq hg, hinner]
  rfl

/-- **One hop**: an `EXISTS` asks whether some related row makes the inner condition true. The row
that is related gets a name above those in use, so the condition still finds the outer row. -/
theorem truth_exists (typed : t.Typed r) (mirrors : db.Mirrors r t) (registered : r.Registered e)
    {l : Relation} (member : l ∈ e.relations) {target : Entity}
    (ht : r.entity? l.target = some target) {f g : Field} (hf : e.field? l.localField = some f)
    (hg : target.field? l.foreignField = some g) {name : Alias} {used : Nat}
    (within : name.Within used) {env : Alias → Record} {row : Json} (hrow : row ∈ t.of e.name)
    (same : e.Mirrors row (env name)) {inner : Condition} {passes : Json → Truth}
    (meaning : ∀ child ∈ t.of target.name, ∀ record, target.Mirrors child record →
      inner.truth db (bind env (.related (used + 1)) record) = passes child) :
    (Condition.exists target.table ⟨.related (used + 1), g.column⟩ ⟨name, f.column⟩ inner).truth db
      env = .ofBool ((t.linked l target row).any fun child => (passes child).holds) := by
  rw [Condition.truth, Tables.linked, related, List.any_filter]
  refine congrArg Truth.ofBool (any_congr_of_forall₂ (mirrors ⟨l.target, ht⟩) ?_)
  intro child hchild record hrecord
  have outer : bind env (.related (used + 1)) record name = env name :=
    bind_of_ne env within.ne_next record
  rw [Truth.holds_and, bind_self, outer, meaning child hchild record hrecord,
    Entity.mirrors_field hrecord hg, Entity.mirrors_field same hf,
    Cell.holds_equals_ofJson (typed.localKeys registered l member row hrow)
      (typed.foreignKeys registered l member target ht child hchild)]

/-- **A path has one value in tables and in a database**, if the test at its end has. -/
theorem truth_ofPath (linked : r.Linked) (typed : t.Typed r) (mirrors : db.Mirrors r t)
    {field : Field} {test : Column → Condition} {passes : Json → Truth}
    (means : ∀ {env column v}, field.kind.stores v = true → env column.row column.name = .ofJson v →
      (test column).truth db env = passes v) (segments : List String) :
    ∀ {e owner : Entity} (name : Alias) (used : Nat), r.Registered e → name.Within used →
      segments ≠ [] → r.follow e segments.dropLast = .ok owner →
        owner.field? (segments.getLastD "") = some field →
          ∃ c, ofPath r test e name used segments = .ok c ∧
            ∀ env, ∀ row ∈ t.of e.name, e.Mirrors row (env name) →
              c.truth db env = .behind segments passes (t.reach r e segments row) := by
  -- every hop starts from another name, so the induction is over all names and numbers in use
  induction segments with
  | nil => exact fun _ _ _ _ h => absurd rfl h
  | cons hop rest ih =>
    intro e owner name used registered within _ hfollow hfield
    cases rest with
    | nil =>
      obtain rfl : e = owner := Except.ok.inj hfollow
      have hfield : e.field? hop = some field := hfield
      refine ⟨test ⟨name, field.column⟩, by rw [ofPath, columnOf_eq hfield]; rfl, ?_⟩
      intro env row hrow same
      have reads := Entity.mirrors_field same hfield
      have stored : field.kind.stores (row.field hop) = true := by
        obtain ⟨member, rfl⟩ := Entity.field?_eq_some hfield
        exact typed.stores registered row hrow field member
      rw [means stored reads, Tables.reach, FieldKind.flatten_of_stores stored, Truth.behind_field]
    | cons next others =>
      rw [List.dropLast_cons_of_ne_nil (List.cons_ne_nil _ _)] at hfollow
      obtain ⟨target, htarget, hfollow⟩ := Registry.follow_of_cons hfollow
      obtain ⟨l, f, g, hl, member, ht, hf, hg⟩ := linked.hop registered htarget
      obtain ⟨inner, hinner, meaning⟩ := ih (.related (used + 1)) (used + 1)
        ⟨l.target, ht⟩ (Nat.le_refl _) (List.cons_ne_nil _ _) hfollow hfield
      refine ⟨_, ofPath_hop hl ht hf hg hinner, ?_⟩
      intro env row hrow same
      rw [truth_exists typed mirrors registered member ht hf hg within hrow same
          fun child hchild record hrecord => meaning _ child hchild (by rwa [bind_self]),
        Truth.behind_hop, Tables.reach, hl]
      simp only [ht]
      rw [typed.picked_linked registered member ht, List.any_flatMap]
      simp only [Truth.holds_behind]

/-! ## Predicates -/

/-- A leaf, on a copy of the row that carries what its path reaches. -/
theorem truth_ofLeaf (linked : r.Linked) (typed : t.Typed r) (mirrors : db.Mirrors r t)
    (registered : r.Registered e) {path : Path} {owner : Entity} {field : Field}
    {test : Column → Condition} {passes : Json → Truth} (h : r.resolve e path = .ok (owner, field))
    (means : ∀ {env column v}, field.kind.stores v = true → env column.row column.name = .ofJson v →
      (test column).truth db env = passes v) (used : Nat) :
    ∃ c, ofPath r test e .main used path.segments = .ok c ∧
      ∀ env, ∀ row ∈ t.of e.name, e.Mirrors row (env .main) →
        ∀ full, path.valuesIn full = t.reach r e path.segments row →
          c.truth db env = leafTruth full path passes := by
  obtain ⟨nonempty, hfollow, hfield⟩ := Registry.follow_of_resolve h
  obtain ⟨c, hc, meaning⟩ := truth_ofPath linked typed mirrors means path.segments .main used
    registered trivial nonempty hfollow hfield
  refine ⟨c, hc, fun env row hrow same full carries => ?_⟩
  rw [meaning env row hrow same, leafTruth_eq_behind, carries]

mutual

/-- **The condition of a valid predicate has the value of the predicate.** -/
theorem truth_ofPredicate (linked : r.Linked) (typed : t.Typed r) (mirrors : db.Mirrors r t)
    (registered : r.Registered e) {place : String} : (p : Predicate) → p.problems r e place = [] →
      p.leaves.all Predicate.isPlain = true → (used : Nat) →
        ∃ c, ofPredicate r e .main used p = .ok c ∧
          ∀ env, ∀ row ∈ t.of e.name, e.Mirrors row (env .main) →
            ∀ full, (∀ path ∈ p.paths, path.valuesIn full = t.reach r e path.segments row) →
              c.truth db env = p.truth full
  | .equals path value, valid, plain, used => by
    have precise : value.isExact = true := by
      simpa [Predicate.leaves, Predicate.isPlain] using plain
    rw [Predicate.problems] at valid
    split at valid
    · next owner field h =>
      have admits : field.kind.admitsNullable value = true := by
        by_contra other
        simp [other] at valid
      obtain ⟨c, hc, meaning⟩ := truth_ofLeaf linked typed mirrors registered h
        (fun stored reads => truth_holds reads stored admits precise) used
      refine ⟨c, by rw [ofPredicate, hc], fun env row hrow same full carries => ?_⟩
      exact meaning env row hrow same full (carries path (List.mem_singleton_self _))
    · cases valid
  | .operator path filter, valid, plain, used => by
    obtain ⟨sensitive, precise⟩ : filter.ignoreCase = false ∧
        ∀ c ∈ filter.comparisons, ∀ s ∈ c.operands, s.isExact = true := by
      simpa [Predicate.leaves, Predicate.isPlain] using plain
    rw [Predicate.problems] at valid
    split at valid
    · next owner field h =>
      have admitted := Filter.admitted_of_valid valid
      obtain ⟨c, hc, meaning⟩ := truth_ofLeaf linked typed mirrors registered h
        (fun stored reads => truth_ofFilter reads stored sensitive admitted precise) used
      refine ⟨c, by rw [ofPredicate, hc], fun env row hrow same full carries => ?_⟩
      exact meaning env row hrow same full (carries path (List.mem_singleton_self _))
    · cases valid
  | .and children, valid, plain, used => by
    obtain ⟨cs, hcs, meaning⟩ :=
      truths_ofPredicates linked typed mirrors registered children valid plain used
    refine ⟨.all cs, by rw [ofPredicate, hcs]; rfl, fun env row hrow same full carries => ?_⟩
    rw [Condition.truth_all, meaning env row hrow same full carries, Predicate.truth]
  | .or children, valid, plain, used => by
    obtain ⟨cs, hcs, meaning⟩ :=
      truths_ofPredicates linked typed mirrors registered children valid plain used
    refine ⟨.any cs, by rw [ofPredicate, hcs]; rfl, fun env row hrow same full carries => ?_⟩
    rw [Condition.truth_any, meaning env row hrow same full carries, Predicate.truth]
  | .not inner, valid, plain, used => by
    obtain ⟨c, hc, meaning⟩ :=
      truth_ofPredicate linked typed mirrors registered inner valid plain used
    refine ⟨.not c, by rw [ofPredicate, hc]; rfl, fun env row hrow same full carries => ?_⟩
    rw [Condition.truth, meaning env row hrow same full carries, Predicate.truth]

theorem truths_ofPredicates (linked : r.Linked) (typed : t.Typed r) (mirrors : db.Mirrors r t)
    (registered : r.Registered e) {place : String} : (ps : List Predicate) →
      Predicate.problemsOfAll r e place ps = [] →
        (Predicate.leavesOfAll ps).all Predicate.isPlain = true → (used : Nat) →
        ∃ cs, ofPredicates r e .main used ps = .ok cs ∧
          ∀ env, ∀ row ∈ t.of e.name, e.Mirrors row (env .main) →
            ∀ full, (∀ path ∈ Predicate.pathsOfAll ps,
                path.valuesIn full = t.reach r e path.segments row) →
              cs.map (Condition.truth db env) = Predicate.truths full ps
  | [], _, _, _ => ⟨[], rfl, fun _ _ _ _ _ _ => rfl⟩
  | p :: rest, valid, plain, used => by
    rw [Predicate.problemsOfAll, List.append_eq_nil_iff] at valid
    rw [Predicate.leavesOfAll, List.all_append, Bool.and_eq_true] at plain
    obtain ⟨c, hc, first⟩ :=
      truth_ofPredicate linked typed mirrors registered p valid.1 plain.1 used
    obtain ⟨cs, hcs, others⟩ :=
      truths_ofPredicates linked typed mirrors registered rest valid.2 plain.2 (used + hops p)
    refine ⟨c :: cs, by rw [ofPredicates, hc, hcs]; rfl, fun env row hrow same full carries => ?_⟩
    rw [List.map_cons, Predicate.truths,
      first env row hrow same full fun path hp => carries path (List.mem_append_left _ hp),
      others env row hrow same full fun path hp => carries path (List.mem_append_right _ hp)]

end

end Sql

/-! ## Filters -/

/-- **The condition of a valid filter selects the rows that the filter keeps.** The records of the
entity's table stand beside its rows, one by one; those rows are kept whose records make the
condition true. -/
theorem Tables.matching_eq_selected {r : Registry} {t : Tables} {db : Sql.Database} {e : Entity}
    {q : Descriptor} (linked : r.Linked) (typed : t.Typed r) (mirrors : db.Mirrors r t)
    (registered : r.Registered e) (valid : r.accepts e q = true)
    (plain : ∀ p ∈ q.filter, p.leaves.all Predicate.isPlain = true) :
    ∃ condition, Sql.whereOf r e q.filter = .ok condition ∧
      t.matching r e q.filter = (((t.of e.name).zip (db e.table)).filter fun pair =>
        condition.all (·.selects db pair.2)).map Prod.fst := by
  have everything : t.of e.name = (((t.of e.name).zip (db e.table)).filter fun pair =>
      (none : Option Sql.Condition).all (·.selects db pair.2)).map Prod.fst := by
    have all := Sql.filter_eq_of_forall₂ (p := fun _ => true) (q := fun _ => true)
      (mirrors registered) fun _ _ _ _ => rfl
    rwa [List.filter_true] at all
  cases hq : q.filter with
  | none => exact ⟨none, rfl, everything⟩
  | some p =>
    rw [Sql.whereOf, Tables.matching]
    cases empty : p.isEmpty with
    | true => exact ⟨none, rfl, everything⟩
    | false =>
      have valid : p.problems r e "where" = [] := by
        rw [Registry.accepts, List.isEmpty_iff, Registry.problems, hq] at valid
        simp only [List.append_eq_nil_iff] at valid
        exact valid.1.1.1
      obtain ⟨c, hc, meaning⟩ := Sql.truth_ofPredicate linked typed mirrors registered p valid
        (plain p hq) 0
      refine ⟨some c, by rw [if_neg Bool.false_ne_true, hc]; rfl, ?_⟩
      rw [if_neg Bool.false_ne_true]
      refine Sql.filter_eq_of_forall₂ (q := c.selects db) (mirrors registered)
        fun row hrow record same => ?_
      refine congrArg Truth.holds (meaning (fun _ => record) row hrow same _ fun path hp => ?_)
      obtain ⟨owner, field, h⟩ := Predicate.resolves_of_valid p valid path hp
      have owned := (Registry.follow_of_resolve h).2.1
      exact valuesIn_embed (typed.objects.of hrow) (Hops.tidy_ofPredicate p)
        (Hops.covers_ofPredicate hp) h
        (linked.apart (Registry.registered_of_follow _ registered owned))

/-- Three applications. The one that is kept has no score, which is not the score that is excluded,
and its job has no owner, so none with the excluded character in the name. -/
theorem Tables.matching_eq_selected_unscored :
    let t : Tables := ⟨[
      ("applications", [
        .obj [("id", .str "1"), ("jobId", .str "4"), ("score", .ofInt 4)],
        .obj [("id", .str "2"), ("jobId", .str "4")],
        .obj [("id", .str "3"), ("jobId", .str "5"), ("score", .null)]]),
      ("jobs", [
        .obj [("id", .str "4"), ("ownerId", .null)],
        .obj [("id", .str "5"), ("ownerId", .str "6")]]),
      ("users", [.obj [("id", .str "6"), ("name", .str "50% Ann")]])]⟩
    let db := t.database .recruiting
    let q : Descriptor := { filter := some (.and [
      .operator ⟨["score"]⟩ { differs := some (.int 4) },
      .not (.operator ⟨["job", "owner", "name"]⟩ { contains := some "%" })]) }
    let e := Registry.applications
    ∃ condition, Sql.whereOf .recruiting e q.filter = .ok condition ∧
      ((((t.of e.name).zip (db e.table)).filter fun pair =>
        condition.all (·.selects db pair.2)).map Prod.fst).map (·.keyIn? "id") = [some "2"] := by
  intro t db q e
  have typed : t.Typed .recruiting := {
    objects := by decide
    stores := fun registered => by
      rcases Registry.eq_of_registered registered with rfl | rfl | rfl | rfl <;> decide
    localKeys := fun registered => by
      rcases Registry.eq_of_registered registered with rfl | rfl | rfl | rfl <;> decide
    foreignKeys := fun registered => by
      rcases Registry.eq_of_registered registered with rfl | rfl | rfl | rfl <;> decide
    unique := fun registered => by
      rcases Registry.eq_of_registered registered with rfl | rfl | rfl | rfl <;> decide }
  have unshared : Registry.recruiting.Unshared := ⟨by decide, by decide⟩
  obtain ⟨condition, compiled, selected⟩ := matching_eq_selected (e := e) (q := q)
    Registry.linked_recruiting typed (t.mirrors_database unshared) ⟨"applications", rfl⟩ (by decide)
    (by decide)
  have kept : (t.matching .recruiting e q.filter).map (·.keyIn? "id") = [some "2"] := by
    decide +kernel
  exact ⟨condition, compiled, by rw [← selected, kept]⟩

end Roster
