import Roster.Proofs.Query.IncludePath
import Roster.Proofs.Store.Reach
import Roster.Store.Includes

/-!
# Include trees that bring the same records

Two include trees resemble each other if they are the same but for their filters, and the filters
of every place accept the same rows. Then they bring the same records (`loadTree_congr`), and so
rows with their records look the same in every projection (`project_congr`).
-/

namespace Roster

open Includes

/-- Filters that lead to fields and accept the same rows. -/
structure SameMatches (r : Registry) (e : Entity) (filter other : Option Predicate) : Prop where
  resolves : ∀ p ∈ filter, Tables.Resolves r e p
  otherResolves : ∀ p ∈ other, Tables.Resolves r e p
  accepts : ∀ row, accepts? filter row = accepts? other row

namespace IncludeEntry

mutual

/-- The entries ask for the same records of an entity. -/
def Resembles (r : Registry) (target : Entity) : IncludeEntry → IncludeEntry → Prop
  | .null, .null => True
  | .flag wanted, .flag wanted' => wanted = wanted'
  | .nested inc select filter, .nested inc' select' filter' =>
    IncludeResembles r target inc inc' ∧ select = select' ∧ SameMatches r target filter filter'
  | _, _ => False

/-- The includes of two nodes ask for the same records. -/
def IncludeResembles (r : Registry) (e : Entity) :
    Option (List (String × IncludeEntry)) → Option (List (String × IncludeEntry)) → Prop
  | none, none => True
  | some tree, some tree' => TreeResembles r e tree tree'
  | _, _ => False

/-- The trees ask for the same records, name by name. -/
def TreeResembles (r : Registry) (e : Entity) :
    List (String × IncludeEntry) → List (String × IncludeEntry) → Prop
  | [], [] => True
  | (name, entry) :: rest, (name', entry') :: rest' =>
    name = name' ∧ (∃ target, r.target? e name = some target ∧ Resembles r target entry entry') ∧
      TreeResembles r e rest rest'
  | _, _ => False

end

variable {r : Registry} {e target : Entity}

theorem Resembles.isRequested {entry other : IncludeEntry} (h : Resembles r target entry other) :
    entry.isRequested = other.isRequested := by
  cases entry with
  | null =>
    cases other with
    | null => rfl
    | _ => cases h
  | flag wanted =>
    cases other with
    | flag wanted' => exact h
    | _ => cases h
  | nested =>
    cases other with
    | nested => rfl
    | _ => cases h

theorem IncludeResembles.isNone {inc other : Option IncludeTree}
    (h : IncludeResembles r e inc other) : inc.isNone = other.isNone := by
  cases inc with
  | none =>
    cases other with
    | none => rfl
    | some => cases h
  | some tree =>
    cases other with
    | none => cases h
    | some => rfl

end IncludeEntry

/-- Which relations of a tree are wanted. -/
def IncludeTree.wants (tree : IncludeTree) : Keyed Bool := tree.map fun p => (p.1, p.2.isRequested)

theorem IncludeTree.wants_eq_of_resembles {r : Registry} {e : Entity} {tree : IncludeTree} :
    ∀ {other : IncludeTree}, IncludeEntry.TreeResembles r e tree other →
      tree.wants = other.wants := by
  induction tree with
  | nil =>
    intro other h
    cases other with
    | nil => rfl
    | cons _ _ => cases h
  | cons first rest ih =>
    intro other h
    cases other with
    | nil => cases h
    | cons first' rest' =>
      obtain ⟨same, ⟨target, -, entries⟩, h⟩ := h
      have head : (first.1, first.2.isRequested) = (first'.1, first'.2.isRequested) :=
        Prod.ext same entries.isRequested
      rw [wants, List.map_cons, head, ← wants, ih h]
      rfl

/-- A projection looks at which relations are wanted, and at nothing else of the includes. -/
theorem project_congr {inc other : Option IncludeTree}
    (same : inc.map IncludeTree.wants = other.map IncludeTree.wants) (select : Option Select)
    (row : Json) : project row select inc = project row select other := by
  have wanted : ∀ (inc : Option IncludeTree) (name : String),
      (inc.bind fun tree => tree.get? name).map IncludeEntry.isRequested =
        (inc.map IncludeTree.wants).bind fun wants => wants.get? name := by
    intro inc name
    cases inc with
    | none => rfl
    | some tree => exact (Keyed.get?_map tree (fun _ entry => entry.isRequested) name).symm
  cases select with
  | none => cases row <;> rfl
  | some select =>
    cases row with
    | obj fields => simp only [project, wanted, same]
    | _ => rfl

theorem IncludeEntry.IncludeResembles.wants {r : Registry} {e : Entity}
    {inc other : Option IncludeTree} (h : IncludeResembles r e inc other) :
    inc.map IncludeTree.wants = other.map IncludeTree.wants := by
  cases inc with
  | none =>
    cases other with
    | none => rfl
    | some => cases h
  | some tree =>
    cases other with
    | none => cases h
    | some other => exact congrArg some (IncludeTree.wants_eq_of_resembles h)

namespace SameMatches

variable {r : Registry} {e : Entity} {filter other : Option Predicate}

theorem matching (same : SameMatches r e filter other) (t : Tables) :
    t.matching r e filter = t.matching r e other :=
  Tables.matching_congr same.resolves same.otherResolves same.accepts

/-- One more condition on both sides. -/
theorem mergeAnd (same : SameMatches r e filter other) {p : Predicate}
    (resolves : Tables.Resolves r e p) :
    SameMatches r e (Predicate.mergeAnd [filter, some p]) (Predicate.mergeAnd [other, some p]) := by
  have both {filter : Option Predicate} (hfilter : ∀ q ∈ filter, Tables.Resolves r e q) :
      ∀ q ∈ Predicate.mergeAnd [filter, some p], Tables.Resolves r e q := by
    intro q hq path hpath
    obtain ⟨clause, hclause, p', hp', hpath⟩ := Predicate.exists_clause_of_mem_paths hq hpath
    simp only [List.mem_cons, List.not_mem_nil, or_false] at hclause
    rcases hclause with rfl | rfl
    · exact hfilter p' hp' path hpath
    · exact resolves path (Option.some.inj hp' ▸ hpath)
  refine ⟨both same.resolves, both same.otherResolves, fun row => ?_⟩
  simp only [Predicate.accepts?_mergeAnd, List.all_cons, same.accepts]

end SameMatches

namespace Includes

variable {t : Tables} {r : Registry} {e target : Entity}

theorem fetchChildren_congr (spelled : r.Spelled) {l : Relation} (registered : r.Registered e)
    (member : l ∈ e.relations) (ht : r.entity? l.target = some target)
    {filter other : Option Predicate} (same : SameMatches r target filter other)
    (rows : List Json) :
    fetchChildren (m := Id) (t.storage r) l target filter rows =
      fetchChildren (m := Id) (t.storage r) l target other rows := by
  obtain ⟨field, hfield⟩ := spelled.resolve_foreign registered member ht
  have fetched (keys : List String) : t.fetch r target (childQuery filter l.foreignField keys) =
      t.fetch r target (childQuery other l.foreignField keys) := by
    have resolves : Tables.Resolves r target (.operator (Path.ofText l.foreignField)
        { oneOf := some (keys.map .text) }) := by
      intro path hpath
      rw [List.mem_singleton.mp hpath]
      exact ⟨target, field, hfield, spelled.apart ⟨_, ht⟩⟩
    have matched := (same.mergeAnd resolves).matching t
    simp only [Tables.fetch, childQuery, matched]
  unfold fetchChildren
  split
  · rfl
  · simp only [Tables.storage, fetched]

section Load

variable (maxDepth : Nat)

mutual

/-- **Entries that resemble each other bring the same records into rows.** -/
theorem loadEntry_congr (spelled : r.Spelled) {e target : Entity} (depth : Nat)
    (registered : r.Registered e) {name : String} (ht : r.target? e name = some target)
    (rows : List Json) : (entry : IncludeEntry) → {other : IncludeEntry} →
      IncludeEntry.Resembles r target entry other →
        loadEntry (m := Id) (t.storage r) r maxDepth depth e name rows entry =
          loadEntry (m := Id) (t.storage r) r maxDepth depth e name rows other
  | .null, other, h => by
    cases other with
    | null => rfl
    | _ => cases h
  | .flag wanted, other, h => by
    cases other with
    | flag wanted' => rw [show wanted = wanted' from h]
    | _ => cases h
  | .nested inc select filter, other, h => by
    cases other with
    | nested inc' select' filter' =>
      obtain ⟨includes, rfl, same⟩ := h
      obtain ⟨l, hl, htarget⟩ := Option.bind_eq_some_iff.mp ht
      have member := List.mem_of_find?_eq_some hl
      have link : linkOf (m := Id) r e name = pure (l, target) := by
        simp only [linkOf, hl, htarget]
      have inner := fun children => loadNested_congr spelled (depth + 1) ⟨_, htarget⟩ children
        inc includes
      have projected := funext (project_congr includes.wants select)
      have fetched := fetchChildren_congr (t := t) spelled registered member htarget same rows
      simp only [loadEntry, link, pure_bind, fetched, inner, distribute, projected]
    | _ => cases h

theorem loadNested_congr (spelled : r.Spelled) {e : Entity} (depth : Nat)
    (registered : r.Registered e) (rows : List Json) :
    (inc : Option (List (String × IncludeEntry))) →
      {other : Option (List (String × IncludeEntry))} →
      IncludeEntry.IncludeResembles r e inc other →
        loadNested (m := Id) (t.storage r) r maxDepth depth e rows inc =
          loadNested (m := Id) (t.storage r) r maxDepth depth e rows other
  | none, other, h => by
    cases other with
    | none => rfl
    | some => cases h
  | some tree, other, h => by
    cases other with
    | none => cases h
    | some tree' => rw [loadNested, loadNested, loadTree_congr spelled depth registered rows tree h]

theorem loadTree_congr (spelled : r.Spelled) {e : Entity} (depth : Nat)
    (registered : r.Registered e) (rows : List Json) :
    (tree : List (String × IncludeEntry)) → {other : List (String × IncludeEntry)} →
      IncludeEntry.TreeResembles r e tree other →
        loadTree (m := Id) (t.storage r) r maxDepth depth e rows tree =
          loadTree (m := Id) (t.storage r) r maxDepth depth e rows other
  | [], other, h => by
    cases other with
    | nil => rfl
    | cons => cases h
  | (name, entry) :: rest, other, h => by
    cases other with
    | nil => cases h
    | cons first rest' =>
      obtain ⟨name', entry'⟩ := first
      obtain ⟨rfl, ⟨target, ht, same⟩, h⟩ := h
      have head := loadEntry_congr spelled depth registered ht rows entry same
      have tail := fun rows => loadTree_congr spelled depth registered rows rest h
      simp only [loadTree, head, tail]

end

end Load

end Includes

end Roster
