import Roster.Proofs.Predicate.Acceptance
import Roster.Scope.Rule

/-!
# Overlays are exact

An overlay put on a filter asks for two things and for nothing else: its own condition, and what it
keeps of the filter. Both are said here without the operations that build the filter.
`Overlay.Admits` is the condition on a row, and `Overlay.kept` is the caller's part: all of it where
alternatives are demanded, and all but the top conditions on the assigned field where a value is
assigned.

Because the overlay stands beside the caller's part in a conjunction, no disjunction or negation of
the caller can satisfy the query alone, and none of them is lost either.
-/

namespace Roster

namespace Predicate

/-- The filter without the leaves on a path among its top conjuncts. A leaf that is the whole filter
is its own only conjunct. -/
def withoutTop (path : Path) : Option Predicate → Option Predicate
  | none => none
  | some (.and children) => some (.and (children.filter fun p => p.path? != some path))
  | some p => if p.path? = some path then none else some p

/-- Assigning a value leaves the other conjuncts, and adds the one on the path. -/
theorem accepts_assign (filter : Option Predicate) (path : Path) (value : Scalar) (row : Json) :
    (assign filter path value).accepts row =
      (accepts? (withoutTop path filter) row && (Predicate.equals path value).accepts row) := by
  have split : ∀ others : List Predicate,
      ((compose .and (others ++ [.equals path value])).getD empty).accepts row =
        (others.all (·.accepts row) && (Predicate.equals path value).accepts row) := by
    intro others
    have hsome : (compose .and (others ++ [.equals path value])).isSome = true := by
      match others with
      | [] => rfl
      | [_] => rfl
      | _ :: _ :: _ => rfl
    obtain ⟨p, hp⟩ := Option.isSome_iff_exists.mp hsome
    have hall := accepts?_compose_and (others ++ [.equals path value]) row
    rw [hp, List.all_append] at hall
    simpa [hp, accepts?] using hall
  rw [assign, split]
  congr 1
  cases filter with
  | none => rfl
  | some p =>
    cases p with
    | and children =>
      rw [withoutTop, accepts?, Option.all_some, accepts_and]
      rfl
    | equals q v =>
      by_cases hq : q = path <;> simp [withoutTop, conjuncts, path?, accepts?, hq]
    | operator q f =>
      by_cases hq : q = path <;> simp [withoutTop, conjuncts, path?, accepts?, hq]
    | or children => simp [withoutTop, conjuncts, path?, accepts?]
    | not inner => simp [withoutTop, conjuncts, path?, accepts?]

/-- Demanding alternatives leaves the whole filter, and adds the disjunction. -/
theorem accepts_requireAny (filter : Option Predicate) (alternatives : List Predicate)
    (row : Json) :
    (requireAny filter alternatives).accepts row =
      (accepts? filter row && alternatives.any (·.accepts row)) := by
  cases filter with
  | none => simp [requireAny, accepts?, accepts_or]
  | some p =>
    cases hp : p.isEmpty with
    | true => simp [requireAny, accepts?, hp, accepts_of_isEmpty hp row, accepts_or]
    | false => simp [requireAny, accepts?, hp, accepts_and, accepts_or]

end Predicate

namespace Overlay

/-- The row satisfies the overlay's own condition. -/
def Admits (row : Json) : Overlay → Prop
  | .passThrough => True
  | .assign path value => (Predicate.equals path value).accepts row = true
  | .anyOf alternatives => ∃ p ∈ alternatives, p.accepts row = true
  | .parentOwner _ _ _ ownerPath owner => (Predicate.equals ownerPath owner).accepts row = true
  | .deny => False

/-- What an overlay keeps of a filter. -/
def kept (filter : Option Predicate) : Overlay → Option Predicate
  | .passThrough => filter
  | .assign path _ => Predicate.withoutTop path filter
  | .anyOf _ => filter
  | .parentOwner _ _ _ ownerPath _ => Predicate.withoutTop ownerPath filter
  | .deny => filter

/-- The condition of an overlay as a predicate, so that a store can evaluate it. -/
def condition : Overlay → Predicate
  | .passThrough => .and []
  | .assign path value => .equals path value
  | .anyOf alternatives => .or alternatives
  | .parentOwner _ _ _ ownerPath owner => .equals ownerPath owner
  | .deny => .or []

theorem accepts_condition_iff (o : Overlay) (row : Json) :
    o.condition.accepts row = true ↔ o.Admits row := by
  cases o with
  | passThrough => exact ⟨fun _ => trivial, fun _ => rfl⟩
  | assign path value => exact Iff.rfl
  | anyOf alternatives => rw [condition, Predicate.accepts_or, List.any_eq_true, Admits]
  | parentOwner foreignKey parent ownerField ownerPath owner => exact Iff.rfl
  | deny => rw [condition, Predicate.accepts_or, List.any_nil, Admits]; simp

instance (row : Json) (o : Overlay) : Decidable (o.Admits row) :=
  decidable_of_iff _ (o.accepts_condition_iff row)

/-- The filter under an overlay is the condition and the kept part, as one conjunction. -/
theorem accepts?_apply (o : Overlay) (filter : Option Predicate) (row : Json)
    (visible : o.isDeny = false) :
    accepts? (o.apply filter) row = (o.condition.accepts row && accepts? (o.kept filter) row) := by
  cases o with
  | passThrough => rw [apply, condition, Predicate.accepts_and, List.all_nil, Bool.true_and, kept]
  | assign path value =>
    rw [apply, accepts?, Option.all_some, Predicate.accepts_assign, Bool.and_comm]
    rfl
  | anyOf alternatives =>
    rw [apply, accepts?, Option.all_some, Predicate.accepts_requireAny, Bool.and_comm, condition,
      Predicate.accepts_or, kept]
  | parentOwner foreignKey parent ownerField ownerPath owner =>
    rw [apply, accepts?, Option.all_some, Predicate.accepts_assign, Bool.and_comm]
    rfl
  | deny => cases visible

/-- **An overlay asks for its own condition and for what it keeps of the filter**, whatever the
filter looks like. Without alternatives nothing is accepted. -/
theorem accepts_apply_iff (o : Overlay) (filter : Option Predicate) (row : Json)
    (visible : o.isDeny = false) :
    (accepts? (o.apply filter) row = true ↔
        o.Admits row ∧ accepts? (o.kept filter) row = true) ∧
      accepts? ((Overlay.anyOf []).apply filter) row = false := by
  constructor
  · rw [accepts?_apply o filter row visible, Bool.and_eq_true, accepts_condition_iff]
  · rw [accepts?_apply _ filter row rfl, condition, Predicate.accepts_or, List.any_nil,
      Bool.false_and]

/-- A caller who asks for one title or for closed positions, beside an assigned status: a closed
position with another title is refused, an open one with the title is accepted. -/
theorem accepts_apply_iff_disjunction :
    let o := Overlay.assign ⟨["status"]⟩ (.text "OPEN")
    let filter := some (Predicate.or [.equals ⟨["title"]⟩ (.text "Cook"),
      .equals ⟨["status"]⟩ (.text "CLOSED")])
    let closed := Json.obj [("title", .str "Waiter"), ("status", .str "CLOSED")]
    let vacant := Json.obj [("title", .str "Cook"), ("status", .str "OPEN")]
    o.isDeny = false ∧ accepts? (o.apply filter) closed = false ∧
      accepts? (o.apply filter) vacant = true := by
  intro o filter closed vacant
  have refused := (accepts_apply_iff o filter closed rfl).1
  have accepted := (accepts_apply_iff o filter vacant rfl).1
  refine ⟨rfl, ?_, accepted.mpr ⟨by decide, by decide⟩⟩
  rw [← Bool.not_eq_true, refused]
  exact fun h => absurd h.1 (by decide)

end Overlay

end Roster
