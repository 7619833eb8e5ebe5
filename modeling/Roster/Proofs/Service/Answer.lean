import Roster.Proofs.Service.Visibility

/-!
# What a list answers

A list on tables is three things one after the other: the query is resolved, the rows of its window are
fetched, which cannot fail, and their related records are loaded. `Service.resolve_eq_ok_iff` and
`Service.list_eq_ok_iff` say when the first and the whole of it succeed, and with what, so that what
follows does not have to go through the steps again.
-/

namespace Roster

/-! ## Computations that succeed -/

theorem run_bind_eq_ok {ε α β : Type} {x : ExceptT ε Id α} {f : α → ExceptT ε Id β} {b : β} :
    (x >>= f).run = .ok b ↔ ∃ a, x.run = .ok a ∧ (f a).run = .ok b := by
  rw [ExceptT.run_bind]
  generalize x.run = result
  cases result with
  | error fault => exact ⟨nofun, nofun⟩
  | ok a =>
    constructor
    · intro h
      exact ⟨a, rfl, h⟩
    · rintro ⟨_, same, h⟩
      obtain rfl := Except.ok.inj same
      exact h

theorem run_adapt_eq_ok {ε ε' α : Type} {x : ExceptT ε Id α} {f : ε → ε'} {a : α} :
    (x.adapt f).run = .ok a ↔ x.run = .ok a := by
  change (x.run : Except ε α).mapError f = _ ↔ _
  generalize x.run = result
  cases result with
  | error fault => exact ⟨nofun, nofun⟩
  | ok b =>
    constructor <;> exact fun h => congrArg Except.ok (Except.ok.inj h)

/-- A row as a caller sees it: the selected fields that are not restricted. -/
def Caller.face (c : Caller) (r : Registry) (e : Entity) (q : Descriptor) (row : Json) : Json :=
  c.redact r e (project row q.select q.include?)

variable {t : Tables} {r : Registry} {limits : Limits} {entity : String} {c : Caller}
  {q resolved : Descriptor} {e : Entity} {page : Page}

/-- Narrowing succeeds where the caller may read the entity and owns the parents that are named. -/
theorem Caller.narrow_eq_ok_iff :
    (c.narrow (m := Id) r (t.storage r) e q).run = .ok resolved ↔
      (c.rule e.name).overlay.isDeny = false ∧
        (c.checkParents (m := Id) r (t.storage r) (c.rule e.name).overlay
          (c.strip r e q.filter)).run = .ok () ∧
        c.narrowed r e q = resolved := by
  rw [narrow_eq]
  cases hdeny : (c.rule e.name).overlay.isDeny with
  | true => exact ⟨nofun, nofun⟩
  | false =>
    rw [if_neg Bool.false_ne_true, run_bind_eq_ok]
    constructor
    · rintro ⟨_, checked, h⟩
      exact ⟨rfl, checked, Except.ok.inj h⟩
    · rintro ⟨-, checked, rfl⟩
      exact ⟨(), checked, rfl⟩

namespace Service

/-- **What passes the screening**: a valid query for an entity with a list, brought within limits. -/
theorem screen_eq_ok_iff {m : Type → Type} (s : Service m) {bounded : Descriptor} :
    s.screen entity q = .ok (e, bounded) ↔
      s.registry.listable? entity = some e ∧ s.registry.problems e q = [] ∧
        bounded = s.limits.bound q := by
  unfold screen
  split
  · next unknown => simp [unknown]
  · next found known =>
    split
    · next valid =>
      simp only [Except.ok.injEq, Prod.mk.injEq, known, Option.some.injEq]
      constructor
      · rintro ⟨rfl, rfl⟩
        exact ⟨rfl, valid, rfl⟩
      · rintro ⟨rfl, -, rfl⟩
        exact ⟨rfl, rfl⟩
    · next invalid =>
      simp only [reduceCtorEq, known, Option.some.injEq, false_iff]
      rintro ⟨rfl, valid, -⟩
      exact invalid valid

/-- **When a query is resolved**: its entity has a list, the query is valid, and what is within limits
is narrowed. -/
theorem resolve_eq_ok_iff :
    (resolve (m := Id) ⟨r, t.storage r, limits⟩ entity c q).run = .ok (e, resolved) ↔
      r.listable? entity = some e ∧ r.problems e q = [] ∧
        (c.narrow (m := Id) r (t.storage r) e (limits.bound q)).run = .ok resolved := by
  rw [resolve, run_bind_eq_ok]
  constructor
  · rintro ⟨⟨found, bounded⟩, hscreen, h⟩
    obtain ⟨hentity, valid, rfl⟩ := (screen_eq_ok_iff _).mp hscreen
    obtain ⟨narrowed, hnarrow, h⟩ := run_bind_eq_ok.mp h
    obtain ⟨rfl, rfl⟩ := Prod.mk.inj (Except.ok.inj h)
    exact ⟨hentity, valid, run_adapt_eq_ok.mp hnarrow⟩
  · rintro ⟨hentity, valid, hnarrow⟩
    exact ⟨(e, limits.bound q), (screen_eq_ok_iff _).mpr ⟨hentity, valid, rfl⟩,
      run_bind_eq_ok.mpr ⟨resolved, run_adapt_eq_ok.mpr hnarrow, rfl⟩⟩

/-- Loading the records of a page is loading the includes of a node at the top. -/
theorem loadRows_eq_ok_iff {inc : Option IncludeTree} {rows loaded : List Json} :
    (loadRows (m := Id) ⟨r, t.storage r, limits⟩ e inc rows).run = .ok loaded ↔
      (Includes.loadNested (m := Id) (t.storage r) r limits.maxIncludeDepth 0 e rows inc).run =
        .ok loaded := by
  cases inc with
  | none => constructor <;> exact fun h => congrArg Except.ok (Except.ok.inj h)
  | some tree =>
    rw [loadRows, Includes.loadNested]
    cases rows with
    | nil => constructor <;> exact fun h => congrArg Except.ok (Except.ok.inj h)
    | cons row rest =>
      rw [if_neg (by simp), if_neg (by simp), run_adapt_eq_ok, Includes.load, if_neg (by simp)]

/-- **What a list answers**: the rows of the window of the resolved query, with their records loaded,
as the caller sees them. -/
theorem list_eq_ok_iff :
    (list (m := Id) ⟨r, t.storage r, limits⟩ entity c q).run = .ok page ↔
      ∃ e resolved loaded,
        (resolve (m := Id) ⟨r, t.storage r, limits⟩ entity c q).run = .ok (e, resolved) ∧
          (Includes.loadNested (m := Id) (t.storage r) r limits.maxIncludeDepth 0 e
            (t.fetch r e resolved).rows resolved.include?).run = .ok loaded ∧
          page = ⟨loaded.map (c.face r e resolved), (t.fetch r e resolved).total, resolved⟩ := by
  rw [list, run_bind_eq_ok]
  constructor
  · rintro ⟨⟨e, resolved⟩, hresolve, h⟩
    obtain ⟨found, hfound, h⟩ := run_bind_eq_ok.mp h
    obtain rfl := Except.ok.inj (run_adapt_eq_ok.mp hfound)
    obtain ⟨loaded, hloaded, h⟩ := run_bind_eq_ok.mp h
    exact ⟨e, resolved, loaded, hresolve, loadRows_eq_ok_iff.mp hloaded, (Except.ok.inj h).symm⟩
  · rintro ⟨e, resolved, loaded, hresolve, hloaded, rfl⟩
    exact ⟨(e, resolved), hresolve, run_bind_eq_ok.mpr ⟨t.fetch r e resolved,
      run_adapt_eq_ok.mpr rfl, run_bind_eq_ok.mpr ⟨loaded, loadRows_eq_ok_iff.mpr hloaded, rfl⟩⟩⟩

end Service

end Roster
