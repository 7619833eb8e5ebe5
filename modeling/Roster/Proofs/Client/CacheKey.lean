import Roster.Proofs.Client.Freshness
import Roster.Proofs.Json.Text
import Roster.Proofs.Query.Agreement
import Roster.Proofs.Query.RoundTrip

/-!
# What a cache key tells

A key is an entity, an epoch and a digest, and each can be taken from it again. As far as digests
do not collide, it tells the canonical text of the query, and that tells the canonical form
(`PageCache.key_eq_iff_toJson`). Whether it tells the query is another matter. A query is told by
its canonical form if no filter hides an operator key, for then the form is read as the query again.

Queries that agree have one key if none of their operands is a negative zero. The two zeros agree
and have different texts.
-/

namespace Roster

/-- Canonical texts tell canonical forms. -/
theorem Descriptor.text_inj {q q' : Descriptor} : q.text = q'.text ↔ q.toJson = q'.toJson :=
  ⟨Json.text_inj, congrArg Json.text⟩

/-- Queries that were read and hide no operator key are told by their canonical forms. -/
theorem Descriptor.eq_of_toJson {q q' : Descriptor} (decoded : q.Decoded) (decoded' : q'.Decoded)
    (spelled : ∀ path ∈ q.filterPaths, path.hidesNothing = true)
    (spelled' : ∀ path ∈ q'.filterPaths, path.hidesNothing = true) (same : q.toJson = q'.toJson) :
    q = q' := by
  have back := decoded.back spelled
  rw [same, decoded'.back spelled'] at back
  exact (Except.ok.inj back).symm

namespace PageCache

/-- Queries with one digest have one canonical form, unless their texts collide. -/
theorem toJson_eq_of_digest {q q' : Descriptor}
    (distinct : Sha256.digest (Text.bytes q.text) = Sha256.digest (Text.bytes q'.text) →
      Text.bytes q.text = Text.bytes q'.text)
    (same : digest q = digest q') : q.toJson = q'.toJson :=
  Descriptor.text_inj.mp (Text.bytes_inj.mp (distinct (Text.hex_inj same)))

/-- **A key tells the entity and the canonical form of the query**, and nothing else goes into it at
one time. -/
theorem key_eq_iff_toJson (c : PageCache) (e e' : String) {q q' : Descriptor}
    (distinct : Sha256.digest (Text.bytes q.text) = Sha256.digest (Text.bytes q'.text) →
      Text.bytes q.text = Text.bytes q'.text) :
    c.key e q = c.key e' q' ↔ e = e' ∧ q.toJson = q'.toJson := by
  constructor
  · intro same
    have entity : e = e' := (keyAt_inj same).1
    obtain ⟨-, digests⟩ := append_colon_inj (colon_notMem_hex _) (colon_notMem_hex _) same
    exact ⟨entity, toJson_eq_of_digest distinct digests⟩
  · rintro ⟨rfl, same⟩
    rw [key, key, digest, digest, Descriptor.text_inj.mpr same]

/-- **Keys identify queries.** Where no filter hides an operator key, queries with one key are the
same. Where all zeros are positive, queries that agree have one key. Where both is so, one key is
agreement. -/
theorem key_eq_iff (c : PageCache) (e e' : String) {v v' : Json} {q q' : Descriptor}
    (read : Descriptor.ofJson v = .ok q) (read' : Descriptor.ofJson v' = .ok q')
    (distinct : Sha256.digest (Text.bytes q.text) = Sha256.digest (Text.bytes q'.text) →
      Text.bytes q.text = Text.bytes q'.text) :
    ((∀ path ∈ q.filterPaths ++ q'.filterPaths, path.hidesNothing = true) →
        (c.key e q = c.key e' q' ↔ e = e' ∧ q = q')) ∧
      (PositiveZeros (q.operands ++ q'.operands) →
        e = e' ∧ q.agrees q' = true → c.key e q = c.key e' q') ∧
      ((∀ path ∈ q.filterPaths ++ q'.filterPaths, path.hidesNothing = true) →
        PositiveZeros (q.operands ++ q'.operands) →
        (c.key e q = c.key e' q' ↔ e = e' ∧ q.agrees q' = true)) := by
  have same : (∀ path ∈ q.filterPaths ++ q'.filterPaths, path.hidesNothing = true) →
      c.key e q = c.key e' q' → e = e' ∧ q = q' := by
    intro spelled keys
    -- nothing is hidden, so each form is read as its query again
    obtain ⟨entities, forms⟩ := (c.key_eq_iff_toJson e e' distinct).mp keys
    have queries := Descriptor.eq_of_toJson (Descriptor.decoded_ofJson read)
      (Descriptor.decoded_ofJson read')
      (fun path hp => spelled path (List.mem_append_left _ hp))
      (fun path hp => spelled path (List.mem_append_right _ hp)) forms
    exact ⟨entities, queries⟩
  have shared : PositiveZeros (q.operands ++ q'.operands) →
      e = e' ∧ q.agrees q' = true → c.key e q = c.key e' q' := by
    rintro positive ⟨entities, agree⟩
    obtain ⟨here, there⟩ := positiveZeros_append.mp positive
    rw [entities, Descriptor.eq_of_agrees agree here there]
  refine ⟨fun spelled => ⟨same spelled, ?_⟩, shared, fun spelled positive => ⟨?_, shared positive⟩⟩
  · rintro ⟨rfl, rfl⟩
    rfl
  · intro keys
    obtain ⟨entities, rfl⟩ := same spelled keys
    exact ⟨entities, q.agrees_refl⟩

/-- Two queries that differ in one operator, and their keys after an invalidation. -/
theorem key_eq_iff_bounds :
    let v : Json := .obj [("where", .obj [("score", .obj [("lt", .num (.float Double.zero))])])]
    let v' : Json := .obj [("where", .obj [("score", .obj [("lte", .num (.float Double.zero))])])]
    let q : Descriptor :=
      { filter := some (.operator ⟨["score"]⟩ { lt := some (.float Double.zero) }) }
    let q' : Descriptor :=
      { filter := some (.operator ⟨["score"]⟩ { lte := some (.float Double.zero) }) }
    let c : PageCache := invalidate {} "jobs"
    Descriptor.ofJson v = .ok q ∧ Descriptor.ofJson v' = .ok q' ∧ q.agrees q' = false ∧
      c.key "jobs" q ≠ c.key "jobs" q' := by
  intro v v' q q' c
  have read : Descriptor.ofJson v = .ok q := rfl
  have read' : Descriptor.ofJson v' = .ok q' := rfl
  have differ : Sha256.digest (Text.bytes q.text) ≠ Sha256.digest (Text.bytes q'.text) := by
    decide +kernel
  have disagree : q.agrees q' = false := by decide
  obtain ⟨-, -, identify⟩ :=
    key_eq_iff c "jobs" "jobs" read read' fun collision => absurd collision differ
  have iff := identify (by decide) (by decide)
  refine ⟨read, read', disagree, fun keys => ?_⟩
  rw [(iff.mp keys).2] at disagree
  cases disagree

/-- Two different queries with one key: in the first, `equals` is a field of the related record, and
in the second, the relation itself is compared. And two queries that agree, with two keys: a field
is compared with zero in both, with different signs. -/
theorem key_of_hidden_and_zeros :
    let v : Json := .obj [("where", .obj [("job", .obj [("AND", .arr [.obj [("equals",
      .ofInt 1)]])])])]
    let v' : Json := .obj [("where", .obj [("AND", .arr [.obj [("job", .obj [("equals",
      .ofInt 1)])]])])]
    let q : Descriptor := { filter := some (.and [.equals ⟨["job", "equals"]⟩ (.int 1)]) }
    let q' : Descriptor :=
      { filter := some (.and [.operator ⟨["job"]⟩ { equals := some (.int 1) }]) }
    let w : Json := .obj [("where", .obj [("score", .num (.float Double.zero))])]
    let w' : Json := .obj [("where", .obj [("score", .num (.float Double.negativeZero))])]
    let z : Descriptor := { filter := some (.equals ⟨["score"]⟩ (.float Double.zero)) }
    let z' : Descriptor := { filter := some (.equals ⟨["score"]⟩ (.float Double.negativeZero)) }
    let c : PageCache := {}
    (Descriptor.ofJson v = .ok q ∧ Descriptor.ofJson v' = .ok q' ∧ q.agrees q' = false ∧
        c.key "jobs" q = c.key "jobs" q') ∧
      Descriptor.ofJson w = .ok z ∧ Descriptor.ofJson w' = .ok z' ∧ z.agrees z' = true ∧
        c.key "jobs" z ≠ c.key "jobs" z' := by
  intro v v' q q' w w' z z' c
  have forms : q.toJson = q'.toJson := rfl
  have texts : Text.bytes q.text = Text.bytes q'.text :=
    Text.bytes_inj.mpr (Descriptor.text_inj.mpr forms)
  have differ : Sha256.digest (Text.bytes z.text) ≠ Sha256.digest (Text.bytes z'.text) := by
    decide +kernel
  refine ⟨⟨rfl, rfl, by decide, ?_⟩, rfl, rfl, by decide, fun keys => ?_⟩
  · exact (c.key_eq_iff_toJson "jobs" "jobs" fun _ => texts).mpr ⟨rfl, forms⟩
  · obtain ⟨-, same⟩ :=
      (c.key_eq_iff_toJson "jobs" "jobs" fun collision => absurd collision differ).mp keys
    rw [Descriptor.text_inj.mpr same] at differ
    exact differ rfl

end PageCache

end Roster
