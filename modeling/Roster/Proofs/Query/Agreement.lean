import Mathlib.Data.List.Basic
import Roster.Query.Descriptor

/-!
# Agreement and equality

Queries agree when they have equal parts over agreeing operands, and operands agree when they are
equal as numbers. Only the two zeros are equal as numbers without being the same. So queries that
agree are the same, unless an operand somewhere is a negative zero (`Descriptor.eq_of_agrees`).
-/

namespace Roster

/-! ## Operands -/

/-- The zero with a minus sign. -/
def Double.negativeZero : Double := ⟨true, 0, zero.rank_lt⟩

/-- What a filter compares with, texts aside. -/
def Filter.operands (f : Filter) : List Scalar :=
  f.equals.toList ++ f.differs.toList ++ f.oneOf.getD [] ++ f.noneOf.getD [] ++ f.lt.toList ++
    f.lte.toList ++ f.gt.toList ++ f.gte.toList

mutual

/-- What a predicate compares with. -/
def Predicate.operands : Predicate → List Scalar
  | .equals _ value => [value]
  | .operator _ filter => filter.operands
  | .and children => Predicate.operandsOfAll children
  | .or children => Predicate.operandsOfAll children
  | .not inner => inner.operands

/-- What several predicates compare with. -/
def Predicate.operandsOfAll : List Predicate → List Scalar
  | [] => []
  | p :: rest => p.operands ++ Predicate.operandsOfAll rest

end

/-- What an optional predicate compares with. -/
def Predicate.operandsOf (filter : Option Predicate) : List Scalar :=
  (filter.map operands).getD []

mutual

/-- What the filters of an entry compare with. -/
def IncludeEntry.operands : IncludeEntry → List Scalar
  | .nested inc _ filter => IncludeEntry.includeOperands inc ++ Predicate.operandsOf filter
  | _ => []

/-- What the filters below the includes of a node compare with. -/
def IncludeEntry.includeOperands : Option (List (String × IncludeEntry)) → List Scalar
  | none => []
  | some tree => IncludeEntry.treeOperands tree

/-- What the filters of a tree compare with. -/
def IncludeEntry.treeOperands : List (String × IncludeEntry) → List Scalar
  | [] => []
  | (_, e) :: rest => e.operands ++ IncludeEntry.treeOperands rest

end

/-- What the filters of a descriptor compare with, those of its includes too. -/
def Descriptor.operands (q : Descriptor) : List Scalar :=
  Predicate.operandsOf q.filter ++ IncludeEntry.includeOperands q.include?

/-- The operands are without a negative zero. -/
def PositiveZeros (operands : List Scalar) : Prop := Scalar.float Double.negativeZero ∉ operands

instance (operands : List Scalar) : Decidable (PositiveZeros operands) :=
  inferInstanceAs (Decidable (_ ∉ operands))

@[simp] theorem positiveZeros_append {a b : List Scalar} :
    PositiveZeros (a ++ b) ↔ PositiveZeros a ∧ PositiveZeros b := by
  simp [PositiveZeros]

@[simp] theorem positiveZeros_cons {s : Scalar} {rest : List Scalar} :
    PositiveZeros (s :: rest) ↔ s ≠ .float Double.negativeZero ∧ PositiveZeros rest := by
  simp [PositiveZeros, eq_comm]

/-! ## Filters -/

/-- Doubles that are equal as numbers are the same, zeros apart. -/
theorem Double.eq_of_sameValue {a b : Double} (same : a.sameValue b = true)
    (ha : a ≠ negativeZero) (hb : b ≠ negativeZero) : a = b := by
  have nonzero {d : Double} (h : d ≠ negativeZero) (negative : d.negative = true) : d.rank ≠ 0 := by
    obtain ⟨_, _, _⟩ := d
    rintro rfl
    exact h (by simp_all [negativeZero])
  obtain ⟨negative, rank, bound⟩ := a
  obtain ⟨negative', rank', bound'⟩ := b
  have hr := nonzero ha
  have hr' := nonzero hb
  simp only [sameValue, place, beq_iff_eq] at same hr hr'
  -- with different signs the places are equal at zero only
  have ranks : negative = negative' ∧ rank = rank' := by
    cases negative <;> cases negative' <;> simp at same hr hr' ⊢ <;> omega
  obtain ⟨rfl, rfl⟩ := ranks
  rfl

theorem Scalar.eq_of_agrees {s t : Scalar} (same : s.agrees t = true)
    (hs : s ≠ .float Double.negativeZero) (ht : t ≠ .float Double.negativeZero) : s = t := by
  cases s with
  | float a =>
    cases t with
    | float b =>
      have doubles := Double.eq_of_sameValue same (fun h => hs (h ▸ rfl)) (fun h => ht (h ▸ rfl))
      exact congrArg float doubles
    | _ => simp [agrees] at same
  | _ => cases t <;> simp_all [agrees]

namespace Filter

theorem eq_of_optionAgrees {v w : Option Scalar} (same : optionAgrees v w = true)
    (hv : PositiveZeros v.toList) (hw : PositiveZeros w.toList) : v = w := by
  cases v with
  | none =>
    cases w with
    | none => rfl
    | some => cases same
  | some s =>
    cases w with
    | none => cases same
    | some t =>
      have hs := (positiveZeros_cons.mp hv).1
      have ht := (positiveZeros_cons.mp hw).1
      exact congrArg some (Scalar.eq_of_agrees same hs ht)

theorem eq_of_listAgrees : (l m : List Scalar) → listAgrees l m = true → PositiveZeros l →
    PositiveZeros m → l = m
  | [], [], _, _, _ => rfl
  | s :: l, t :: m, same, hl, hm => by
    obtain ⟨first, rest⟩ := Bool.and_eq_true_iff.mp same
    rw [positiveZeros_cons] at hl hm
    rw [Scalar.eq_of_agrees first hl.1 hm.1, eq_of_listAgrees l m rest hl.2 hm.2]

theorem eq_of_optionListAgrees {l m : Option (List Scalar)} (same : optionListAgrees l m = true)
    (hl : PositiveZeros (l.getD [])) (hm : PositiveZeros (m.getD [])) : l = m := by
  cases l with
  | none =>
    cases m with
    | none => rfl
    | some => cases same
  | some l =>
    cases m with
    | none => cases same
    | some m => exact congrArg some (eq_of_listAgrees l m same hl hm)

theorem eq_of_agrees {f g : Filter} (same : f.agrees g = true) (hf : PositiveZeros f.operands)
    (hg : PositiveZeros g.operands) : f = g := by
  obtain ⟨equals, differs, oneOf, noneOf, lt, lte, gt, gte, _, _, _, _⟩ := f
  obtain ⟨equals', differs', oneOf', noneOf', lt', lte', gt', gte', _, _, _, _⟩ := g
  simp only [agrees, Bool.and_eq_true, decide_eq_true_eq] at same
  simp only [operands, positiveZeros_append] at hf hg
  obtain ⟨⟨⟨⟨⟨⟨⟨⟨⟨⟨⟨a, b⟩, c⟩, d⟩, e⟩, f⟩, g⟩, h⟩, rfl⟩, rfl⟩, rfl⟩, rfl⟩ := same
  obtain ⟨⟨⟨⟨⟨⟨⟨fa, fb⟩, fc⟩, fd⟩, fe⟩, ff⟩, fg⟩, fh⟩ := hf
  obtain ⟨⟨⟨⟨⟨⟨⟨ga, gb⟩, gc⟩, gd⟩, ge⟩, gf⟩, gg⟩, gh⟩ := hg
  rw [eq_of_optionAgrees a fa ga, eq_of_optionAgrees b fb gb, eq_of_optionListAgrees c fc gc,
    eq_of_optionListAgrees d fd gd, eq_of_optionAgrees e fe ge, eq_of_optionAgrees f ff gf,
    eq_of_optionAgrees g fg gg, eq_of_optionAgrees h fh gh]

end Filter

/-! ## Predicates -/

namespace Predicate

mutual

theorem eq_of_agrees (p : Predicate) : ∀ q : Predicate, p.agrees q = true →
    PositiveZeros p.operands → PositiveZeros q.operands → p = q := by
  intro q same hp hq
  cases p with
  | equals path v =>
    cases q with
    | equals path' w =>
      simp only [agrees, Bool.and_eq_true, decide_eq_true_eq] at same
      simp only [operands, positiveZeros_cons] at hp hq
      rw [same.1, Scalar.eq_of_agrees same.2 hp.1 hq.1]
    | _ => simp [agrees] at same
  | operator path f =>
    cases q with
    | operator path' g =>
      simp only [agrees, Bool.and_eq_true, decide_eq_true_eq] at same
      simp only [operands] at hp hq
      rw [same.1, Filter.eq_of_agrees same.2 hp hq]
    | _ => simp [agrees] at same
  | and ps =>
    cases q with
    | and qs =>
      simp only [agrees] at same
      simp only [operands] at hp hq
      rw [eq_of_agreeAll ps qs same hp hq]
    | _ => simp [agrees] at same
  | or ps =>
    cases q with
    | or qs =>
      simp only [agrees] at same
      simp only [operands] at hp hq
      rw [eq_of_agreeAll ps qs same hp hq]
    | _ => simp [agrees] at same
  | not p =>
    cases q with
    | not q =>
      simp only [agrees] at same
      simp only [operands] at hp hq
      rw [eq_of_agrees p q same hp hq]
    | _ => simp [agrees] at same

theorem eq_of_agreeAll : (ps qs : List Predicate) → agreeAll ps qs = true →
    PositiveZeros (operandsOfAll ps) → PositiveZeros (operandsOfAll qs) → ps = qs
  | [], [], _, _, _ => rfl
  | p :: ps, q :: qs, same, hp, hq => by
    simp only [agreeAll, Bool.and_eq_true] at same
    simp only [operandsOfAll, positiveZeros_append] at hp hq
    rw [eq_of_agrees p q same.1 hp.1 hq.1, eq_of_agreeAll ps qs same.2 hp.2 hq.2]

end

end Predicate

/-! ## Includes and descriptors -/

namespace IncludeEntry

theorem eq_of_filterAgrees {f g : Option Predicate} (same : filterAgrees f g = true)
    (hf : PositiveZeros (Predicate.operandsOf f)) (hg : PositiveZeros (Predicate.operandsOf g)) :
    f = g := by
  cases f with
  | none =>
    cases g with
    | none => rfl
    | some => cases same
  | some p =>
    cases g with
    | none => cases same
    | some q => exact congrArg some (p.eq_of_agrees q same hf hg)

mutual

theorem eq_of_agrees : (e d : IncludeEntry) → e.agrees d = true → PositiveZeros e.operands →
    PositiveZeros d.operands → e = d
  | .null, .null, _, _, _ => rfl
  | .flag a, .flag b, same, _, _ => congrArg flag (beq_iff_eq.mp same)
  | .nested inc select filter, .nested inc' select' filter', same, he, hd => by
    simp only [agrees, Bool.and_eq_true, decide_eq_true_eq] at same
    simp only [operands, positiveZeros_append] at he hd
    rw [eq_of_includeAgrees inc inc' same.1.1 he.1 hd.1, same.1.2,
      eq_of_filterAgrees same.2 he.2 hd.2]

theorem eq_of_includeAgrees : (inc inc' : Option (List (String × IncludeEntry))) →
    includeAgrees inc inc' = true → PositiveZeros (includeOperands inc) →
    PositiveZeros (includeOperands inc') → inc = inc'
  | none, none, _, _, _ => rfl
  | some tree, some tree', same, h, h' => congrArg some (eq_of_treeAgrees tree tree' same h h')

theorem eq_of_treeAgrees : (tree tree' : List (String × IncludeEntry)) →
    treeAgrees tree tree' = true → PositiveZeros (treeOperands tree) →
    PositiveZeros (treeOperands tree') → tree = tree'
  | [], [], _, _, _ => rfl
  | (name, e) :: rest, (name', e') :: rest', same, h, h' => by
    simp only [treeAgrees, Bool.and_eq_true, decide_eq_true_eq] at same
    simp only [treeOperands, positiveZeros_append] at h h'
    rw [same.1.1, eq_of_agrees e e' same.1.2 h.1 h'.1,
      eq_of_treeAgrees rest rest' same.2 h.2 h'.2]

end

end IncludeEntry

/-- **Descriptors that agree are the same**, unless a filter compares with a negative zero. -/
theorem Descriptor.eq_of_agrees {q q' : Descriptor} (same : q.agrees q' = true)
    (positive : PositiveZeros q.operands) (positive' : PositiveZeros q'.operands) : q = q' := by
  obtain ⟨filter, orderBy, inc, select, skip, take⟩ := q
  obtain ⟨filter', orderBy', inc', select', skip', take'⟩ := q'
  simp only [agrees, Bool.and_eq_true, decide_eq_true_eq] at same
  obtain ⟨⟨⟨⟨⟨filters, rfl⟩, includes⟩, rfl⟩, rfl⟩, rfl⟩ := same
  simp only [operands, positiveZeros_append] at positive positive'
  rw [IncludeEntry.eq_of_filterAgrees filters positive.1 positive'.1,
    IncludeEntry.eq_of_includeAgrees _ _ includes positive.2 positive'.2]

end Roster
