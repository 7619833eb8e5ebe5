import Roster.Proofs.Filter

/-!
# What an operator object says

An operator object is documented to have known keys, with some comparison among them, and under each
key the operand that it takes: a scalar, an array of scalars, or a text. `Comparison.ofJson?` is the
comparison that a key and an operand make.

The reader takes the documented objects, and some others (`Filter.Tolerates`): under a key that takes
an array or a text `null` counts as if the key were missing, and the mode can be an object. Every
comparison of an object that is read is one of the filter, and the filter has no others
(`Filter.mem_comparisons_of_ofJson`). What is dropped is what stands under a `null` of that kind.
-/

namespace Roster

/-! ## Operands -/

/-- The scalars that an array consists of. -/
def Json.scalars? : Json → Option (List Scalar)
  | .arr items => items.mapM Scalar.ofJson?
  | _ => none

/-- The term that a value is: a text. -/
def Json.term? : Json → Option String
  | .str s => some s
  | _ => none

namespace Comparison

/-- The comparison that a key and the value under it make, if the value is what the key takes. -/
def ofJson? (key : String) (v : Json) : Option Comparison :=
  match key with
  | "equals" => (Scalar.ofJson? v).map .equals
  | "not" => (Scalar.ofJson? v).map .differs
  | "in" => v.scalars?.map .oneOf
  | "notIn" => v.scalars?.map .noneOf
  | "lt" => (Scalar.ofJson? v).map (.ordered .lt)
  | "lte" => (Scalar.ofJson? v).map (.ordered .lte)
  | "gt" => (Scalar.ofJson? v).map (.ordered .gt)
  | "gte" => (Scalar.ofJson? v).map (.ordered .gte)
  | "contains" => v.term?.map (.textual .contains)
  | "startsWith" => v.term?.map (.textual .startsWith)
  | "endsWith" => v.term?.map (.textual .endsWith)
  | _ => none

/-- The key of a comparison. -/
def key : Comparison → String
  | .equals _ => "equals"
  | .differs _ => "not"
  | .oneOf _ => "in"
  | .noneOf _ => "notIn"
  | .ordered bound _ => bound.key
  | .textual .contains _ => "contains"
  | .textual .startsWith _ => "startsWith"
  | .textual .endsWith _ => "endsWith"

/-- The filter has the comparison. -/
def Of (f : Filter) : Comparison → Prop
  | .equals value => f.equals = some value
  | .differs value => f.differs = some value
  | .oneOf values => f.oneOf = some values
  | .noneOf values => f.noneOf = some values
  | .ordered .lt value => f.lt = some value
  | .ordered .lte value => f.lte = some value
  | .ordered .gt value => f.gt = some value
  | .ordered .gte value => f.gte = some value
  | .textual .contains term => f.contains = some term
  | .textual .startsWith term => f.startsWith = some term
  | .textual .endsWith term => f.endsWith = some term

theorem mem_comparisons {f : Filter} {c : Comparison} : c ∈ f.comparisons ↔ c.Of f := by
  simp only [Filter.comparisons, List.mem_append, Option.mem_toList, Option.map_eq_some_iff]
  cases c with
  | ordered bound value => cases bound <;> simp [Of]
  | textual place term => cases place <;> simp [Of]
  | _ => simp [Of]

end Comparison

/-! ## Reading operands -/

/-- One of a choice of names is given by the name, or by an object that has it as its key. -/
theorem Json.asVariant_eq_ok {α : Type} {names : List String} {ofName? : String → Option α}
    {v : Json} {a : α} :
    asVariant names ofName? v = .ok a ↔
      ∃ name, ofName? name = some a ∧ (v = .str name ∨ v = .obj [(name, .null)]) := by
  constructor
  · intro read
    unfold asVariant at read
    split at read
    · next name =>
      split at read
      · next b h =>
        cases read
        exact ⟨name, h, .inl rfl⟩
      · cases read
    · next name value =>
      split at read
      · next b h =>
        cases value with
        | null =>
          cases read
          exact ⟨name, h, .inr rfl⟩
        | _ => cases read
      · cases read
    · cases read
    · cases read
  · rintro ⟨name, h, rfl | rfl⟩ <;> simp [asVariant, h, isNull]

namespace Filter

theorem readScalar_eq_ok {v : Json} {s : Scalar} :
    readScalar v = .ok s ↔ Scalar.ofJson? v = some s := by
  unfold readScalar
  cases Scalar.ofJson? v <;> simp

theorem mapM_readScalar (items : List Json) {ss : List Scalar} :
    items.mapM readScalar = .ok ss ↔ items.mapM Scalar.ofJson? = some ss := by
  induction items generalizing ss with
  | nil => simp [pure, Except.pure]
  | cons v items ih =>
    rw [List.mapM_cons, List.mapM_cons]
    constructor
    · intro read
      obtain ⟨s, first, read⟩ := bind_eq_ok.mp read
      obtain ⟨rest, others, listed⟩ := bind_eq_ok.mp read
      cases listed
      simp [readScalar_eq_ok.mp first, ih.mp others]
    · intro scalars
      obtain ⟨s, first, scalars⟩ := Option.bind_eq_some_iff.mp scalars
      obtain ⟨rest, others, listed⟩ := Option.bind_eq_some_iff.mp scalars
      cases listed
      rw [readScalar_eq_ok.mpr first, ih.mpr others]
      rfl

theorem readScalars_eq_ok {v : Json} {ss : List Scalar} :
    readScalars v = .ok ss ↔ v.scalars? = some ss := by
  cases v with
  | arr items => exact mapM_readScalar items
  | _ => exact ⟨nofun, nofun⟩

theorem asText_eq_ok {v : Json} {s : String} : v.asText = .ok s ↔ v.term? = some s := by
  cases v <;> simp [Json.asText, Json.term?]

/-- Where `null` counts as absence, it is read, and so is everything that makes an operand. -/
theorem optional_eq_ok_iff {α : Type} {read : Json → Except ShapeError α} {operand? : Json → Option α}
    (reads : ∀ v a, read v = .ok a ↔ operand? v = some a) (absent : operand? .null = none)
    {v : Json} {result : Option α} :
    Json.optional read v = .ok result ↔
      result = operand? v ∧ ((operand? v).isSome ∨ v = .null) := by
  by_cases null : v = .null
  · subst null
    rw [absent]
    constructor
    · intro h
      cases h
      exact ⟨rfl, .inr rfl⟩
    · rintro ⟨rfl, -⟩
      rfl
  · rw [optional_of_ne_null read null, map_eq_ok]
    constructor
    · rintro ⟨a, h, rfl⟩
      have operand := (reads v a).mp h
      exact ⟨operand.symm, .inl (by rw [operand]; rfl)⟩
    · rintro ⟨rfl, some_ | isNull⟩
      · obtain ⟨a, operand⟩ := Option.isSome_iff_exists.mp some_
        exact ⟨a, (reads v a).mpr operand, operand.symm⟩
      · exact absurd isNull null

/-- The word for a mode. -/
def modeWord (ignoreCase : Bool) : String := if ignoreCase then "insensitive" else "default"

theorem readMode_eq_ok {v : Json} {ignoreCase : Bool} :
    readMode v = .ok ignoreCase ↔
      v = .str (modeWord ignoreCase) ∨ v = .obj [(modeWord ignoreCase, .null)] := by
  rw [readMode, Json.asVariant_eq_ok]
  constructor
  · rintro ⟨name, h, given⟩
    split at h
    · cases h
      exact given
    · cases h
      exact given
    · cases h
  · intro given
    refine ⟨modeWord ignoreCase, ?_, given⟩
    cases ignoreCase <;> rfl

/-! ## Reading keys -/

/-- What the reader takes under a key, and the documentation does not allow there. -/
inductive Tolerates : String → Json → Prop
  /-- `null` for an array of operands. -/
  | list {key : String} : key ∈ ["in", "notIn"] → Tolerates key .null
  /-- `null` for a term. -/
  | term {key : String} : key ∈ ["contains", "startsWith", "endsWith"] → Tolerates key .null
  /-- The mode as the key of an object. -/
  | mode (ignoreCase : Bool) : Tolerates "mode" (.obj [(modeWord ignoreCase, .null)])

theorem tolerates_iff {key : String} {v : Json} :
    Tolerates key v ↔
      v = .null ∧ (key ∈ ["in", "notIn"] ∨ key ∈ ["contains", "startsWith", "endsWith"]) ∨
        key = "mode" ∧ ∃ ignoreCase, v = .obj [(modeWord ignoreCase, .null)] := by
  constructor
  · intro tolerated
    cases tolerated with
    | list member => exact .inl ⟨rfl, .inl member⟩
    | term member => exact .inl ⟨rfl, .inr member⟩
    | mode ignoreCase => exact .inr ⟨rfl, ignoreCase, rfl⟩
  · rintro (⟨rfl, member | member⟩ | ⟨rfl, ignoreCase, rfl⟩)
    · exact .list member
    · exact .term member
    · exact .mode ignoreCase

/-- What the documentation tolerates: nothing, under any key. -/
def Nothing (_ : String) (_ : Json) : Prop := False

/-- A key with a value that it takes, or with one that is tolerated there. -/
def Means (tolerated : String → Json → Prop) (key : String) (v : Json) : Prop :=
  (Comparison.ofJson? key v).isSome ∨
    (key = "mode" ∧ ∃ ignoreCase, v = .str (modeWord ignoreCase)) ∨ tolerated key v

/-- The keys, by what they take. -/
theorem mem_keys_iff {key : String} :
    key ∈ keys ↔ key ∈ ["equals", "not", "lt", "lte", "gt", "gte"] ∨ key ∈ ["in", "notIn"] ∨
      key ∈ ["contains", "startsWith", "endsWith"] ∨ key = "mode" := by
  simp only [keys, List.mem_cons, List.not_mem_nil, or_false]
  grind

section Keys

variable {key : String} {v : Json} {f f' : Filter}

/-- A key is read when it means something. -/
theorem exists_setKey_iff (known : key ∈ keys) :
    (∃ f', setKey key v f = .ok f') ↔ Means Tolerates key v := by
  have scalar {put : Scalar → Filter} :
      (∃ f', (readScalar v).bind (fun s => .ok (put s)) = .ok f') ↔ (Scalar.ofJson? v).isSome := by
    simp only [bind_eq_ok, readScalar_eq_ok, Option.isSome_iff_exists]
    exact ⟨fun ⟨_, s, h, _⟩ => ⟨s, h⟩, fun ⟨s, h⟩ => ⟨_, s, h, rfl⟩⟩
  have absent {α : Type} {read : Json → Except ShapeError α} {operand? : Json → Option α}
      (reads : ∀ v a, read v = .ok a ↔ operand? v = some a) (none_ : operand? .null = none)
      {put : Option α → Filter} :
      (∃ f', (Json.optional read v).bind (fun o => .ok (put o)) = .ok f') ↔
        (operand? v).isSome ∨ v = .null := by
    simp only [bind_eq_ok, optional_eq_ok_iff reads none_]
    exact ⟨fun ⟨_, _, ⟨_, h⟩, _⟩ => h, fun h => ⟨_, _, ⟨rfl, h⟩, rfl⟩⟩
  have mode {put : Bool → Filter} :
      (∃ f', (readMode v).bind (fun b => .ok (put b)) = .ok f') ↔
        ∃ b, v = .str (modeWord b) ∨ v = .obj [(modeWord b, .null)] := by
    simp only [bind_eq_ok, readMode_eq_ok]
    exact ⟨fun ⟨_, b, h, _⟩ => ⟨b, h⟩, fun ⟨b, h⟩ => ⟨_, b, h, rfl⟩⟩
  rw [Means, tolerates_iff]
  rcases mem_keys_iff.mp known with one | list | term | rfl
  · simp only [List.mem_cons, List.not_mem_nil, or_false] at one
    rcases one with rfl | rfl | rfl | rfl | rfl | rfl <;>
    · refine scalar.trans ?_
      simp [Comparison.ofJson?]
  · simp only [List.mem_cons, List.not_mem_nil, or_false] at list
    rcases list with rfl | rfl <;>
    · refine (absent (fun _ _ => readScalars_eq_ok) rfl).trans ?_
      simp [Comparison.ofJson?]
  · simp only [List.mem_cons, List.not_mem_nil, or_false] at term
    rcases term with rfl | rfl | rfl <;>
    · refine (absent (fun _ _ => asText_eq_ok) rfl).trans ?_
      simp [Comparison.ofJson?]
  · refine mode.trans ?_
    simp [Comparison.ofJson?, exists_or]

/-- **What reading a key does**: the filter has the comparison that the key and its value make, and
under other keys it has what it had. -/
theorem of_setKey (known : key ∈ keys) (set : setKey key v f = .ok f') (c : Comparison) :
    c.Of f' ↔ if c.key = key then Comparison.ofJson? key v = some c else c.Of f := by
  have scalar {put : Scalar → Filter} (set : (readScalar v).bind (fun s => .ok (put s)) = .ok f') :
      ∃ s, Scalar.ofJson? v = some s ∧ f' = put s := by
    obtain ⟨s, read, same⟩ := bind_eq_ok.mp set
    exact ⟨s, readScalar_eq_ok.mp read, (Except.ok.inj same).symm⟩
  have absent {α : Type} {read : Json → Except ShapeError α} {operand? : Json → Option α}
      (reads : ∀ v a, read v = .ok a ↔ operand? v = some a) (none_ : operand? .null = none)
      {put : Option α → Filter}
      (set : (Json.optional read v).bind (fun o => .ok (put o)) = .ok f') : f' = put (operand? v) := by
    obtain ⟨o, read, same⟩ := bind_eq_ok.mp set
    rw [((optional_eq_ok_iff reads none_).mp read).1] at same
    exact (Except.ok.inj same).symm
  -- key by key: the comparison of the key is the one that was put, every other one stays
  rcases mem_keys_iff.mp known with one | list | term | rfl
  · simp only [List.mem_cons, List.not_mem_nil, or_false] at one
    rcases one with rfl | rfl | rfl | rfl | rfl | rfl <;>
    · obtain ⟨s, hs, rfl⟩ := scalar set
      rcases c with _ | _ | _ | _ | ⟨_ | _ | _ | _, _⟩ | ⟨_ | _ | _, _⟩ <;>
        simp [Comparison.Of, Comparison.key, Bound.key, Comparison.ofJson?, hs]
  · simp only [List.mem_cons, List.not_mem_nil, or_false] at list
    rcases list with rfl | rfl <;>
    · obtain rfl := absent (fun _ _ => readScalars_eq_ok) rfl set
      rcases c with _ | _ | _ | _ | ⟨_ | _ | _ | _, _⟩ | ⟨_ | _ | _, _⟩ <;>
        simp [Comparison.Of, Comparison.key, Bound.key, Comparison.ofJson?]
  · simp only [List.mem_cons, List.not_mem_nil, or_false] at term
    rcases term with rfl | rfl | rfl <;>
    · obtain rfl := absent (fun _ _ => asText_eq_ok) rfl set
      rcases c with _ | _ | _ | _ | ⟨_ | _ | _ | _, _⟩ | ⟨_ | _ | _, _⟩ <;>
        simp [Comparison.Of, Comparison.key, Bound.key, Comparison.ofJson?]
  · obtain ⟨b, -, same⟩ := bind_eq_ok.mp set
    obtain rfl := Except.ok.inj same
    rcases c with _ | _ | _ | _ | ⟨_ | _ | _ | _, _⟩ | ⟨_ | _ | _, _⟩ <;>
      simp [Comparison.Of, Comparison.key, Bound.key]

end Keys

/-! ## Operator objects -/

/-- **An operator object**: each key at most once, under each what it takes, and some comparison. -/
structure IsOperators (tolerated : String → Json → Prop) (fields : Keyed Json) : Prop where
  distinct : fields.Distinct
  means : ∀ field ∈ fields, Means tolerated field.1 field.2
  compares : ∃ field ∈ fields, (Comparison.ofJson? field.1 field.2).isSome

theorem mem_keys_of_ofJson? {key : String} {v : Json} {c : Comparison}
    (h : Comparison.ofJson? key v = some c) : c.key = key ∧ key ∈ keys := by
  unfold Comparison.ofJson? at h
  split at h
  all_goals first
    | cases h
    | obtain ⟨_, _, rfl⟩ := Option.map_eq_some_iff.mp h
      exact ⟨rfl, by decide⟩

/-- Only known keys mean anything. -/
theorem mem_keys_of_means {key : String} {v : Json} (means : Means Tolerates key v) :
    key ∈ keys := by
  rcases means with compares | ⟨rfl, -⟩ | tolerated
  · obtain ⟨c, h⟩ := Option.isSome_iff_exists.mp compares
    exact (mem_keys_of_ofJson? h).2
  · decide
  · rcases tolerates_iff.mp tolerated with ⟨-, list | term⟩ | ⟨rfl, -⟩
    · exact mem_keys_iff.mpr (.inr (.inl list))
    · exact mem_keys_iff.mpr (.inr (.inr (.inl term)))
    · decide

section Objects

variable {fields : Keyed Json} {f : Filter}

/-- An object is read when each key stands once and means something. -/
theorem exists_ofJson_iff :
    (∃ f, ofJson (.obj fields) = .ok f) ↔
      fields.Distinct ∧ ∀ field ∈ fields, Means Tolerates field.1 field.2 := by
  have sets : ∀ key ∈ shape.fields, ∀ v f,
      (∃ f', shape.set key v f = .ok f') ↔ Means Tolerates key v :=
    fun key known v f => exists_setKey_iff known
  refine (Json.RecordShape.exists_readFields_iff rfl sets fields [] {}).trans ?_
  constructor
  · rintro ⟨each, -, distinct⟩
    exact ⟨distinct, fun field hf => (each field hf).2⟩
  · rintro ⟨distinct, means⟩
    exact ⟨fun field hf => ⟨mem_keys_of_means (means field hf), means field hf⟩, nofun, distinct⟩

/-- Setting one key after the other collects the comparisons that they make. -/
theorem of_setAll (fields : Keyed Json) : ∀ (f f' : Filter), fields.Distinct →
    (∀ field ∈ fields, field.1 ∈ keys) → shape.setAll fields f = .ok f' → ∀ c : Comparison,
      c.Of f' ↔ (∃ field ∈ fields, Comparison.ofJson? field.1 field.2 = some c) ∨
        c.key ∉ fields.map (·.1) ∧ c.Of f := by
  induction fields with
  | nil =>
    intro f f' _ _ set c
    obtain rfl := Except.ok.inj set
    simp
  | cons field rest ih =>
    intro f f' distinct known set c
    obtain ⟨key, v⟩ := field
    rw [Keyed.Distinct, List.map_cons, List.nodup_cons] at distinct
    obtain ⟨hkey, hrest⟩ := List.forall_mem_cons.mp known
    rw [Json.RecordShape.setAll, List.foldlM_cons] at set
    obtain ⟨next, first, set⟩ := bind_eq_ok.mp set
    have made : (∃ field ∈ (key, v) :: rest, Comparison.ofJson? field.1 field.2 = some c) ↔
        Comparison.ofJson? key v = some c ∨
          ∃ field ∈ rest, Comparison.ofJson? field.1 field.2 = some c := by
      simp only [List.mem_cons, or_and_right, exists_or, exists_eq_left]
    rw [ih next f' distinct.2 hrest set c, of_setKey hkey first c, made, List.map_cons,
      List.mem_cons, not_or]
    by_cases own : c.key = key
    · have unrepeated : c.key ∉ rest.map (·.1) := own ▸ distinct.1
      rw [if_pos own, and_iff_right unrepeated, or_comm]
      exact (or_iff_left fun h => h.1.1 own).symm
    · have other : Comparison.ofJson? key v ≠ some c := fun h => own (mem_keys_of_ofJson? h).1
      rw [if_neg own, and_iff_right own, or_iff_right other]

/-- **No comparison of an object that is read is dropped, and none is added.** -/
theorem mem_comparisons_of_ofJson (read : ofJson (.obj fields) = .ok f) (c : Comparison) :
    c ∈ f.comparisons ↔ ∃ field ∈ fields, Comparison.ofJson? field.1 field.2 = some c := by
  obtain ⟨distinct, means⟩ := exists_ofJson_iff.mp ⟨f, read⟩
  have known : ∀ field ∈ fields, field.1 ∈ keys := fun field hf => mem_keys_of_means (means field hf)
  have set : shape.setAll fields {} = .ok f := by
    rw [← Json.RecordShape.readFields_of_distinct shape fields [] {}
      (fun field hf => List.contains_iff_mem.mpr (known field hf)) nofun distinct]
    exact read
  rw [Comparison.mem_comparisons, of_setAll fields {} f distinct known set c,
    ← Comparison.mem_comparisons]
  exact or_iff_left fun h => nomatch h.2

/-- **What the reader takes for an operator object.** -/
theorem exists_compares_iff :
    (∃ f, ofJson (.obj fields) = .ok f ∧ f.isBlank = false) ↔ IsOperators Tolerates fields := by
  have blank {f : Filter} (read : ofJson (.obj fields) = .ok f) :
      f.isBlank = false ↔ ∃ field ∈ fields, (Comparison.ofJson? field.1 field.2).isSome := by
    rw [isBlank, List.isEmpty_eq_false_iff_exists_mem]
    simp only [mem_comparisons_of_ofJson read, Option.isSome_iff_exists]
    constructor
    · rintro ⟨c, field, hf, h⟩
      exact ⟨field, hf, c, h⟩
    · rintro ⟨field, hf, c, h⟩
      exact ⟨c, field, hf, h⟩
  constructor
  · rintro ⟨f, read, compares⟩
    obtain ⟨distinct, means⟩ := exists_ofJson_iff.mp ⟨f, read⟩
    exact ⟨distinct, means, (blank read).mp compares⟩
  · rintro ⟨distinct, means, compares⟩
    obtain ⟨f, read⟩ := exists_ofJson_iff.mpr ⟨distinct, means⟩
    exact ⟨f, read, (blank read).mpr compares⟩

/-- What is tolerated under a key is not what the key takes. -/
theorem not_tolerates_of_means {key : String} {v : Json} (means : Means Nothing key v) :
    ¬ Tolerates key v := by
  intro tolerated
  rcases means with compares | ⟨rfl, ignoreCase, rfl⟩ | none_
  · rcases tolerates_iff.mp tolerated with ⟨rfl, list | term⟩ | ⟨rfl, -⟩
    · simp only [List.mem_cons, List.not_mem_nil, or_false] at list
      rcases list with rfl | rfl <;> cases compares
    · simp only [List.mem_cons, List.not_mem_nil, or_false] at term
      rcases term with rfl | rfl | rfl <;> cases compares
    · cases compares
  · cases tolerated
  · exact none_

/-- A documented operator object is one that is read, with nothing in it that is only tolerated. -/
theorem isOperators_documented_iff :
    IsOperators Nothing fields ↔
      IsOperators Tolerates fields ∧ ∀ field ∈ fields, ¬ Tolerates field.1 field.2 := by
  constructor
  · rintro ⟨distinct, means, compares⟩
    refine ⟨⟨distinct, fun field hf => ?_, compares⟩,
      fun field hf => not_tolerates_of_means (means field hf)⟩
    rcases means field hf with compares | mode | none_
    · exact .inl compares
    · exact .inr (.inl mode)
    · exact none_.elim
  · rintro ⟨⟨distinct, means, compares⟩, strict⟩
    refine ⟨distinct, fun field hf => ?_, compares⟩
    rcases means field hf with compares | mode | tolerated
    · exact .inl compares
    · exact .inr (.inl mode)
    · exact absurd tolerated (strict field hf)

end Objects

end Filter

end Roster
