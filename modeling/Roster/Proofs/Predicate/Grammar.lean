import Mathlib.Data.List.Forall2
import Roster.Proofs.Predicate.Decoded
import Roster.Proofs.Predicate.Operators

/-!
# The grammar of clauses

`IsClause` says which values are clauses, without saying how they are read: objects all of whose keys
are conditions. A connective has clauses under it, any other key a scalar, an operator object, or a
clause about a related record.

The reader takes the clauses in which operator objects are those of `Filter.Tolerates`, and every
operator object becomes a leaf with its comparisons (`clause_grammar`). The documentation tolerates
nothing. So an operator object can have a key that is no operator (`readClause_null_operand`), and the
documented clauses are those in which none has.
-/

namespace Roster.Predicate

/-! ## Clauses -/

mutual

/-- A clause: an object of conditions. -/
inductive IsClause (tolerated : String → Json → Prop) : Json → Prop
  | conditions {fields : List (String × Json)} :
      (∀ field ∈ fields, IsCondition tolerated field.1 field.2) → IsClause tolerated (.obj fields)

/-- A key of a clause with what can stand under it. -/
inductive IsCondition (tolerated : String → Json → Prop) : String → Json → Prop
  | and {v : Json} : IsClause tolerated v → IsCondition tolerated "AND" v
  | andAll {items : List Json} : (∀ v ∈ items, IsClause tolerated v) →
      IsCondition tolerated "AND" (.arr items)
  | orAll {items : List Json} : (∀ v ∈ items, IsClause tolerated v) →
      IsCondition tolerated "OR" (.arr items)
  | not {v : Json} : IsClause tolerated v → IsCondition tolerated "NOT" v
  | notAll {items : List Json} : (∀ v ∈ items, IsClause tolerated v) →
      IsCondition tolerated "NOT" (.arr items)
  | scalar {key : String} {v : Json} : Path.isKey key = true → (Scalar.ofJson? v).isSome →
      IsCondition tolerated key v
  | operators {key : String} {fields : List (String × Json)} : Path.isKey key = true →
      Filter.IsOperators tolerated fields → IsCondition tolerated key (.obj fields)
  | relation {key : String} {fields : List (String × Json)} : Path.isKey key = true →
      (∀ field ∈ fields, field.1 ∉ Filter.keys) → IsClause tolerated (.obj fields) →
        IsCondition tolerated key (.obj fields)

end

section Inversion

variable {tolerated : String → Json → Prop} {key : String}

theorem isClause_obj {fields : List (String × Json)} :
    IsClause tolerated (.obj fields) ↔
      ∀ field ∈ fields, IsCondition tolerated field.1 field.2 :=
  ⟨fun (.conditions each) => each, .conditions⟩

theorem isClause_eq_obj {v : Json} (clause : IsClause tolerated v) : ∃ fields, v = .obj fields := by
  cases clause with
  | conditions each => exact ⟨_, rfl⟩

/-- The keys that are connectives. -/
theorem isSome_ofKey? :
    (Connective.ofKey? key).isSome ↔ key = "AND" ∨ key = "OR" ∨ key = "NOT" := by
  unfold Connective.ofKey?
  split
  · simp [*]
  · split
    · simp [*]
    · split <;> simp [*]

/-- A key is a connective or an identifier of its own, and not both. -/
theorem isKey_iff : Path.isKey key = true ↔
    Path.isName key = true ∧ Connective.ofKey? key = none := by
  rw [Path.isKey, Bool.and_eq_true, Option.isNone_iff_eq_none]

theorem hasOperatorKey_iff {fields : List (String × Json)} :
    hasOperatorKey fields = true ↔ ∃ field ∈ fields, field.1 ∈ Filter.keys := by
  simp [hasOperatorKey]

theorem hasOperatorKey_of_isOperators {fields : List (String × Json)}
    (operators : Filter.IsOperators tolerated fields) : hasOperatorKey fields = true := by
  obtain ⟨field, hf, compares⟩ := operators.compares
  obtain ⟨c, h⟩ := Option.isSome_iff_exists.mp compares
  exact hasOperatorKey_iff.mpr ⟨field, hf, (Filter.mem_keys_of_ofJson? h).2⟩

/-- Under an array there is a connective, over clauses. -/
theorem isCondition_arr {items : List Json} :
    IsCondition tolerated key (.arr items) ↔
      (Connective.ofKey? key).isSome ∧ ∀ v ∈ items, IsClause tolerated v := by
  rw [isSome_ofKey?]
  constructor
  · intro condition
    cases condition with
    | and clause => cases clause
    | andAll each => exact ⟨.inl rfl, each⟩
    | orAll each => exact ⟨.inr (.inl rfl), each⟩
    | not clause => cases clause
    | notAll each => exact ⟨.inr (.inr rfl), each⟩
    | scalar _ scalar => cases scalar
  · rintro ⟨rfl | rfl | rfl, each⟩
    · exact .andAll each
    · exact .orAll each
    · exact .notAll each

/-- An object under `AND` or `NOT` is a clause. -/
theorem isCondition_obj_connective {connective : Connective}
    (h : Connective.ofKey? key = some connective) {fields : List (String × Json)} :
    IsCondition tolerated key (.obj fields) ↔
      connective ≠ .or ∧ IsClause tolerated (.obj fields) := by
  have noKey : Path.isKey key ≠ true := by simp [isKey_iff, h]
  have named : key = "AND" ∨ key = "OR" ∨ key = "NOT" := isSome_ofKey?.mp (by rw [h]; rfl)
  constructor
  · intro condition
    cases condition with
    | and clause =>
      cases h
      exact ⟨nofun, clause⟩
    | not clause =>
      cases h
      exact ⟨nofun, clause⟩
    | scalar isKey => exact absurd isKey noKey
    | operators isKey => exact absurd isKey noKey
    | relation isKey => exact absurd isKey noKey
  · rintro ⟨noOr, clause⟩
    rcases named with rfl | rfl | rfl
    · exact .and clause
    · cases h
      exact absurd rfl noOr
    · exact .not clause

/-- An object under any other key is an operator object, or a clause without operator keys. -/
theorem isCondition_obj_key (h : Connective.ofKey? key = none) {fields : List (String × Json)} :
    IsCondition tolerated key (.obj fields) ↔
      Path.isName key = true ∧
        if hasOperatorKey fields then Filter.IsOperators tolerated fields
        else IsClause tolerated (.obj fields) := by
  constructor
  · intro condition
    cases condition with
    | and => cases h
    | not => cases h
    | scalar _ scalar => cases scalar
    | operators isKey operators =>
      rw [if_pos (hasOperatorKey_of_isOperators operators)]
      exact ⟨(isKey_iff.mp isKey).1, operators⟩
    | relation isKey free clause =>
      rw [if_neg (by simpa [hasOperatorKey_iff] using free)]
      exact ⟨(isKey_iff.mp isKey).1, clause⟩
  · rintro ⟨name, below⟩
    have isKey := isKey_iff.mpr ⟨name, h⟩
    split at below
    · exact .operators isKey below
    · next free => exact .relation isKey (by simpa [hasOperatorKey_iff] using free) below

/-- A scalar stands under a key that is no connective. -/
theorem isCondition_scalar {v : Json} (scalar : (Scalar.ofJson? v).isSome) :
    IsCondition tolerated key v ↔ Path.isKey key = true := by
  constructor
  · intro condition
    cases condition with
    | scalar isKey => exact isKey
    | and clause | not clause =>
      obtain ⟨fields, rfl⟩ := isClause_eq_obj clause
      cases scalar
    | _ => cases scalar
  · exact fun isKey => .scalar isKey scalar

end Inversion

/-! ## Which values are read -/

theorem isSome_ofJson?_num (n : Json.Number) : (Scalar.ofJson? (.num n)).isSome := by
  cases n with
  | int i =>
    rw [Scalar.ofJson?]
    split <;> rfl
  | float d => rfl

theorem exists_bind_ok_iff {ε α β : Type} {x : Except ε α} {g : α → β} :
    (∃ b, x.bind (fun a => .ok (g a)) = .ok b) ↔ ∃ a, x = .ok a := by
  simp only [bind_eq_ok]
  exact ⟨fun ⟨_, a, h, _⟩ => ⟨a, h⟩, fun ⟨a, h⟩ => ⟨_, a, h, rfl⟩⟩

/-- A list is read when its head and its tail are. -/
theorem exists_bind_cons_iff {ε α : Type} {x : Except ε α} {xs : Except ε (List α)} :
    (∃ all, (x.bind fun a => xs.bind fun as => .ok (a :: as)) = .ok all) ↔
      (∃ a, x = .ok a) ∧ ∃ as, xs = .ok as := by
  constructor
  · rintro ⟨all, read⟩
    obtain ⟨a, first, read⟩ := bind_eq_ok.mp read
    obtain ⟨as, rest, -⟩ := bind_eq_ok.mp read
    exact ⟨⟨a, first⟩, ⟨as, rest⟩⟩
  · rintro ⟨⟨a, first⟩, ⟨as, rest⟩⟩
    exact ⟨a :: as, bind_eq_ok.mpr ⟨a, first, bind_eq_ok.mpr ⟨as, rest, rfl⟩⟩⟩

theorem exists_pathAt_iff (hops : List String) {key : String} :
    (∃ path, pathAt hops key = .ok path) ↔ Path.isName key = true := by
  unfold pathAt
  split <;> simp [*]

theorem exists_readPlain_iff {hops : List String} {key : String} {v : Json}
    (scalar : (Scalar.ofJson? v).isSome) :
    (∃ p, readPlain hops key v = .ok p) ↔ Path.isKey key = true := by
  obtain ⟨s, hs⟩ := Option.isSome_iff_exists.mp scalar
  rw [isKey_iff]
  unfold readPlain
  cases h : Connective.ofKey? key with
  | some connective => cases connective <;> simp
  | none =>
    simp only [hs]
    exact exists_bind_ok_iff.trans ((exists_pathAt_iff hops).trans (and_iff_left trivial).symm)

theorem exists_readOperator_iff {path : Path} {fields : List (String × Json)} :
    (∃ p, readOperator path (.obj fields) = .ok p) ↔
      Filter.IsOperators Filter.Tolerates fields := by
  rw [← Filter.exists_compares_iff]
  constructor
  · rintro ⟨p, read⟩
    obtain ⟨f, decoded, compares, -⟩ := readOperator_eq_ok read
    exact ⟨f, decoded, compares⟩
  · rintro ⟨f, decoded, compares⟩
    refine ⟨.operator path f, ?_⟩
    rw [readOperator, decoded]
    simp [compares]

mutual

/-- **A clause is read where operator objects are tolerated as the reader does.** -/
theorem exists_readClause_iff (hops : List String) : (v : Json) →
    ((∃ p, readClause hops v = .ok p) ↔ IsClause Filter.Tolerates v)
  | .obj fields =>
    (exists_bind_ok_iff.trans (exists_readFields_iff hops fields)).trans isClause_obj.symm
  | .null => ⟨nofun, nofun⟩
  | .bool _ => ⟨nofun, nofun⟩
  | .num _ => ⟨nofun, nofun⟩
  | .str _ => ⟨nofun, nofun⟩
  | .arr _ => ⟨nofun, nofun⟩

theorem exists_readItems_iff (hops : List String) : (items : List Json) →
    ((∃ ps, readItems hops items = .ok ps) ↔ ∀ v ∈ items, IsClause Filter.Tolerates v)
  | [] => ⟨fun _ => nofun, fun _ => ⟨[], rfl⟩⟩
  | v :: rest => by
    rw [List.forall_mem_cons, ← exists_readClause_iff hops v, ← exists_readItems_iff hops rest]
    exact exists_bind_cons_iff

theorem exists_readFields_iff (hops : List String) : (fields : List (String × Json)) →
    ((∃ ps, readFields hops fields = .ok ps) ↔
      ∀ field ∈ fields, IsCondition Filter.Tolerates field.1 field.2)
  | [] => ⟨fun _ => nofun, fun _ => ⟨[], rfl⟩⟩
  | (key, v) :: rest => by
    rw [List.forall_mem_cons, ← exists_readKey_iff hops key v, ← exists_readFields_iff hops rest]
    exact exists_bind_cons_iff

theorem exists_readKey_iff (hops : List String) (key : String) : (v : Json) →
    ((∃ p, readKey hops key v = .ok p) ↔ IsCondition Filter.Tolerates key v)
  | .arr items => by
    rw [readKey, isCondition_arr]
    cases h : Connective.ofKey? key with
    | none =>
      refine ⟨?_, nofun⟩
      rintro ⟨p, read⟩
      obtain ⟨_, _, refused⟩ := bind_eq_ok.mp read
      cases refused
    | some connective =>
      have read := exists_readItems_iff hops items
      cases connective <;>
        exact (exists_bind_ok_iff.trans read).trans (and_iff_right rfl).symm
  | .obj fields => by
    rw [readKey]
    cases h : Connective.ofKey? key with
    | some connective =>
      rw [isCondition_obj_connective h, isClause_obj, ← exists_readFields_iff hops fields]
      cases connective with
      | or => exact ⟨nofun, fun ⟨noOr, _⟩ => absurd rfl noOr⟩
      | and => exact exists_bind_ok_iff.trans (and_iff_right nofun).symm
      | not => exact exists_bind_ok_iff.trans (and_iff_right nofun).symm
    | none =>
      rw [isCondition_obj_key h, ← exists_pathAt_iff hops]
      -- what is read under the key does not depend on its path
      have below (path : Path) :
          (∃ p, (if hasOperatorKey fields then readOperator path (.obj fields)
            else (readFields path.segments fields).bind fun ps => .ok (combine ps)) = .ok p) ↔
          if hasOperatorKey fields then Filter.IsOperators Filter.Tolerates fields
          else IsClause Filter.Tolerates (.obj fields) := by
        split
        · exact exists_readOperator_iff
        · rw [isClause_obj, ← exists_readFields_iff path.segments fields]
          exact exists_bind_ok_iff
      constructor
      · rintro ⟨p, read⟩
        obtain ⟨path, at_key, read⟩ := bind_eq_ok.mp read
        exact ⟨⟨path, at_key⟩, (below path).mp ⟨p, read⟩⟩
      · rintro ⟨⟨path, at_key⟩, clause⟩
        obtain ⟨p, read⟩ := (below path).mpr clause
        exact ⟨p, bind_eq_ok.mpr ⟨path, at_key, read⟩⟩
  | .null => (exists_readPlain_iff rfl).trans (isCondition_scalar rfl).symm
  | .bool _ => (exists_readPlain_iff rfl).trans (isCondition_scalar rfl).symm
  | .num n =>
    (exists_readPlain_iff (isSome_ofJson?_num n)).trans
      (isCondition_scalar (isSome_ofJson?_num n)).symm
  | .str _ => (exists_readPlain_iff rfl).trans (isCondition_scalar rfl).symm

end

/-! ## Operator objects and their leaves -/

mutual

/-- The operator objects of a clause, each with its path, in the order in which they are read. -/
def operatorsIn (hops : List String) : Json → List (Path × List (String × Json))
  | .obj fields => operatorsInFields hops fields
  | _ => []

/-- The operator objects of several clauses. -/
def operatorsInItems (hops : List String) : List Json → List (Path × List (String × Json))
  | [] => []
  | v :: rest => operatorsIn hops v ++ operatorsInItems hops rest

/-- The operator objects of several conditions. -/
def operatorsInFields (hops : List String) : List (String × Json) → List (Path × List (String × Json))
  | [] => []
  | (key, v) :: rest => operatorsUnder hops key v ++ operatorsInFields hops rest

/-- The operator objects of one condition. -/
def operatorsUnder (hops : List String) (key : String) : Json → List (Path × List (String × Json))
  | .arr items => operatorsInItems hops items
  | .obj fields =>
    if (Connective.ofKey? key).isSome then operatorsInFields hops fields
    else if hasOperatorKey fields then [(⟨hops ++ [key]⟩, fields)]
    else operatorsInFields (hops ++ [key]) fields
  | _ => []

end

/-- The predicate is a leaf with operators. -/
def isOperator : Predicate → Bool
  | .operator _ _ => true
  | _ => false

/-- The leaf has the path of the operator object and its comparisons, all of them and no others. -/
def Carries (object : Path × List (String × Json)) (leaf : Predicate) : Prop :=
  ∃ f, leaf = .operator object.1 f ∧
    ∀ c, c ∈ f.comparisons ↔ ∃ field ∈ object.2, Comparison.ofJson? field.1 field.2 = some c

theorem filter_isOperator_combine (ps : List Predicate) :
    (combine ps).leaves.filter isOperator = (leavesOfAll ps).filter isOperator := by
  rw [leaves_combine]

theorem carries_readOperator {path : Path} {fields : List (String × Json)} {p : Predicate}
    (read : readOperator path (.obj fields) = .ok p) :
    List.Forall₂ Carries [(path, fields)] (p.leaves.filter isOperator) := by
  obtain ⟨f, decoded, -, rfl⟩ := readOperator_eq_ok read
  refine List.Forall₂.cons ⟨f, rfl, ?_⟩ List.Forall₂.nil
  exact Filter.mem_comparisons_of_ofJson decoded

/-- A value that is no object and no array holds no operator object, and becomes no such leaf. -/
theorem carries_readPlain {hops : List String} {key : String} {v : Json} {p : Predicate}
    (read : readPlain hops key v = .ok p) :
    List.Forall₂ Carries [] (p.leaves.filter isOperator) := by
  obtain ⟨-, value, -, rfl⟩ := readPlain_eq_ok read
  exact List.Forall₂.nil

theorem carries_cons {objects others : List (Path × List (String × Json))} {p : Predicate}
    {ps : List Predicate} (first : List.Forall₂ Carries objects (p.leaves.filter isOperator))
    (rest : List.Forall₂ Carries others ((leavesOfAll ps).filter isOperator)) :
    List.Forall₂ Carries (objects ++ others) ((leavesOfAll (p :: ps)).filter isOperator) := by
  rw [leavesOfAll, List.filter_append]
  exact List.rel_append first rest

mutual

/-- **The operator objects of a clause become its operator leaves**, one by one. -/
theorem carries_readClause (hops : List String) : (v : Json) → ∀ p, readClause hops v = .ok p →
    List.Forall₂ Carries (operatorsIn hops v) (p.leaves.filter isOperator)
  | .obj fields => by
    intro p read
    obtain ⟨ps, each, combined⟩ := bind_eq_ok.mp read
    cases combined
    rw [filter_isOperator_combine]
    exact carries_readFields hops fields ps each
  | .null => nofun
  | .bool _ => nofun
  | .num _ => nofun
  | .str _ => nofun
  | .arr _ => nofun

theorem carries_readItems (hops : List String) : (items : List Json) →
    ∀ ps, readItems hops items = .ok ps →
      List.Forall₂ Carries (operatorsInItems hops items) ((leavesOfAll ps).filter isOperator)
  | [] => by
    intro ps read
    cases read
    exact List.Forall₂.nil
  | v :: rest => by
    intro ps read
    obtain ⟨p, first, read⟩ := bind_eq_ok.mp read
    obtain ⟨others, each, listed⟩ := bind_eq_ok.mp read
    cases listed
    exact carries_cons (carries_readClause hops v p first) (carries_readItems hops rest others each)

theorem carries_readFields (hops : List String) : (fields : List (String × Json)) →
    ∀ ps, readFields hops fields = .ok ps →
      List.Forall₂ Carries (operatorsInFields hops fields) ((leavesOfAll ps).filter isOperator)
  | [] => by
    intro ps read
    cases read
    exact List.Forall₂.nil
  | (key, v) :: rest => by
    intro ps read
    obtain ⟨p, first, read⟩ := bind_eq_ok.mp read
    obtain ⟨others, each, listed⟩ := bind_eq_ok.mp read
    cases listed
    exact carries_cons (carries_readKey hops key v p first)
      (carries_readFields hops rest others each)

theorem carries_readKey (hops : List String) (key : String) : (v : Json) →
    ∀ p, readKey hops key v = .ok p →
      List.Forall₂ Carries (operatorsUnder hops key v) (p.leaves.filter isOperator)
  | .arr items => by
    intro p read
    obtain ⟨connective, ps, -, each, rfl⟩ := readKey_arr_eq_ok read
    cases connective <;> exact carries_readItems hops items ps each
  | .obj fields => by
    intro p read
    rw [operatorsUnder]
    obtain ⟨joins, ps, each, joined⟩ | ⟨isKey, operators, read⟩ |
      ⟨isKey, operators, ps, each, rfl⟩ := readKey_obj_eq_ok read
    · rw [if_pos joins, leaves_of_joined joined]
      exact carries_readFields hops fields ps each
    · rw [if_neg (by simp [(isKey_iff.mp isKey).2]), if_pos operators]
      exact carries_readOperator read
    · rw [if_neg (by simp [(isKey_iff.mp isKey).2]), if_neg (by simp [operators]),
        filter_isOperator_combine]
      exact carries_readFields (hops ++ [key]) fields ps each
  | .null => fun _ read => carries_readPlain read
  | .bool _ => fun _ read => carries_readPlain read
  | .num _ => fun _ read => carries_readPlain read
  | .str _ => fun _ read => carries_readPlain read

end

/-! ## Documented clauses -/

/-- Nothing in the operator objects is only tolerated. -/
def IsStrict (objects : List (Path × List (String × Json))) : Prop :=
  ∀ object ∈ objects, ∀ field ∈ object.2, ¬ Filter.Tolerates field.1 field.2

theorem isStrict_append {objects others : List (Path × List (String × Json))} :
    IsStrict (objects ++ others) ↔ IsStrict objects ∧ IsStrict others :=
  List.forall_mem_append

theorem isCondition_scalar_documented {key : String} {v : Json}
    (scalar : (Scalar.ofJson? v).isSome) :
    IsCondition Filter.Nothing key v ↔ IsCondition Filter.Tolerates key v ∧ IsStrict [] := by
  have strict : IsStrict [] := nofun
  rw [isCondition_scalar scalar, isCondition_scalar scalar, and_iff_left strict]

mutual

/-- A documented clause is one that is read, with strict operator objects. -/
theorem isClause_documented_iff (hops : List String) : (v : Json) →
    (IsClause Filter.Nothing v ↔ IsClause Filter.Tolerates v ∧ IsStrict (operatorsIn hops v))
  | .obj fields => by
    rw [isClause_obj, isClause_obj, operatorsIn]
    exact areConditions_documented_iff hops fields
  | .null => ⟨nofun, nofun⟩
  | .bool _ => ⟨nofun, nofun⟩
  | .num _ => ⟨nofun, nofun⟩
  | .str _ => ⟨nofun, nofun⟩
  | .arr _ => ⟨nofun, nofun⟩

theorem areClauses_documented_iff (hops : List String) : (items : List Json) →
    ((∀ v ∈ items, IsClause Filter.Nothing v) ↔
      (∀ v ∈ items, IsClause Filter.Tolerates v) ∧ IsStrict (operatorsInItems hops items))
  | [] => ⟨fun _ => ⟨nofun, nofun⟩, fun _ => nofun⟩
  | v :: rest => by
    rw [List.forall_mem_cons, List.forall_mem_cons, operatorsInItems, isStrict_append,
      isClause_documented_iff hops v, areClauses_documented_iff hops rest]
    exact and_and_and_comm

theorem areConditions_documented_iff (hops : List String) : (fields : List (String × Json)) →
    ((∀ field ∈ fields, IsCondition Filter.Nothing field.1 field.2) ↔
      (∀ field ∈ fields, IsCondition Filter.Tolerates field.1 field.2) ∧
        IsStrict (operatorsInFields hops fields))
  | [] => ⟨fun _ => ⟨nofun, nofun⟩, fun _ => nofun⟩
  | (key, v) :: rest => by
    rw [List.forall_mem_cons, List.forall_mem_cons, operatorsInFields, isStrict_append,
      isCondition_documented_iff hops key v, areConditions_documented_iff hops rest]
    exact and_and_and_comm

theorem isCondition_documented_iff (hops : List String) (key : String) : (v : Json) →
    (IsCondition Filter.Nothing key v ↔
      IsCondition Filter.Tolerates key v ∧ IsStrict (operatorsUnder hops key v))
  | .arr items => by
    rw [isCondition_arr, isCondition_arr, operatorsUnder, areClauses_documented_iff hops items,
      and_assoc]
  | .obj fields => by
    rw [operatorsUnder]
    cases h : Connective.ofKey? key with
    | some connective =>
      rw [if_pos Option.isSome_some, isCondition_obj_connective h, isCondition_obj_connective h,
        isClause_obj, isClause_obj, areConditions_documented_iff hops fields, and_assoc]
    | none =>
      rw [if_neg nofun, isCondition_obj_key h, isCondition_obj_key h]
      by_cases operators : hasOperatorKey fields = true
      · rw [if_pos operators, if_pos operators, if_pos operators, and_assoc]
        have only : IsStrict [((⟨hops ++ [key]⟩ : Path), fields)] ↔
            ∀ field ∈ fields, ¬ Filter.Tolerates field.1 field.2 := List.forall_mem_singleton
        rw [only]
        exact and_congr_right fun _ => Filter.isOperators_documented_iff
      · rw [if_neg operators, if_neg operators, if_neg operators, isClause_obj, isClause_obj,
          areConditions_documented_iff (hops ++ [key]) fields, and_assoc]
  | .null => isCondition_scalar_documented rfl
  | .bool _ => isCondition_scalar_documented rfl
  | .num n => isCondition_scalar_documented (isSome_ofJson?_num n)
  | .str _ => isCondition_scalar_documented rfl

end

/-- **Which clauses are read, and what becomes of their operators.** A value is read just when it is
a clause in which operator objects are tolerated as the reader does. The documented clauses are those
among them in which nothing is only tolerated. And every operator object becomes a leaf under its
path that has its comparisons, all of them and no others. -/
theorem clause_grammar (v : Json) :
    ((∃ p, ofJson v = .ok p) ↔ IsClause Filter.Tolerates v) ∧
      (IsClause Filter.Nothing v ↔ (∃ p, ofJson v = .ok p) ∧ IsStrict (operatorsIn [] v)) ∧
      ∀ p, ofJson v = .ok p →
        List.Forall₂ Carries (operatorsIn [] v) (p.leaves.filter isOperator) := by
  have read : (∃ p, ofJson v = .ok p) ↔ IsClause Filter.Tolerates v := exists_readClause_iff [] v
  refine ⟨read, ?_, carries_readClause [] v⟩
  rw [read]
  exact isClause_documented_iff [] v

/-- **An operator key can be dropped.** Beside another operator `null` under `in` is read as nothing,
and the leaf has no comparison of that key. -/
theorem readClause_null_operand :
    let fields : List (String × Json) := [("in", .null), ("equals", .str "NEW")]
    let v : Json := .obj [("status", .obj fields)]
    let leaf : Filter := { equals := some (.text "NEW") }
    ofJson v = .ok (.operator ⟨["status"]⟩ leaf) ∧ (∀ c ∈ leaf.comparisons, c.key ≠ "in") ∧
      ¬ IsClause Filter.Nothing v := by
  intro fields v leaf
  have read : ofJson v = .ok (.operator ⟨["status"]⟩ leaf) := by rfl
  refine ⟨read, by decide, fun documented => ?_⟩
  have strict := ((isClause_documented_iff [] v).mp documented).2
  have tolerated : Filter.Tolerates "in" .null := .list List.mem_cons_self
  exact strict (⟨["status"]⟩, fields) List.mem_cons_self ("in", .null) List.mem_cons_self tolerated

end Roster.Predicate
