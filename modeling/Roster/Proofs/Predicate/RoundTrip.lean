import Roster.Predicate.Clause
import Roster.Proofs.Filter

/-!
# Clauses read back

The clause that a predicate is written as is read as the same predicate exactly when each of its
leaves has a path that a clause can spell. Three kinds of leaves have none: one with a segment that
is no identifier or is a connective, one with an operator key behind its first segment, which makes
the object around it an operator object, and an operator leaf that compares nothing. Connectives
themselves are no hindrance, however they are nested.
-/

namespace Roster

/-- A key that opens a field or a relation: an identifier that is no connective. -/
def Path.isKey (segment : String) : Bool :=
  isName segment && (Connective.ofKey? segment).isNone

/-- The path can be spelled by the keys of a clause. Behind the first segment an operator key would
stand inside an object under a path, where it is read as an operator. -/
def Path.isSpelled (path : Path) : Bool :=
  path.segments.all isKey && path.segments.tail.all fun segment => !Filter.keys.contains segment

namespace Predicate

/-- A leaf that a clause can say. -/
def isReadable : Predicate → Bool
  | .equals path _ => path.isSpelled
  | .operator path filter => path.isSpelled && !filter.isBlank
  | _ => true

theorem nest_cons (segment : String) (rest : List String) (v : Json) :
    nest ⟨segment :: rest⟩ v = .obj [(segment, nest ⟨rest⟩ v)] := rfl

theorem readClause_single (hops : List String) (key : String) (v : Json) :
    readClause hops (.obj [(key, v)]) = readKey hops key v := by
  simp only [readClause, readFields]
  cases readKey hops key v <;> rfl

/-- A key that is no connective opens an operator object or a clause below its path. -/
theorem readKey_obj {hops : List String} {key : String} (isKey : Path.isKey key = true)
    (fields : List (String × Json)) :
    readKey hops key (.obj fields) =
      if hasOperatorKey fields then readOperator ⟨hops ++ [key]⟩ (.obj fields)
      else readClause (hops ++ [key]) (.obj fields) := by
  simp only [Path.isKey, Bool.and_eq_true, Option.isNone_iff_eq_none] at isKey
  simp only [readKey, isKey.2, pathAt, isKey.1, if_true, readClause]
  rfl

theorem hasOperatorKey_toFields (f : Filter) :
    hasOperatorKey f.toFields = !f.toFields.isEmpty := by
  have known := (Filter.names_toFields f).subset
  cases h : f.toFields with
  | nil => rfl
  | cons field rest =>
    have first : field.1 ∈ Filter.keys := known (by simp [h])
    simp [hasOperatorKey, first]

/-! ## What is written is read -/

theorem readKey_scalar {hops : List String} {key : String} (isKey : Path.isKey key = true)
    (value : Scalar) : readKey hops key value.toJson = .ok (.equals ⟨hops ++ [key]⟩ value) := by
  have plain : readKey hops key value.toJson = readPlain hops key value.toJson := by
    cases value <;> rfl
  simp only [Path.isKey, Bool.and_eq_true, Option.isNone_iff_eq_none] at isKey
  rw [plain, readPlain, isKey.2]
  simp only [pathAt, isKey.1, if_true, Scalar.ofJson?_toJson]
  rfl

theorem readKey_filter {hops : List String} {key : String} (isKey : Path.isKey key = true)
    {filter : Filter} (compares : filter.isBlank = false) :
    readKey hops key filter.toJson = .ok (.operator ⟨hops ++ [key]⟩ filter) := by
  have operators : hasOperatorKey filter.toFields = true := by
    simp [hasOperatorKey_toFields, Filter.toFields_ne_nil compares]
  have back := Filter.ofJson_toJson filter
  rw [Filter.toJson] at back
  rw [Filter.toJson, readKey_obj isKey, if_pos operators, readOperator, back]
  simp only [compares, Bool.false_eq_true, if_false]

/-- What is read under one key is read under a path that the keys can spell. -/
theorem readKey_nest (leaf : Path → Predicate) {v : Json}
    (reads : ∀ hops key, Path.isKey key = true →
      readKey hops key v = .ok (leaf ⟨hops ++ [key]⟩)) (rest : List String) :
    ∀ (hops : List String) (key : String), Path.isSpelled ⟨key :: rest⟩ = true →
      readKey hops key (nest ⟨rest⟩ v) = .ok (leaf ⟨hops ++ key :: rest⟩) := by
  induction rest with
  | nil =>
    intro hops key spelled
    exact reads hops key (by simpa [Path.isSpelled] using spelled)
  | cons next rest ih =>
    intro hops key spelled
    simp only [Path.isSpelled, List.all_cons, List.tail_cons, Bool.and_eq_true,
      Bool.not_eq_true'] at spelled
    obtain ⟨⟨isKey, isNextKey, keys⟩, noOperator, noOperators⟩ := spelled
    have below : Path.isSpelled ⟨next :: rest⟩ = true := by
      simp only [Path.isSpelled, List.all_cons, List.tail_cons, isNextKey, keys, noOperators,
        Bool.and_self]
    have opens : hasOperatorKey [(next, nest ⟨rest⟩ v)] = false := by
      simpa [hasOperatorKey] using noOperator
    rw [nest_cons, readKey_obj isKey, opens, if_neg Bool.false_ne_true, readClause_single,
      ih _ _ below, List.append_assoc, List.singleton_append]

/-- Every clause that is written is an object. -/
theorem toJson_eq_obj {p : Predicate} (rooted : ∀ path ∈ p.paths, path.segments ≠ []) :
    ∃ fields, p.toJson = .obj fields := by
  match p with
  | .equals ⟨segment :: rest⟩ value => exact ⟨_, rfl⟩
  | .operator ⟨segment :: rest⟩ filter => exact ⟨_, rfl⟩
  | .equals ⟨[]⟩ value => exact absurd rfl (rooted ⟨[]⟩ (by simp [paths]))
  | .operator ⟨[]⟩ filter => exact absurd rfl (rooted ⟨[]⟩ (by simp [paths]))
  | .and [] => exact ⟨_, rfl⟩
  | .and (_ :: _) => exact ⟨_, rfl⟩
  | .or _ => exact ⟨_, rfl⟩
  | .not _ => exact ⟨_, rfl⟩

/-- A negated clause is read where the clause is. -/
theorem readKey_not (fields : List (String × Json)) :
    readKey [] "NOT" (.obj fields) = (readClause [] (.obj fields)).map Predicate.not := by
  rw [readKey, readClause]
  cases readFields [] fields <;> rfl

theorem readKey_and (items : List Json) :
    readKey [] "AND" (.arr items) = (readItems [] items).map Predicate.and := by
  rw [readKey]
  cases readItems [] items <;> rfl

theorem readKey_or (items : List Json) :
    readKey [] "OR" (.arr items) = (readItems [] items).map Predicate.or := by
  rw [readKey]
  cases readItems [] items <;> rfl

mutual

/-- **A predicate with readable leaves is read back as it is.** -/
theorem ofJson_toJson_of_readable : (p : Predicate) →
    (∀ path ∈ p.paths, path.segments ≠ []) → (∀ leaf ∈ p.leaves, leaf.isReadable = true) →
    ofJson p.toJson = .ok p
  | .equals ⟨[]⟩ value, rooted, _ => absurd rfl (rooted ⟨[]⟩ (by simp [paths]))
  | .equals ⟨key :: rest⟩ value, _, readable => by
    have spelled : (Predicate.equals ⟨key :: rest⟩ value).isReadable = true :=
      readable _ (by simp [leaves])
    rw [ofJson, toJson, nest_cons, readClause_single]
    exact readKey_nest (.equals · value) (fun hops key isKey => readKey_scalar isKey value)
      rest [] key spelled
  | .operator ⟨[]⟩ filter, rooted, _ => absurd rfl (rooted ⟨[]⟩ (by simp [paths]))
  | .operator ⟨key :: rest⟩ filter, _, readable => by
    have leaf : (Predicate.operator ⟨key :: rest⟩ filter).isReadable = true :=
      readable _ (by simp [leaves])
    simp only [isReadable, Bool.and_eq_true, Bool.not_eq_true'] at leaf
    rw [ofJson, toJson, nest_cons, readClause_single]
    exact readKey_nest (.operator · filter)
      (fun hops key isKey => readKey_filter isKey leaf.2) rest [] key leaf.1
  | .and [], _, _ => rfl
  | .and (p :: rest), rooted, readable => by
    have items := readItems_clauses (p :: rest) rooted readable
    rw [clauses] at items
    rw [ofJson, toJson, readClause_single, readKey_and, items]
    rfl
  | .or children, rooted, readable => by
    rw [ofJson, toJson, readClause_single, readKey_or, readItems_clauses children rooted readable]
    rfl
  | .not inner, rooted, readable => by
    have back := ofJson_toJson_of_readable inner rooted readable
    obtain ⟨fields, object⟩ := toJson_eq_obj (p := inner) rooted
    rw [object, ofJson] at back
    rw [ofJson, toJson, readClause_single, object, readKey_not, back]
    rfl

theorem readItems_clauses : (ps : List Predicate) →
    (∀ path ∈ pathsOfAll ps, path.segments ≠ []) →
    (∀ leaf ∈ leavesOfAll ps, leaf.isReadable = true) → readItems [] (clauses ps) = .ok ps
  | [], _, _ => rfl
  | p :: rest, rooted, readable => by
    have first := ofJson_toJson_of_readable p
      (fun path hp => rooted path (List.mem_append_left _ hp))
      (fun leaf hl => readable leaf (List.mem_append_left _ hl))
    have others := readItems_clauses rest
      (fun path hp => rooted path (List.mem_append_right _ hp))
      (fun leaf hl => readable leaf (List.mem_append_right _ hl))
    rw [ofJson] at first
    rw [clauses, readItems, first, others]
    rfl

end

/-! ## What a key is read as -/

section

variable {hops : List String} {key : String} {p : Predicate}

theorem pathAt_eq_ok {path : Path} (read : pathAt hops key = .ok path) :
    Path.isName key = true ∧ path = ⟨hops ++ [key]⟩ := by
  unfold pathAt at read
  by_cases name : Path.isName key = true
  · rw [if_pos name] at read
    cases read
    exact ⟨name, rfl⟩
  · rw [if_neg name] at read
    cases read

/-- A value that is neither an array nor an object is read as an equality. -/
theorem readPlain_eq_ok {v : Json} (read : readPlain hops key v = .ok p) :
    Path.isKey key = true ∧
      ∃ value, Scalar.ofJson? v = some value ∧ p = .equals ⟨hops ++ [key]⟩ value := by
  unfold readPlain at read
  cases h : Connective.ofKey? key with
  | some connective => cases connective <;> simp [h] at read
  | none =>
    rw [h] at read
    obtain ⟨path, at_key, read⟩ := bind_eq_ok.mp read
    obtain ⟨name, rfl⟩ := pathAt_eq_ok at_key
    cases hs : Scalar.ofJson? v with
    | none =>
      rw [hs] at read
      cases read
    | some value =>
      rw [hs] at read
      cases read
      exact ⟨by simp [Path.isKey, name, h], value, rfl, rfl⟩

/-- An array stands under a connective, which joins its clauses. -/
theorem readKey_arr_eq_ok {items : List Json} (read : readKey hops key (.arr items) = .ok p) :
    ∃ connective ps, Connective.ofKey? key = some connective ∧ readItems hops items = .ok ps ∧
      p = match connective with
        | .and => .and ps
        | .or => .or ps
        | .not => .not (.and ps) := by
  rw [readKey] at read
  cases h : Connective.ofKey? key with
  | none =>
    rw [h] at read
    obtain ⟨_, _, refused⟩ := bind_eq_ok.mp read
    cases refused
  | some connective =>
    refine ⟨connective, ?_⟩
    rw [h] at read
    cases connective <;>
    · obtain ⟨ps, each, joined⟩ := bind_eq_ok.mp read
      cases joined
      exact ⟨ps, rfl, each, rfl⟩

/-- An object is a clause under `AND` or `NOT`, an operator object, or a clause below a key. -/
theorem readKey_obj_eq_ok {fields : List (String × Json)}
    (read : readKey hops key (.obj fields) = .ok p) :
    ((Connective.ofKey? key).isSome ∧ ∃ ps, readFields hops fields = .ok ps ∧
        (p = .and [combine ps] ∨ p = .not (combine ps))) ∨
      (Path.isKey key = true ∧ hasOperatorKey fields = true ∧
        readOperator ⟨hops ++ [key]⟩ (.obj fields) = .ok p) ∨
      (Path.isKey key = true ∧ hasOperatorKey fields = false ∧
        ∃ ps, readFields (hops ++ [key]) fields = .ok ps ∧ p = combine ps) := by
  rw [readKey] at read
  cases h : Connective.ofKey? key with
  | some connective =>
    rw [h] at read
    refine .inl ⟨rfl, ?_⟩
    cases connective with
    | or => cases read
    | and =>
      obtain ⟨ps, each, joined⟩ := bind_eq_ok.mp read
      cases joined
      exact ⟨ps, each, .inl rfl⟩
    | not =>
      obtain ⟨ps, each, joined⟩ := bind_eq_ok.mp read
      cases joined
      exact ⟨ps, each, .inr rfl⟩
  | none =>
    rw [h] at read
    obtain ⟨path, at_key, read⟩ := bind_eq_ok.mp read
    obtain ⟨name, rfl⟩ := pathAt_eq_ok at_key
    have isKey : Path.isKey key = true := by simp [Path.isKey, name, h]
    cases operators : hasOperatorKey fields with
    | true =>
      rw [if_pos operators] at read
      exact .inr (.inl ⟨isKey, rfl, read⟩)
    | false =>
      rw [if_neg (by simp [operators])] at read
      obtain ⟨ps, each, combined⟩ := bind_eq_ok.mp read
      cases combined
      exact .inr (.inr ⟨isKey, rfl, ps, each, rfl⟩)

end

/-! ## What is read was written -/

theorem isKey_of_readKey_scalar {hops : List String} {key : String} {value : Scalar}
    {q : Predicate} (read : readKey hops key value.toJson = .ok q) : Path.isKey key = true := by
  have plain : readKey hops key value.toJson = readPlain hops key value.toJson := by
    cases value <;> rfl
  rw [plain] at read
  exact (readPlain_eq_ok read).1

/-- An object under a connective is read as no leaf. -/
theorem isKey_of_readKey_obj {hops : List String} {key : String} {fields : List (String × Json)}
    {q : Predicate} (read : readKey hops key (.obj fields) = .ok q) (leaf : q.path? ≠ none) :
    Path.isKey key = true := by
  obtain ⟨-, ps, -, rfl | rfl⟩ | ⟨isKey, -⟩ | ⟨isKey, -⟩ := readKey_obj_eq_ok read
  · exact absurd rfl leaf
  · exact absurd rfl leaf
  · exact isKey
  · exact isKey

theorem readOperator_eq_ok {path : Path} {v : Json} {q : Predicate}
    (read : readOperator path v = .ok q) :
    ∃ filter, Filter.ofJson v = .ok filter ∧ filter.isBlank = false ∧ q = .operator path filter := by
  unfold readOperator at read
  cases h : Filter.ofJson v with
  | error error => rw [h] at read; cases read
  | ok filter =>
    simp only [h] at read
    by_cases blank : filter.isBlank = true
    · rw [if_pos blank] at read
      cases read
    · rw [if_neg blank] at read
      cases read
      exact ⟨filter, rfl, by simpa using blank, rfl⟩

/-- **A leaf that comes back under the whole path was spelled by it.** Under an operator key the
path ends before, and the rest of it is read as operands. -/
theorem isSpelled_of_readKey {v : Json}
    (keyed : ∀ hops key q, readKey hops key v = .ok q → q.path? ≠ none → Path.isKey key = true)
    (rest : List String) : ∀ (hops : List String) (key : String) (q : Predicate),
      readKey hops key (nest ⟨rest⟩ v) = .ok q → q.path? = some ⟨hops ++ key :: rest⟩ →
      Path.isSpelled ⟨key :: rest⟩ = true ∧
        ∃ hops' key', Path.isKey key' = true ∧ readKey hops' key' v = .ok q := by
  induction rest with
  | nil =>
    intro hops key q read path
    have isKey := keyed hops key q read (by simp [path])
    exact ⟨by simp [Path.isSpelled, isKey], hops, key, isKey, read⟩
  | cons next rest ih =>
    intro hops key q read path
    rw [nest_cons] at read
    have isKey := isKey_of_readKey_obj read (by simp [path])
    rw [readKey_obj isKey] at read
    by_cases opens : hasOperatorKey [(next, nest ⟨rest⟩ v)] = true
    · rw [if_pos opens] at read
      obtain ⟨filter, _, _, rfl⟩ := readOperator_eq_ok read
      simp [path?] at path
    · rw [if_neg opens, readClause_single] at read
      obtain ⟨below, inner⟩ := ih (hops ++ [key]) next q read (by simpa using path)
      refine ⟨?_, inner⟩
      have noOperator : Filter.keys.contains next = false := by
        simpa [hasOperatorKey] using opens
      simp only [Path.isSpelled, List.all_cons, List.tail_cons, Bool.and_eq_true] at below ⊢
      exact ⟨⟨isKey, below.1⟩, by simp only [noOperator, Bool.not_false], below.2⟩

/-- Agreeing predicates are leaves of the same path. -/
theorem path?_of_agrees {q p : Predicate} (same : q.agrees p = true) : q.path? = p.path? := by
  cases q <;> cases p <;> simp_all [agrees, path?]

/-- An operator object that is read as a leaf compares something. -/
theorem compares_of_readKey {hops : List String} {key : String} (isKey : Path.isKey key = true)
    {filter : Filter} {q : Predicate} (read : readKey hops key filter.toJson = .ok q)
    (leaf : q.path? ≠ none) : filter.isBlank = false := by
  rw [Filter.toJson, readKey_obj isKey] at read
  by_cases operators : hasOperatorKey filter.toFields = true
  · rw [if_pos operators] at read
    obtain ⟨_, back, compares, _⟩ := readOperator_eq_ok read
    rw [← Filter.toJson, Filter.ofJson_toJson] at back
    cases back
    exact compares
  · rw [if_neg operators] at read
    have nothing : filter.toFields = [] := by
      simpa [hasOperatorKey_toFields] using operators
    rw [nothing] at read
    cases read
    exact absurd rfl leaf

mutual

/-- **A predicate that is read back has readable leaves.** -/
theorem readable_of_ofJson_toJson : (p : Predicate) →
    (∀ path ∈ p.paths, path.segments ≠ []) → ∀ q, ofJson p.toJson = .ok q → q.agrees p = true →
    ∀ leaf ∈ p.leaves, leaf.isReadable = true
  | .equals ⟨[]⟩ value, rooted => absurd rfl (rooted ⟨[]⟩ (by simp [paths]))
  | .operator ⟨[]⟩ filter, rooted => absurd rfl (rooted ⟨[]⟩ (by simp [paths]))
  | .equals ⟨key :: rest⟩ value, _ => by
    intro q read same leaf hl
    rw [ofJson, toJson, nest_cons, readClause_single] at read
    obtain ⟨spelled, _⟩ := isSpelled_of_readKey
      (fun _ _ _ read _ => isKey_of_readKey_scalar read) rest [] key q read (path?_of_agrees same)
    rw [List.mem_singleton.mp hl]
    exact spelled
  | .operator ⟨key :: rest⟩ filter, _ => by
    intro q read same leaf hl
    have path := path?_of_agrees same
    rw [ofJson, toJson, nest_cons, readClause_single] at read
    obtain ⟨spelled, hops, last, isKey, inner⟩ := isSpelled_of_readKey
      (fun _ _ _ read leaf => isKey_of_readKey_obj read leaf) rest [] key q read path
    have compares := compares_of_readKey isKey inner (by rw [path]; exact nofun)
    rw [List.mem_singleton.mp hl]
    simp [isReadable, spelled, compares]
  | .and [], _ => by
    intro q _ _ leaf hl
    cases hl
  | .and (p :: rest), rooted => by
    intro q read same
    rw [ofJson, toJson, readClause_single, readKey_and, ← clauses] at read
    obtain ⟨qs, items, rfl⟩ := map_eq_ok.mp read
    exact readable_of_readItems (p :: rest) rooted qs items same
  | .or children, rooted => by
    intro q read same
    rw [ofJson, toJson, readClause_single, readKey_or] at read
    obtain ⟨qs, items, rfl⟩ := map_eq_ok.mp read
    exact readable_of_readItems children rooted qs items same
  | .not inner, rooted => by
    intro q read same
    obtain ⟨fields, object⟩ := toJson_eq_obj (p := inner) rooted
    rw [ofJson, toJson, readClause_single, object, readKey_not, ← object] at read
    obtain ⟨q, back, rfl⟩ := map_eq_ok.mp read
    exact readable_of_ofJson_toJson inner rooted q back same

theorem readable_of_readItems : (ps : List Predicate) →
    (∀ path ∈ pathsOfAll ps, path.segments ≠ []) → ∀ qs, readItems [] (clauses ps) = .ok qs →
    agreeAll qs ps = true → ∀ leaf ∈ leavesOfAll ps, leaf.isReadable = true
  | [], _ => by
    intro qs _ _ leaf hl
    cases hl
  | p :: rest, rooted => by
    intro qs read same leaf hl
    rw [clauses, readItems] at read
    obtain ⟨q, first, read⟩ := bind_eq_ok.mp read
    obtain ⟨qs, others, listed⟩ := bind_eq_ok.mp read
    cases listed
    rw [agreeAll, Bool.and_eq_true] at same
    rcases List.mem_append.mp hl with hl | hl
    · exact readable_of_ofJson_toJson p
        (fun path hp => rooted path (List.mem_append_left _ hp)) q first same.1 leaf hl
    · exact readable_of_readItems rest
        (fun path hp => rooted path (List.mem_append_right _ hp)) qs others same.2 leaf hl

end

/-! ## Exactly the readable trees -/

mutual

@[simp] theorem agrees_refl : (p : Predicate) → p.agrees p = true
  | .equals path value => by simp [agrees]
  | .operator path filter => by simp [agrees]
  | .and children => by rw [agrees, agreeAll_refl children]
  | .or children => by rw [agrees, agreeAll_refl children]
  | .not inner => by rw [agrees, agrees_refl inner]

theorem agreeAll_refl : (ps : List Predicate) → agreeAll ps ps = true
  | [] => rfl
  | p :: rest => by rw [agreeAll, agrees_refl p, agreeAll_refl rest, Bool.and_self]

end

/-- **A predicate is read back from its clause exactly when its leaves are readable.** Then it is
read back as it is, operand by operand, and otherwise not even up to the sign of a zero. -/
theorem ofJson_toJson_iff (p : Predicate) (rooted : ∀ path ∈ p.paths, path.segments ≠ []) :
    ((∃ q, ofJson p.toJson = .ok q ∧ q.agrees p = true) ↔
        ∀ leaf ∈ p.leaves, leaf.isReadable = true) ∧
      (ofJson p.toJson = .ok p ↔ ∀ leaf ∈ p.leaves, leaf.isReadable = true) := by
  have reads := ofJson_toJson_of_readable p rooted
  have written := readable_of_ofJson_toJson p rooted
  refine ⟨⟨?_, fun readable => ⟨p, reads readable, agrees_refl p⟩⟩, ⟨fun back => ?_, reads⟩⟩
  · rintro ⟨q, back, same⟩
    exact written q back same
  · exact written p back (agrees_refl p)

/-- Connectives with one child, with none and inside each other come back, and so does a field that
is called like an operator; behind a relation such a field does not. -/
theorem ofJson_toJson_iff_connectives :
    let tree : Predicate :=
      .and [.or [], .and [.not (.and [.equals ⟨["in"]⟩ .null])],
        .operator ⟨["job", "title"]⟩ { differs := some .null, contains := some "AND" }]
    let hidden : Predicate := .not (.equals ⟨["job", "in"]⟩ .null)
    ofJson tree.toJson = .ok tree ∧
      ¬∃ q, ofJson hidden.toJson = .ok q ∧ q.agrees hidden = true := by
  intro tree hidden
  have readable : ∀ leaf ∈ tree.leaves, leaf.isReadable = true := by decide
  have unreadable : ¬∀ leaf ∈ hidden.leaves, leaf.isReadable = true := by decide
  refine ⟨(ofJson_toJson_iff tree (by decide)).2.mpr readable, fun back => ?_⟩
  exact unreadable ((ofJson_toJson_iff hidden (by decide)).1.mp back)

end Predicate

end Roster
