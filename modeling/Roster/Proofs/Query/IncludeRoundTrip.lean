import Roster.Proofs.Keyed
import Roster.Proofs.Predicate.Decoded
import Roster.Query.Include

/-!
# Include trees read back

A tree that was read has its names in increasing order, at every depth, and so have its selections;
the filters of its nodes are clauses that were read. Such a tree comes back from its written form as
far as its filters do: it is read back exactly when no filter of it hides an operator key.
-/

namespace Roster

/-- The paths of an optional predicate. -/
def Predicate.pathsOf (filter : Option Predicate) : List Path := (filter.map paths).getD []

namespace IncludeEntry

/-! ## What was read -/

mutual

/-- The paths of all filters of an entry. -/
def filterPaths : IncludeEntry → List Path
  | .nested inc _ filter => includePaths inc ++ Predicate.pathsOf filter
  | _ => []

/-- The paths of all filters below the includes of a node. -/
def includePaths : Option (List (String × IncludeEntry)) → List Path
  | none => []
  | some tree => treePaths tree

/-- The paths of all filters of a tree. -/
def treePaths : List (String × IncludeEntry) → List Path
  | [] => []
  | (_, e) :: rest => e.filterPaths ++ treePaths rest

end

mutual

/-- The entry can have been read: names are in order and filters have paths of keys. -/
def Decoded : IncludeEntry → Prop
  | .nested inc select filter =>
    DecodedInclude inc ∧ (∀ s ∈ select, Keyed.Ordered s) ∧ ∀ p ∈ filter, p.Keyed
  | _ => True

/-- The includes of a node can have been read. -/
def DecodedInclude : Option (List (String × IncludeEntry)) → Prop
  | none => True
  | some tree => DecodedTree tree

/-- The tree can have been read. -/
def DecodedTree : List (String × IncludeEntry) → Prop
  | [] => True
  | (name, e) :: rest => (∀ p ∈ rest, name < p.1) ∧ e.Decoded ∧ DecodedTree rest

end

theorem decodedTree_iff {tree : IncludeTree} :
    DecodedTree tree ↔ Keyed.Ordered tree ∧ ∀ p ∈ tree, p.2.Decoded := by
  induction tree with
  | nil => simp [DecodedTree, Keyed.Ordered]
  | cons p rest ih =>
    obtain ⟨name, e⟩ := p
    rw [DecodedTree, ih, List.forall_mem_cons]
    constructor
    · rintro ⟨below, first, ordered, others⟩
      exact ⟨ordered.cons below, first, others⟩
    · rintro ⟨ordered, first, others⟩
      exact ⟨ordered.head_lt, first, ordered.tail, others⟩

theorem ordered_readSelect {v : Json} {s : Select} (read : readSelect v = .ok s) :
    Keyed.Ordered s := by
  obtain ⟨fields, _, read⟩ := bind_eq_ok.mp read
  obtain ⟨pairs, _, sorted⟩ := bind_eq_ok.mp read
  cases sorted
  exact Keyed.ordered_sorted pairs

theorem decoded_insert {name : String} {entry : IncludeEntry} {others : IncludeTree}
    (first : entry.Decoded) (rest : DecodedTree others) :
    DecodedTree (if others.has name then others else others.putSorted name entry) := by
  by_cases twice : others.has name = true
  · rw [if_pos twice]
    exact rest
  · rw [if_neg twice]
    obtain ⟨ordered, each⟩ := decodedTree_iff.mp rest
    refine decodedTree_iff.mpr ⟨ordered.putSorted name entry, fun p hp => ?_⟩
    rcases Keyed.mem_putSorted hp with rfl | hp
    · exact first
    · exact each p hp

mutual

/-- **An entry that is read has its names in order and filters over paths of keys.** -/
theorem decoded_ofJson? : (v : Json) → ∀ e, ofJson? v = some e → e.Decoded
  | .null => by
    intro e read
    cases read
    trivial
  | .bool _ => by
    intro e read
    cases read
    trivial
  | .obj fields => by
    intro e read
    obtain ⟨node, set, rfl⟩ := Option.map_eq_some_iff.mp read
    exact decoded_setFields fields [] {} (by simp [ofNode, Decoded, DecodedInclude]) node set
  | .arr items => by
    intro e read
    obtain ⟨node, set, rfl⟩ := Option.map_eq_some_iff.mp read
    exact decoded_setItems items nodeFields {} (by simp [ofNode, Decoded, DecodedInclude]) node set
  | .num _ => nofun
  | .str _ => nofun

theorem decoded_setFields : (fields : List (String × Json)) → (seen : List String) →
    (node : IncludeNode) → (ofNode node).Decoded →
    ∀ node', setFields seen fields node = some node' → (ofNode node').Decoded
  | [] => by
    intro seen node decoded node' set
    cases set
    exact decoded
  | (name, v) :: rest => by
    intro seen node decoded node' set
    rw [setFields] at set
    by_cases twice : seen.contains name = true
    · rw [if_pos twice] at set
      cases set
    · rw [if_neg twice] at set
      obtain ⟨next, here, set⟩ := Option.bind_eq_some_iff.mp set
      exact decoded_setFields rest (name :: seen) next (decoded_setField v name node decoded next here)
        node' set

theorem decoded_setItems : (items : List Json) → (names : List String) →
    (node : IncludeNode) → (ofNode node).Decoded →
    ∀ node', setItems names items node = some node' → (ofNode node').Decoded
  | [] => by
    intro names node decoded node' set
    cases names <;>
    · cases set
      exact decoded
  | v :: rest => by
    intro names node decoded node' set
    cases names with
    | nil => cases set
    | cons name names =>
      obtain ⟨next, here, set⟩ := Option.bind_eq_some_iff.mp set
      exact decoded_setItems rest names next (decoded_setField v name node decoded next here)
        node' set

theorem decoded_setField : (v : Json) → (name : String) → (node : IncludeNode) →
    (ofNode node).Decoded → ∀ node', setField name v node = some node' → (ofNode node').Decoded
  | .null => by
    intro name node decoded node' set
    rw [setField] at set
    by_cases known : nodeFields.contains name = true
    · rw [if_pos known] at set
      cases set
      exact decoded
    · rw [if_neg known] at set
      cases set
  | .obj fields => by
    intro name node decoded node' set
    obtain ⟨inc, select, filter⟩ := decoded
    rw [setField] at set
    by_cases isInclude : name = "include"
    · rw [if_pos isInclude] at set
      obtain ⟨tree, read, done⟩ := Option.bind_eq_some_iff.mp set
      cases done
      exact ⟨decoded_readEntries? fields tree read, select, filter⟩
    rw [if_neg isInclude] at set
    by_cases isSelect : name = "select"
    · rw [if_pos isSelect] at set
      obtain ⟨selected, read, done⟩ := Option.bind_eq_some_iff.mp set
      cases done
      refine ⟨inc, fun s hs => ?_, filter⟩
      exact ordered_readSelect (optional_eq_ok (toOption_eq_some.mp read) s hs)
    rw [if_neg isSelect] at set
    by_cases isWhere : name = "where"
    · rw [if_pos isWhere] at set
      obtain ⟨clause, read, done⟩ := Option.bind_eq_some_iff.mp set
      cases done
      refine ⟨inc, select, fun p hp => ?_⟩
      exact Predicate.keyed_ofJson (optional_eq_ok (toOption_eq_some.mp read) p hp)
    · rw [if_neg isWhere] at set
      cases set
  | .bool _ => nofun
  | .num _ => nofun
  | .str _ => nofun
  | .arr _ => nofun

theorem decoded_readEntries? : (fields : List (String × Json)) →
    ∀ tree, readEntries? fields = some tree → DecodedTree tree
  | [] => by
    intro tree read
    cases read
    trivial
  | (name, v) :: rest => by
    intro tree read
    obtain ⟨entry, first, read⟩ := Option.bind_eq_some_iff.mp read
    obtain ⟨others, there, done⟩ := Option.bind_eq_some_iff.mp read
    cases done
    exact decoded_insert (decoded_ofJson? v entry first) (decoded_readEntries? rest others there)

end

/-! ## What is written -/

/-- Reads an optional part back. -/
def back {α β : Type} (read : α → Option β) : Option α → Option (Option β)
  | none => some none
  | some a => (read a).map some

theorem readSelect_selectToJson {s : Select} (ordered : Keyed.Ordered s) :
    readSelect (selectToJson s) = .ok s := by
  have pairs : (s.map fun p => (p.1, Json.bool p.2)).mapM
      (fun p => do return (p.1, ← p.2.asBool) :
        String × Json → Except ShapeError (String × Bool)) = .ok s := by
    clear ordered
    induction s with
    | nil => rfl
    | cons p rest ih =>
      rw [List.map_cons, List.mapM_cons, ih]
      rfl
  have read : readSelect (selectToJson s) = .ok (Keyed.sorted s) := by
    change Except.bind (List.mapM _ _) _ = _
    rw [pairs]
    rfl
  rw [read, Keyed.sorted_of_ordered ordered]

theorem nodeSelect?_selectToJson {s : Select} (ordered : Keyed.Ordered s) :
    nodeSelect? (selectToJson s) = some (some s) := by
  have present : selectToJson s ≠ .null := nofun
  rw [nodeSelect?, optional_of_ne_null _ present, readSelect_selectToJson ordered]
  rfl

theorem nodeFilter?_toJson {p : Predicate} (keyed : p.Keyed) :
    nodeFilter? p.toJson = (Predicate.ofJson p.toJson).toOption.map some := by
  have settled : p.toJson.settle = p.toJson := Predicate.settled_toJson p
  obtain ⟨fields, object⟩ := Predicate.toJson_eq_obj keyed.rooted
  have present : p.toJson ≠ .null := by
    rw [object]
    exact nofun
  rw [nodeFilter?, settled, optional_of_ne_null _ present]
  cases Predicate.ofJson p.toJson <;> rfl

/-- The fields of a node, set in their order. -/
def setAll (fields : List (String × Json)) (node : IncludeNode) : Option IncludeNode :=
  fields.foldlM (fun node field => setField field.1 field.2 node) node

theorem setFields_of_distinct (fields : List (String × Json)) :
    ∀ (seen : List String) (node : IncludeNode), (∀ field ∈ fields, field.1 ∉ seen) →
      (fields.map (·.1)).Nodup → setFields seen fields node = setAll fields node := by
  induction fields with
  | nil =>
    intro seen node _ _
    rfl
  | cons field fields ih =>
    intro seen node fresh distinct
    obtain ⟨name, v⟩ := field
    rw [List.map_cons, List.nodup_cons] at distinct
    have unseen : seen.contains name = false := by
      simpa using fresh (name, v) List.mem_cons_self
    rw [setFields, unseen, setAll, List.foldlM_cons, if_neg Bool.false_ne_true]
    exact bind_congr fun node =>
      ih (name :: seen) node (Json.RecordShape.fresh_tail fresh distinct.1) distinct.2

theorem setAll_append (first rest : List (String × Json)) (node : IncludeNode) :
    setAll (first ++ rest) node = (setAll first node).bind (setAll rest) := by
  rw [setAll, List.foldlM_append]
  rfl

/-- Setting the piece of an optional part is reading it back. -/
theorem setAll_piece {α β : Type} {name : String} {write : α → Json} (value : Option α)
    (put : Option β → IncludeNode) {node : IncludeNode} (read : α → Option β)
    (absent : put none = node)
    (reads : ∀ a, value = some a →
      setField name (write a) node = (read a).map fun b => put (some b)) :
    setAll (Json.RecordShape.piece name write value) node = (back read value).map put := by
  cases value with
  | none => exact congrArg some absent.symm
  | some a =>
    rw [Json.RecordShape.piece, setAll, Option.map_some, Option.toList_some, List.foldlM_cons,
      reads a rfl, back]
    cases read a <;> rfl

theorem setField_select {s : Select} (ordered : Keyed.Ordered s) (node : IncludeNode) :
    setField "select" (selectToJson s) node = some { node with select := some s } := by
  have read := nodeSelect?_selectToJson ordered
  rw [selectToJson] at read ⊢
  simp [setField, read]

theorem setField_where {p : Predicate} (keyed : p.Keyed) (node : IncludeNode) :
    setField "where" p.toJson node =
      (Predicate.ofJson p.toJson).toOption.map fun p => { node with filter := some p } := by
  have read := nodeFilter?_toJson keyed
  obtain ⟨fields, object⟩ := Predicate.toJson_eq_obj keyed.rooted
  rw [object] at read ⊢
  simp only [setField, read]
  cases Predicate.ofJson (.obj fields) <;> rfl

theorem nodeInclude_eq (inc : Option (List (String × IncludeEntry))) :
    nodeInclude inc =
      Json.RecordShape.piece "include" (fun tree => .obj (entriesToJson tree)) inc := by
  cases inc <;> rfl

/-- **A node comes back with what its includes and its filter come back as.** -/
theorem ofJson?_nested {inc : Option (List (String × IncludeEntry))} {select : Option Select}
    {filter : Option Predicate} (decoded : (nested inc select filter).Decoded) :
    ofJson? (nested inc select filter).toJson =
      (back (fun tree => readEntries? (entriesToJson tree)) inc).bind fun inc' =>
        (back (fun p => (Predicate.ofJson p.toJson).toOption) filter).map fun filter' =>
          nested inc' select filter' := by
  obtain ⟨-, ordered, keyed⟩ := decoded
  have names : ((nodeInclude inc ++ Json.RecordShape.piece "select" selectToJson select ++
      Json.RecordShape.piece "where" Predicate.toJson filter).map (·.1)).Sublist nodeFields := by
    rw [nodeInclude_eq]
    simp only [List.map_append]
    change List.Sublist _ (["include"] ++ ["select"] ++ ["where"])
    repeat' apply List.Sublist.append
    all_goals exact Json.RecordShape.names_piece _ _ _
  have distinct : nodeFields.Nodup := by decide
  have fields : ofJson? (nested inc select filter).toJson =
      (setAll (nodeInclude inc ++ Json.RecordShape.piece "select" selectToJson select ++
        Json.RecordShape.piece "where" Predicate.toJson filter) {}).map ofNode := by
    rw [toJson, ofJson?]
    exact congrArg (Option.map ofNode)
      (setFields_of_distinct _ [] {} (fun _ _ => List.not_mem_nil) (distinct.sublist names))
  rw [fields, setAll_append, setAll_append, nodeInclude_eq,
    setAll_piece inc (fun v => { include? := v }) (fun tree => readEntries? (entriesToJson tree)) rfl
      fun tree _ => by simp only [setField]; cases readEntries? (entriesToJson tree) <;> rfl]
  cases back (fun tree => readEntries? (entriesToJson tree)) inc with
  | none => rfl
  | some inc' =>
    simp only [Option.map_some, Option.bind_some]
    rw [setAll_piece select (fun v => { include? := inc', select := v }) some rfl fun s hs =>
      setField_select (ordered s hs) _]
    have same : back some select = some select := by cases select <;> rfl
    rw [same, Option.map_some, Option.bind_some,
      setAll_piece filter (fun v => { include? := inc', select := select, filter := v })
        (fun p => (Predicate.ofJson p.toJson).toOption) rfl fun p hp => setField_where (keyed p hp) _,
      Option.map_map]
    rfl

/-- An entry in front of others with later names stays in front of them. -/
theorem insert_of_names (entry : IncludeEntry) {name : String} {e : IncludeEntry}
    {rest others : IncludeTree}
    (ordered : Keyed.Ordered ((name, e) :: rest))
    (names : others.map (·.1) = rest.map (·.1)) :
    (if others.has name then others else others.putSorted name entry) = (name, entry) :: others := by
  have below : ∀ p ∈ others, name < p.1 := by
    intro p hp
    have listed : p.1 ∈ rest.map (·.1) := names ▸ List.mem_map_of_mem hp
    obtain ⟨q, hq, same⟩ := List.mem_map.mp listed
    exact same ▸ ordered.head_lt q hq
  have new : others.has name = false := by
    rw [Keyed.has, List.any_eq_false]
    intro p hp same
    exact String.lt_irrefl name (beq_iff_eq.mp same ▸ below p hp)
  rw [new, if_neg Bool.false_ne_true, Keyed.putSorted_of_lt entry below]

/-- A tree comes back under its own names. -/
theorem names_readEntries? {tree : IncludeTree} (ordered : Keyed.Ordered tree) :
    ∀ tree', readEntries? (entriesToJson tree) = some tree' →
      tree'.map (·.1) = tree.map (·.1) := by
  induction tree with
  | nil =>
    intro tree' read
    cases read
    rfl
  | cons p rest ih =>
    intro tree' read
    obtain ⟨entry, _, read⟩ := Option.bind_eq_some_iff.mp read
    obtain ⟨others, there, done⟩ := Option.bind_eq_some_iff.mp read
    have names := ih ordered.tail others there
    cases done
    rw [insert_of_names _ ordered names, List.map_cons, List.map_cons, names]

theorem readEntries?_cons {name : String} {e : IncludeEntry} {rest : IncludeTree}
    (ordered : Keyed.Ordered ((name, e) :: rest)) {tree : IncludeTree} :
    readEntries? (entriesToJson ((name, e) :: rest)) = some tree ↔
      ∃ entry others, ofJson? e.toJson = some entry ∧
        readEntries? (entriesToJson rest) = some others ∧ tree = (name, entry) :: others := by
  rw [entriesToJson, readEntries?]
  constructor
  · intro read
    obtain ⟨entry, first, read⟩ := Option.bind_eq_some_iff.mp read
    obtain ⟨others, there, done⟩ := Option.bind_eq_some_iff.mp read
    rw [insert_of_names _ ordered (names_readEntries? ordered.tail others there)] at done
    cases done
    exact ⟨entry, others, first, there, rfl⟩
  · rintro ⟨entry, others, first, there, rfl⟩
    have inserted := insert_of_names entry ordered
      (names_readEntries? ordered.tail others there)
    simp only [first, there, Option.bind_eq_bind, Option.bind_some, inserted]
    rfl

/-! ## Trees that come back -/

mutual

/-- **An entry whose filters hide no operator key is read back.** -/
theorem ofJson?_toJson : (e : IncludeEntry) → e.Decoded →
    (∀ path ∈ e.filterPaths, path.hidesNothing = true) → ofJson? e.toJson = some e
  | .null, _, _ => rfl
  | .flag _, _, _ => rfl
  | .nested inc select filter, decoded, spelled => by
    rw [ofJson?_nested decoded]
    obtain ⟨decodedInc, _, keyed⟩ := decoded
    have includes : back (fun tree => readEntries? (entriesToJson tree)) inc = some inc :=
      back_include inc decodedInc fun path hp => spelled path (List.mem_append_left _ hp)
    have filters : back (fun p : Predicate => (Predicate.ofJson p.toJson).toOption) filter =
        some filter := by
      cases filter with
      | none => rfl
      | some p =>
        have read := (keyed p rfl).reads_back fun path hp => spelled path (List.mem_append_right _ hp)
        rw [back, read]
        rfl
    rw [includes, filters]
    rfl

theorem back_include : (inc : Option (List (String × IncludeEntry))) → DecodedInclude inc →
    (∀ path ∈ includePaths inc, path.hidesNothing = true) →
    back (fun tree => readEntries? (entriesToJson tree)) inc = some inc
  | none, _, _ => rfl
  | some tree, decoded, spelled => by
    rw [back, readEntries?_entriesToJson tree decoded spelled]
    rfl

theorem readEntries?_entriesToJson : (tree : List (String × IncludeEntry)) → DecodedTree tree →
    (∀ path ∈ treePaths tree, path.hidesNothing = true) →
    readEntries? (entriesToJson tree) = some tree
  | [], _, _ => rfl
  | (name, e) :: rest, decoded, spelled => by
    have ordered := (decodedTree_iff.mp decoded).1
    obtain ⟨_, first, others⟩ := decoded
    exact (readEntries?_cons ordered).mpr ⟨e, rest,
      ofJson?_toJson e first fun path hp => spelled path (List.mem_append_left _ hp),
      readEntries?_entriesToJson rest others fun path hp => spelled path (List.mem_append_right _ hp),
      rfl⟩

end

mutual

/-- **An entry that is read back hides no operator key in its filters.** -/
theorem spelled_of_ofJson? : (e : IncludeEntry) → e.Decoded → ∀ e', ofJson? e.toJson = some e' →
    e'.agrees e = true → ∀ path ∈ e.filterPaths, path.hidesNothing = true
  | .null, _ => fun _ _ _ => nofun
  | .flag _, _ => fun _ _ _ => nofun
  | .nested inc select filter, decoded => by
    intro e' read same path hp
    rw [ofJson?_nested decoded] at read
    obtain ⟨decodedInc, _, keyed⟩ := decoded
    obtain ⟨inc', includes, read⟩ := Option.bind_eq_some_iff.mp read
    obtain ⟨filter', filters, rfl⟩ := Option.map_eq_some_iff.mp read
    simp only [agrees, Bool.and_eq_true] at same
    obtain ⟨⟨sameInc, _⟩, sameFilter⟩ := same
    rcases List.mem_append.mp hp with hp | hp
    · exact spelled_of_back inc decodedInc inc' includes sameInc path hp
    · cases filter with
      | none => cases hp
      | some p =>
        obtain ⟨q, clause, rfl⟩ := Option.map_eq_some_iff.mp filters
        exact (keyed p rfl).spelled_of_back (toOption_eq_some.mp clause) sameFilter path hp

theorem spelled_of_back : (inc : Option (List (String × IncludeEntry))) → DecodedInclude inc →
    ∀ inc', back (fun tree => readEntries? (entriesToJson tree)) inc = some inc' →
    includeAgrees inc' inc = true → ∀ path ∈ includePaths inc, path.hidesNothing = true
  | none, _ => fun _ _ _ => nofun
  | some tree, decoded => by
    intro inc' read same
    obtain ⟨tree', entries, rfl⟩ := Option.map_eq_some_iff.mp read
    exact spelled_of_readEntries? tree decoded tree' entries same

theorem spelled_of_readEntries? : (tree : List (String × IncludeEntry)) → DecodedTree tree →
    ∀ tree', readEntries? (entriesToJson tree) = some tree' → treeAgrees tree' tree = true →
    ∀ path ∈ treePaths tree, path.hidesNothing = true
  | [], _ => fun _ _ _ => nofun
  | (name, e) :: rest, decoded => by
    intro tree' read same path hp
    have ordered := (decodedTree_iff.mp decoded).1
    obtain ⟨_, first, others⟩ := decoded
    obtain ⟨entry, tail, readFirst, readRest, rfl⟩ := (readEntries?_cons ordered).mp read
    simp only [treeAgrees, Bool.and_eq_true] at same
    rcases List.mem_append.mp hp with hp | hp
    · exact spelled_of_ofJson? e first entry readFirst same.1.2 path hp
    · exact spelled_of_readEntries? rest others tail readRest same.2 path hp

end

/-! ## Agreement -/

theorem filterAgrees_refl (filter : Option Predicate) : filterAgrees filter filter = true := by
  cases filter <;> simp [filterAgrees]

mutual

theorem agrees_refl : (e : IncludeEntry) → e.agrees e = true
  | .null => rfl
  | .flag _ => by simp [agrees]
  | .nested inc _ filter => by simp [agrees, includeAgrees_refl inc, filterAgrees_refl filter]

theorem includeAgrees_refl : (inc : Option (List (String × IncludeEntry))) →
    includeAgrees inc inc = true
  | none => rfl
  | some tree => treeAgrees_refl tree

theorem treeAgrees_refl : (tree : List (String × IncludeEntry)) → treeAgrees tree tree = true
  | [] => rfl
  | (_, e) :: rest => by simp [treeAgrees, agrees_refl e, treeAgrees_refl rest]

end

end IncludeEntry

end Roster
