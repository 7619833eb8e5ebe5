import Roster.Proofs.Query.IncludeRoundTrip
import Roster.Proofs.Query.SortKeys
import Roster.Query.Descriptor

/-!
# Descriptors read back

A descriptor that was read is sent on in its canonical form and read again. What comes back is the
same descriptor exactly when no filter of it, its own or one of an include, has a path with an
operator key behind its first segment. Such a path is read where a connective stands under a
relation, and its canonical form says something else: the relation itself is compared there.
-/

namespace Roster

namespace Descriptor

/-- The paths of all filters: the descriptor's own and those of its includes. -/
def filterPaths (q : Descriptor) : List Path :=
  Predicate.pathsOf q.filter ++ IncludeEntry.includePaths q.include?

/-- The descriptor can have been read. -/
structure Decoded (q : Descriptor) : Prop where
  filter : ∀ p ∈ q.filter, p.Keyed
  orderBy : ∀ keys ∈ q.orderBy, ∀ k ∈ keys, k.path.isNamed = true
  includes : IncludeEntry.DecodedInclude q.include?
  select : ∀ s ∈ q.select, Keyed.Ordered s
  skip : ∀ n ∈ q.skip, n < Json.wordBound
  take : ∀ n ∈ q.take, n < Json.wordBound

/-! ## What was read -/

theorem lt_of_asWord {v : Json} {n : Nat} (read : v.asWord = .ok n) : n < Json.wordBound := by
  cases v with
  | num number =>
    cases number with
    | float d => cases read
    | int i =>
      rw [Json.asWord] at read
      by_cases fits : 0 ≤ i ∧ i < Json.wordBound
      · rw [if_pos fits] at read
        cases read
        omega
      · rw [if_neg fits] at read
        cases read
  | _ => cases read

theorem decodedTree_of_readTree {v : Json} {tree : IncludeTree}
    (read : IncludeEntry.readTree v = .ok tree) : IncludeEntry.DecodedTree tree := by
  obtain ⟨fields, _, read⟩ := bind_eq_ok.mp read
  cases h : IncludeEntry.readEntries? fields with
  | none =>
    rw [h] at read
    cases read
  | some tree' =>
    rw [h] at read
    cases read
    exact IncludeEntry.decoded_readEntries? fields _ h

theorem Decoded.setField {name : String} {v : Json} {q q' : Descriptor}
    (set : Descriptor.setField name v q = .ok q') (decoded : q.Decoded) : q'.Decoded := by
  unfold Descriptor.setField at set
  split at set
  · obtain ⟨filter, read, done⟩ := bind_eq_ok.mp set
    cases done
    have read := optional_eq_ok (mapError_eq_ok.mp read)
    exact { decoded with filter := fun p hp => Predicate.keyed_ofJson (read p hp) }
  · obtain ⟨keys, read, done⟩ := bind_eq_ok.mp set
    cases done
    have read := optional_eq_ok (mapError_eq_ok.mp read)
    exact { decoded with orderBy := fun ks hk => SortKey.isNamed_listOfJson (read ks hk) }
  · obtain ⟨inc, read, done⟩ := bind_eq_ok.mp set
    cases done
    have read := optional_eq_ok (mapError_eq_ok.mp read)
    refine { decoded with includes := ?_ }
    cases inc with
    | none => trivial
    | some tree => exact decodedTree_of_readTree (read tree rfl)
  · obtain ⟨select, read, done⟩ := bind_eq_ok.mp set
    cases done
    have read := optional_eq_ok (mapError_eq_ok.mp read)
    exact { decoded with select := fun s hs => IncludeEntry.ordered_readSelect (read s hs) }
  · obtain ⟨skip, read, done⟩ := bind_eq_ok.mp set
    cases done
    have read := optional_eq_ok (mapError_eq_ok.mp read)
    exact { decoded with skip := fun n hn => lt_of_asWord (read n hn) }
  · obtain ⟨take, read, done⟩ := bind_eq_ok.mp set
    cases done
    have read := optional_eq_ok (mapError_eq_ok.mp read)
    exact { decoded with take := fun n hn => lt_of_asWord (read n hn) }
  · cases set
    exact decoded

theorem decoded_empty : Decoded {} := ⟨nofun, nofun, trivial, nofun, nofun, nofun⟩

/-- **What every reading of a descriptor guarantees.** -/
theorem decoded_ofJson {v : Json} {q : Descriptor} (read : ofJson v = .ok q) : q.Decoded :=
  Json.RecordShape.preserved_read (P := Decoded) Decoded.setField decoded_empty read

/-! ## What is written -/

open Json.RecordShape (piece)

theorem names_toJson (q : Descriptor) :
    ((piece "where" Predicate.toJson q.filter ++ piece "orderBy" SortKey.listToJson q.orderBy ++
      piece "include" IncludeEntry.treeToJson q.include? ++
      piece "select" IncludeEntry.selectToJson q.select ++ piece "skip" Json.ofNat q.skip ++
      piece "take" Json.ofNat q.take).map (·.1)).Sublist fields := by
  simp only [List.map_append]
  change List.Sublist _ (["where"] ++ ["orderBy"] ++ ["include"] ++ ["select"] ++ ["skip"] ++
    ["take"])
  repeat' apply List.Sublist.append
  all_goals exact Json.RecordShape.names_piece _ _ _

theorem asWord_ofNat {n : Nat} (fits : n < Json.wordBound) : (Json.ofNat n).asWord = .ok n := by
  have range : (0 : Int) ≤ n ∧ (n : Int) < Json.wordBound := by omega
  rw [Json.ofNat, Json.asWord, if_pos range, Int.toNat_natCast]

/-- Reads a filter back. -/
def backFilter (p : Predicate) : Except DescriptorFault Predicate :=
  (Predicate.ofJson p.toJson).mapError .query

/-- Reads an include tree back. -/
def backTree (tree : IncludeTree) : Except DescriptorFault IncludeTree :=
  (IncludeEntry.readTree (IncludeEntry.treeToJson tree)).mapError .shape

theorem setField_where {p : Predicate} (keyed : p.Keyed) (q : Descriptor) :
    setField "where" p.toJson q = (backFilter p).map fun p => { q with filter := some p } := by
  have settled : p.toJson.settle = p.toJson := Predicate.settled_toJson p
  obtain ⟨fields, object⟩ := Predicate.toJson_eq_obj keyed.rooted
  have present : p.toJson ≠ .null := by rw [object]; exact nofun
  simp only [setField, settled, optional_of_ne_null _ present, backFilter]
  cases Predicate.ofJson p.toJson <;> rfl

theorem setField_orderBy {keys : List SortKey} (named : ∀ k ∈ keys, k.path.isNamed = true)
    (q : Descriptor) :
    setField "orderBy" (SortKey.listToJson keys) q = .ok { q with orderBy := some keys } := by
  have settled : (SortKey.listToJson keys).settle = SortKey.listToJson keys :=
    SortKey.settled_listToJson keys
  have present : SortKey.listToJson keys ≠ .null := nofun
  simp only [setField, settled, optional_of_ne_null _ present, SortKey.listOfJson_listToJson named]
  rfl

theorem setField_include (tree : IncludeTree) (q : Descriptor) :
    setField "include" (IncludeEntry.treeToJson tree) q =
      (backTree tree).map fun tree => { q with include? := some tree } := by
  have present : IncludeEntry.treeToJson tree ≠ .null := nofun
  simp only [setField, optional_of_ne_null _ present, backTree]
  cases IncludeEntry.readTree (IncludeEntry.treeToJson tree) <;> rfl

theorem setField_select {select : Select} (ordered : Keyed.Ordered select) (q : Descriptor) :
    setField "select" (IncludeEntry.selectToJson select) q =
      .ok { q with select := some select } := by
  have present : IncludeEntry.selectToJson select ≠ .null := nofun
  simp only [setField, optional_of_ne_null _ present,
    IncludeEntry.readSelect_selectToJson ordered]
  rfl

theorem setField_skip {n : Nat} (fits : n < Json.wordBound) (q : Descriptor) :
    setField "skip" (Json.ofNat n) q = .ok { q with skip := some n } := by
  have present : Json.ofNat n ≠ .null := nofun
  simp only [setField, optional_of_ne_null _ present, asWord_ofNat fits]
  rfl

theorem setField_take {n : Nat} (fits : n < Json.wordBound) (q : Descriptor) :
    setField "take" (Json.ofNat n) q = .ok { q with take := some n } := by
  have present : Json.ofNat n ≠ .null := nofun
  simp only [setField, optional_of_ne_null _ present, asWord_ofNat fits]
  rfl

/-- **A descriptor comes back with what its filter and its includes come back as.** -/
theorem ofJson_toJson {q : Descriptor} (decoded : q.Decoded) :
    ofJson q.toJson =
      (q.filter.mapM backFilter).bind fun filter =>
        (q.include?.mapM backTree).map fun inc => { q with filter := filter, include? := inc } := by
  have fields := Json.RecordShape.read_of_sublist shape {} (by decide) (names_toJson q)
  obtain ⟨filter, orderBy, inc, select, skip, take⟩ := q
  obtain ⟨keyed, named, -, ordered, skips, takes⟩ := decoded
  -- what setting each piece does to the descriptor read so far
  have filters : shape.setAll (piece "where" Predicate.toJson filter) {} =
      (filter.mapM backFilter).map fun v => { filter := v } :=
    Json.RecordShape.setAll_piece_with shape filter (fun v => { filter := v }) backFilter rfl
      fun p hp => setField_where (keyed p hp) {}
  have orders : ∀ f, shape.setAll (piece "orderBy" SortKey.listToJson orderBy) { filter := f } =
      .ok { filter := f, orderBy } := fun f =>
    Json.RecordShape.setAll_piece shape orderBy (fun v => { filter := f, orderBy := v }) rfl
      fun keys hk => setField_orderBy (named keys hk) _
  have trees : ∀ f, shape.setAll (piece "include" IncludeEntry.treeToJson inc)
        { filter := f, orderBy } =
      (inc.mapM backTree).map fun v => { filter := f, orderBy, include? := v } := fun f =>
    Json.RecordShape.setAll_piece_with shape inc
      (fun v => { filter := f, orderBy, include? := v }) backTree rfl
      fun tree _ => setField_include tree _
  have selects : ∀ f i, shape.setAll (piece "select" IncludeEntry.selectToJson select)
      { filter := f, orderBy, include? := i } =
        .ok { filter := f, orderBy, include? := i, select } := fun f i =>
    Json.RecordShape.setAll_piece shape select
      (fun v => { filter := f, orderBy, include? := i, select := v }) rfl
      fun s hs => setField_select (ordered s hs) _
  have skipped : ∀ f i, shape.setAll (piece "skip" Json.ofNat skip)
      { filter := f, orderBy, include? := i, select } =
        .ok { filter := f, orderBy, include? := i, select, skip } := fun f i =>
    Json.RecordShape.setAll_piece shape skip
      (fun v => { filter := f, orderBy, include? := i, select, skip := v }) rfl
      fun n hn => setField_skip (skips n hn) _
  have taken : ∀ f i, shape.setAll (piece "take" Json.ofNat take)
      { filter := f, orderBy, include? := i, select, skip } =
        .ok { filter := f, orderBy, include? := i, select, skip, take } := fun f i =>
    Json.RecordShape.setAll_piece shape take
      (fun v => { filter := f, orderBy, include? := i, select, skip, take := v }) rfl
      fun n hn => setField_take (takes n hn) _
  refine fields.trans ?_
  simp only [Json.RecordShape.setAll_append, filters]
  cases filter.mapM backFilter with
  | error _ => rfl
  | ok f =>
    simp only [Except.map, Except.bind, orders, trees]
    cases inc.mapM backTree with
    | error _ => rfl
    | ok i => simp only [selects, skipped, taken]

/-! ## Descriptors that come back -/

theorem backTree_eq_ok {tree tree' : IncludeTree} :
    backTree tree = .ok tree' ↔
      IncludeEntry.readEntries? (IncludeEntry.entriesToJson tree) = some tree' := by
  rw [backTree, mapError_eq_ok, IncludeEntry.treeToJson]
  unfold IncludeEntry.readTree
  simp only [Json.asFields]
  cases h : IncludeEntry.readEntries? (IncludeEntry.entriesToJson tree) <;>
    simp [h, bind, Except.bind]

@[simp] theorem agrees_refl (q : Descriptor) : q.agrees q = true := by
  simp [agrees, IncludeEntry.filterAgrees_refl, IncludeEntry.includeAgrees_refl]

/-- A descriptor whose filters hide no operator key comes back. -/
theorem Decoded.back {q : Descriptor} (decoded : q.Decoded)
    (spelled : ∀ path ∈ q.filterPaths, path.hidesNothing = true) : ofJson q.toJson = .ok q := by
  have filters : q.filter.mapM backFilter = .ok q.filter := by
    cases h : q.filter with
    | none => rfl
    | some p =>
      have read := (decoded.filter p h).reads_back fun path hp =>
        spelled path (List.mem_append_left _ (by rw [h]; exact hp))
      rw [Option.mapM_some, backFilter, read]
      rfl
  have trees : q.include?.mapM backTree = .ok q.include? := by
    cases h : q.include? with
    | none => rfl
    | some tree =>
      have decodedTree : IncludeEntry.DecodedTree tree := by
        have includes := decoded.includes
        rwa [h] at includes
      have read := IncludeEntry.readEntries?_entriesToJson tree decodedTree fun path hp =>
        spelled path (List.mem_append_right _ (by rw [h]; exact hp))
      rw [Option.mapM_some, backTree_eq_ok.mpr read]
      rfl
  rw [ofJson_toJson decoded, filters, trees]
  rfl

/-- A descriptor that comes back hides no operator key in its filters. -/
theorem Decoded.spelled {q q' : Descriptor} (decoded : q.Decoded) (back : ofJson q.toJson = .ok q')
    (same : q'.agrees q = true) : ∀ path ∈ q.filterPaths, path.hidesNothing = true := by
  intro path hp
  rw [ofJson_toJson decoded] at back
  obtain ⟨filter, filters, back⟩ := bind_eq_ok.mp back
  obtain ⟨inc, trees, rfl⟩ := map_eq_ok.mp back
  simp only [agrees, Bool.and_eq_true] at same
  obtain ⟨⟨⟨⟨⟨sameFilter, -⟩, sameInc⟩, -⟩, -⟩, -⟩ := same
  rcases List.mem_append.mp hp with hp | hp
  · cases h : q.filter with
    | none =>
      rw [h] at hp
      cases hp
    | some p =>
      rw [h] at hp filters sameFilter
      obtain ⟨p', read, rfl⟩ := map_eq_ok.mp filters
      exact (decoded.filter p h).spelled_of_back (mapError_eq_ok.mp read) sameFilter path hp
  · have includes := decoded.includes
    cases h : q.include? with
    | none =>
      rw [h] at hp
      cases hp
    | some tree =>
      rw [h] at hp trees sameInc includes
      obtain ⟨tree', read, rfl⟩ := map_eq_ok.mp trees
      exact IncludeEntry.spelled_of_readEntries? tree includes tree' (backTree_eq_ok.mp read) sameInc
        path hp

/-- **What was read survives its canonical form exactly where no filter hides an operator key.**
Then it comes back as it is, and otherwise not even up to the sign of a zero. -/
theorem reads_back_iff {v : Json} {q : Descriptor} (read : ofJson v = .ok q) :
    ((∃ q', ofJson q.toJson = .ok q' ∧ q'.agrees q = true) ↔
        ∀ path ∈ q.filterPaths, path.hidesNothing = true) ∧
      (ofJson q.toJson = .ok q ↔ ∀ path ∈ q.filterPaths, path.hidesNothing = true) := by
  have decoded := decoded_ofJson read
  refine ⟨⟨?_, fun spelled => ⟨q, decoded.back spelled, agrees_refl q⟩⟩, ⟨?_, decoded.back⟩⟩
  · rintro ⟨q', back, same⟩
    exact decoded.spelled back same
  · exact fun back => decoded.spelled back (agrees_refl q)

/-- A descriptor with keys in another order, with a filter of its own and one of an include. A field
called like an operator is no hindrance at the head of a path. -/
theorem reads_back_iff_includes :
    let v : Json := .obj [
      ("include", .obj [("job", .obj [("where", .obj [("NOT", .arr [])]),
        ("select", .obj [("title", .bool true), ("id", .bool true)])]), ("candidate", .null)]),
      ("where", .obj [("in", .obj [("in", .arr [.null])]),
        ("job", .obj [("OR", .arr [.obj [("title", .str "Cook")]])])]),
      ("orderBy", .obj [("job", .obj [("title", .str "desc")])]), ("take", .ofNat 20)]
    let q : Descriptor :=
      { filter := some (.and [.operator ⟨["in"]⟩ { oneOf := some [.null] },
          .or [.equals ⟨["job", "title"]⟩ (.text "Cook")]])
        orderBy := some [⟨⟨["job", "title"]⟩, .desc⟩]
        include? := some [("candidate", .null),
          ("job", .nested none (some [("id", true), ("title", true)]) (some (.not (.and []))))]
        take := some 20 }
    ofJson v = .ok q ∧ ofJson q.toJson = .ok q := by
  intro v q
  have read : ofJson v = .ok q := rfl
  exact ⟨read, (reads_back_iff read).2.mpr (by decide)⟩

/-- In a clause of its own below a relation, `equals` is a field of the related record. Written
again it stands under the relation itself, and the relation is compared. -/
theorem reads_back_of_hidden :
    let v : Json := .obj [("where", .obj [("job", .obj [("AND", .arr [.obj [("equals",
      .ofInt 1)]])])])]
    let q : Descriptor := { filter := some (.and [.equals ⟨["job", "equals"]⟩ (.int 1)]) }
    let q' : Descriptor :=
      { filter := some (.and [.operator ⟨["job"]⟩ { equals := some (.int 1) }]) }
    ofJson v = .ok q ∧ ofJson q.toJson = .ok q' ∧ q'.agrees q = false := by
  exact ⟨rfl, rfl, by decide⟩

end Descriptor

end Roster
