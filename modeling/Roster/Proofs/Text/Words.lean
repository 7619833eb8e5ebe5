import Roster.Text.Blank

/-!
# The words of a text

A word is a maximal run of characters that are not blanks: it stands between two blanks, or between
a blank and an end of the text, or is the whole of it. Cutting a text at its blanks finds these runs
and nothing else (`mem_words_iff`), because a cut can be made at any one separator first
(`cut_append_cons`).
-/

namespace Roster.Text

variable {sep : Char → Bool} {cs piece : List Char}

/-- The piece holds no separator, and reaches up to one or to the end on both sides. -/
def StandsIn (sep : Char → Bool) (cs piece : List Char) : Prop :=
  ∃ before after, cs = before ++ piece ++ after ∧ (∀ c ∈ piece, sep c = false) ∧
    (∀ c ∈ before.getLast?, sep c = true) ∧ ∀ c ∈ after.head?, sep c = true

/-- A maximal run of characters of the text that are not blanks. -/
def IsWord (word text : String) : Prop :=
  word ≠ "" ∧ StandsIn isBlank text.toList word.toList

theorem cut_eq_splitOnP (sep : Char → Bool) (cs : List Char) : cut sep cs = cs.splitOnP sep := by
  induction cs with
  | nil => rfl
  | cons c rest ih =>
    rw [cut, List.splitOnP_cons_eq_if_modifyHead, ih]
    cases hrest : rest.splitOnP sep with
    | nil => exact absurd hrest (List.splitOnP_ne_nil sep rest)
    | cons first others => rfl

/-- A separator cuts what is before it from what is after it. -/
theorem cut_append_cons (before : List Char) {c : Char} (hc : sep c = true) (after : List Char) :
    cut sep (before ++ c :: after) = cut sep before ++ cut sep after := by
  simp only [cut_eq_splitOnP, List.splitOnP_append_cons before after hc]

theorem cut_of_no_sep (h : ∀ c ∈ cs, sep c = false) : cut sep cs = [cs] := by
  rw [cut_eq_splitOnP, List.splitOnP_eq_singleton h]

/-- A piece that goes up to its end or to a separator comes first. -/
theorem mem_cut_of_append (plain : ∀ c ∈ piece, sep c = false) {after : List Char}
    (bounded : ∀ c ∈ after.head?, sep c = true) : piece ∈ cut sep (piece ++ after) := by
  cases after with
  | nil => simp [cut_of_no_sep plain]
  | cons c after => simp [cut_append_cons piece (bounded c rfl), cut_of_no_sep plain]

/-- **The pieces of a text are what stands between its separators.** -/
theorem mem_cut_iff : piece ∈ cut sep cs ↔ StandsIn sep cs piece := by
  constructor
  · intro member
    induction h : cs.length using Nat.strongRecOn generalizing cs with
    | ind length ih =>
      by_cases plain : ∀ c ∈ cs, sep c = false
      · rw [cut_of_no_sep plain, List.mem_singleton] at member
        subst member
        exact ⟨[], [], by simp, plain, nofun, nofun⟩
      · -- cut at one separator, and look on its two sides
        obtain ⟨c, hmem, hc⟩ : ∃ c ∈ cs, sep c = true := by simpa using plain
        obtain ⟨x, y, rfl⟩ := List.mem_iff_append.mp hmem
        rw [List.length_append, List.length_cons] at h
        rw [cut_append_cons x hc, List.mem_append] at member
        rcases member with left | right
        · obtain ⟨before, after, hx, run, first, last⟩ := ih x.length (by omega) left rfl
          refine ⟨before, after ++ c :: y, by simp [hx], run, first, ?_⟩
          cases after with
          | nil => simpa using hc
          | cons d after => exact last
        · obtain ⟨before, after, hy, run, first, last⟩ := ih y.length (by omega) right rfl
          refine ⟨x ++ c :: before, after, by simp [hy], run, ?_, last⟩
          cases before with
          | nil => simpa using hc
          | cons d before => simpa [List.getLast?_append] using first
  · rintro ⟨before, after, rfl, run, first, last⟩
    rw [List.append_assoc]
    rcases List.eq_nil_or_concat before with rfl | ⟨lead, c, rfl⟩
    · exact mem_cut_of_append run last
    · rw [List.concat_eq_append, List.append_assoc, List.singleton_append,
        cut_append_cons lead (first c (by simp))]
      exact List.mem_append_right _ (mem_cut_of_append run last)

/-- **The words of a text are its maximal runs without blanks.** -/
theorem mem_words_iff {word text : String} : word ∈ words text ↔ IsWord word text := by
  have spelled : ∀ piece : List Char, String.ofList piece = word ↔ piece = word.toList :=
    fun piece => ⟨fun h => h ▸ String.toList_ofList.symm, fun h => h ▸ String.ofList_toList⟩
  rw [words, List.mem_map, IsWord, ← mem_cut_iff]
  constructor
  · rintro ⟨piece, member, same⟩
    obtain rfl := (spelled piece).mp same
    obtain ⟨member, full⟩ := List.mem_filter.mp member
    refine ⟨fun empty => ?_, member⟩
    rw [empty] at full
    cases full
  · rintro ⟨full, member⟩
    refine ⟨word.toList, List.mem_filter.mpr ⟨member, ?_⟩, String.ofList_toList⟩
    simpa using full

end Roster.Text
