import Mathlib.Data.List.Basic

/-!
# Replacing a character

`String.replace` goes from one occurrence to the next, puts the replacement in its place and copies
what stands between them. On the list of characters that is a replacement of each occurrence on its
own (`toList_replace`).
-/

namespace Roster.Text

open String.Slice String.Slice.Pattern String.Slice.Pattern.Model

/-- The characters of a text, with others in the place of every occurrence of one of them. -/
def replaceChar (c : Char) (replacement text : List Char) : List Char :=
  text.flatMap fun d => if d = c then replacement else [d]

theorem replaceChar_append (c : Char) (replacement first rest : List Char) :
    replaceChar c replacement (first ++ rest) =
      replaceChar c replacement first ++ replaceChar c replacement rest := List.flatMap_append

theorem replaceChar_of_not_mem {c : Char} {text : List Char} (absent : c ∉ text)
    (replacement : List Char) : replaceChar c replacement text = text := by
  have kept : ∀ d ∈ text, (if d = c then replacement else [d]) = [d] := by
    intro d hd
    rw [if_neg]
    rintro rfl
    exact absent hd
  rw [replaceChar, List.flatMap_congr kept, List.flatMap_singleton']

variable {s : String.Slice} {c : Char}

/-- A slice is without a character that occurs at none of its positions. -/
theorem not_mem_slice {start stop : s.Pos} (le : start ≤ stop)
    (nowhere : ∀ p, start ≤ p → p < stop → ¬MatchesAt c p) :
    c ∉ (s.slice start stop le).copy.toList := by
  have chain : IsLongestMatchAtChain (fun d => d != c) start stop := by
    refine CharPred.isLongestMatchAtChain_iff.mpr ⟨le, fun p after before => ?_⟩
    simpa [Char.matchesAt_iff, Pos.ne_endPos_of_lt before] using nowhere p after before
  obtain ⟨_, others⟩ := CharPred.isLongestMatchAtChain_iff_toList.mp chain
  intro mem
  simpa using others c mem

/-- What a step of the search adds to the text that is built. -/
def addStep (s : String.Slice) (replacement built : String) : SearchStep s → String
  | .matched _ _ => built ++ replacement
  | .rejected start stop => built ++ (s.slice! start stop).copy

/-- The steps of a search from a position add the rest of the text with its replacements. -/
theorem foldl_addStep (replacement : String) {pos : s.Pos} {steps : List (SearchStep s)}
    (search : IsValidSearchFrom c pos steps) : ∀ before rest built : String,
    pos.Splits before rest →
      (steps.foldl (addStep s replacement) built).toList =
        built.toList ++ replaceChar c replacement.toList rest.toList := by
  induction search with
  | endPos =>
    intro before rest built splits
    rw [splits_endPos_iff] at splits
    simp [splits.2, replaceChar]
  | matched found _ ih =>
    intro before rest built splits
    obtain ⟨notEnd, rfl, same⟩ := Char.isLongestMatchAt_iff.mp found
    obtain ⟨rest, rfl⟩ := splits.exists_eq_singleton_append notEnd
    rw [List.foldl_cons, ih _ _ _ splits.next]
    simp [addStep, replaceChar, same]
  | @mismatched _ start stop lt nowhere _ ih =>
    intro before rest built splits
    have le : start ≤ stop := Std.le_of_lt lt
    obtain ⟨_, _, atStart, atStop⟩ := copy_slice_eq_iff_splits.mp ⟨le, rfl⟩
    obtain ⟨rfl, rfl⟩ := splits.eq atStart
    have kept := replaceChar_of_not_mem (not_mem_slice le nowhere) replacement.toList
    rw [List.foldl_cons, ih _ _ _ atStop, String.toList_append, replaceChar_append, kept,
      ← List.append_assoc, addStep, String.toList_append, slice_eq_slice!]

/-- Replacing goes along the steps of the search. -/
theorem replace_eq_fold (text : String) (c : Char) (replacement : String) :
    text.replace c replacement =
      (ToForwardSearcher.toSearcher c text.toSlice).fold (addStep text.toSlice replacement) "" := by
  rw [String.replace, String.Slice.replace]
  congr 1
  funext built step
  cases step with
  | matched => simp [addStep, String.ToSlice.toSlice]
  | rejected => simp [addStep]

/-- **Replacing a character replaces each of its occurrences on its own.** -/
theorem toList_replace (text : String) (c : Char) (replacement : String) :
    (text.replace c replacement).toList = replaceChar c replacement.toList text.toList := by
  have search : IsValidSearchFrom c text.toSlice.startPos
      (ToForwardSearcher.toSearcher c text.toSlice).toList :=
    LawfulToForwardSearcherModel.isValidSearchFrom_toList text.toSlice
  have whole := foldl_addStep replacement search "" text "" (by simp)
  rw [replace_eq_fold, ← Std.Iter.foldl_toList, whole]
  simp

end Roster.Text
