/-!
# Cutting a text

`Text.cut` cuts a list of characters at every separator: one piece more than
there are separators, and the pieces joined by the separators are the list
again. `Text.splitOn` does so for a text and one separating character,
`Text.lines` for the lines of a text, and `Text.splitLast?` cuts once, at the
last one.
-/

namespace Roster.Text

/-- The pieces between the characters that `sep` accepts. -/
def cut (sep : Char → Bool) : List Char → List (List Char)
  | [] => [[]]
  | c :: rest =>
    if sep c then [] :: cut sep rest
    else match cut sep rest with
      | [] => [[c]]
      | piece :: pieces => (c :: piece) :: pieces

/-- The pieces of a text between occurrences of a character. -/
def splitOn (text : String) (sep : Char) : List String :=
  (cut (· = sep) text.toList).map String.ofList

/-- A line without the carriage return at its end, if there is one. -/
def trimReturn (line : List Char) : List Char :=
  match line.reverse with
  | '\r' :: before => before.reverse
  | _ => line

/-- The lines of a text. Every line ends in a line feed, which may follow a carriage return; what
stands after the last line feed is one more line, if anything does. -/
def lines (text : String) : List String :=
  let pieces := cut (· = '\n') text.toList
  let last := pieces.getLastD []
  (pieces.dropLast.map trimReturn ++ if last.isEmpty then [] else [last]).map String.ofList

/-- The texts before and after the last occurrence of a character. -/
def splitLast? (text : String) (sep : Char) : Option (String × String) :=
  let backward := text.toList.reverse
  match backward.dropWhile (· ≠ sep) with
  | [] => none
  | _ :: before =>
    some (String.ofList before.reverse,
      String.ofList (backward.takeWhile (· ≠ sep)).reverse)

/-- There is always a piece. -/
theorem cut_ne_nil (sep : Char → Bool) (cs : List Char) : cut sep cs ≠ [] := by
  cases cs with
  | nil => simp [cut]
  | cons c rest =>
    unfold cut
    split
    · simp
    · split <;> simp

/-- No piece holds a separator. -/
theorem not_sep_of_mem_cut {sep : Char → Bool} {cs piece : List Char} (h : piece ∈ cut sep cs) :
    ∀ c ∈ piece, sep c = false := by
  induction cs generalizing piece with
  | nil => simp_all [cut]
  | cons c rest ih =>
    unfold cut at h
    by_cases hc : sep c = true
    · simp only [hc, if_true, List.mem_cons] at h
      rcases h with rfl | h
      · simp
      · exact ih h
    · simp only [hc] at h
      cases hp : cut sep rest with
      | nil => exact absurd hp (cut_ne_nil sep rest)
      | cons first others =>
        simp only [hp, Bool.false_eq_true, if_false, List.mem_cons] at h
        rcases h with rfl | h
        · intro d hd
          rcases List.mem_cons.mp hd with rfl | hd
          · simpa using hc
          · exact ih (by simp [hp]) d hd
        · exact ih (by simp [hp, h])

end Roster.Text
