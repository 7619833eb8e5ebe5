import Roster.Text.CaseData
import Roster.Text.Ranges

/-!
# Full lower-casing

`Text.lowercase` lower-cases a whole text the way Unicode describes it. Nearly
every letter has one lower-case letter. Two do not: the dotted capital I becomes
two characters, and a capital sigma that ends a word becomes the final sigma. So
the result can be longer than the text, and it depends on what stands around a
letter.
-/

namespace Roster.Text

/-- The lower-case form of a code point by a table of runs. -/
def lowerIn (n : Nat) : List (Nat × Nat × Nat × Int) → Nat
  | [] => n
  | (first, last, step, offset) :: rest =>
    if n < first then n
    else if n ≤ last ∧ (n - first) % step = 0 then ((n : Int) + offset).toNat
    else lowerIn n rest

/-- The lower-case letter of a letter, where it is a single one. -/
def lowerChar (c : Char) : Char := Char.ofNat (lowerIn c.toNat lowerRuns)

/-- The letter has case. -/
def isCased (c : Char) : Bool := inRanges c.toNat casedRanges

/-- The character does not count as a neighbour. -/
def isIgnorable (c : Char) : Bool := inRanges c.toNat ignorableRanges

/-- Past the characters that do not count, a letter with case comes first. -/
def meetsCased (cs : List Char) : Bool :=
  match cs.dropWhile isIgnorable with
  | c :: _ => isCased c
  | [] => false

/-- Lower-cases the rest of a text; `before` is what stands before it, nearest first. -/
def lowercaseFrom (before : List Char) : List Char → List Char
  | [] => []
  | c :: rest =>
    let lower :=
      if c = '\u0130' then ['i', '\u0307']
      else if c = 'Σ' then
        if meetsCased before && !meetsCased rest then ['ς'] else ['σ']
      else [lowerChar c]
    lower ++ lowercaseFrom (c :: before) rest

/-- The text in lower case. -/
def lowercase (text : String) : String := String.ofList (lowercaseFrom [] text.toList)

end Roster.Text
