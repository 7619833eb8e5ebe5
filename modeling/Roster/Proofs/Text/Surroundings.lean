import Mathlib.Data.List.Forall2
import Mathlib.Data.List.Infix
import Roster.Proofs.Text.Lowercase

/-!
# A piece of a text in lower case

A piece of a text is lower-cased with what stands around it in view (`lowercaseBetween`), so its form
in the text need not be its form alone. The one letter that tells the difference is a capital sigma
that no letter stands before, or none behind, within the piece.

A piece is steady before a letter, or after one, if the letter does not change its form. That is all
that its surroundings can do to it: a piece that is steady on the sides on which the text goes on has
its own form in every text (`lowercaseBetween_eq`). If it is not, its own form does not occur where it
stands beside the letter, nor anywhere else in that text (`steadyAfterLetter_of_infix`,
`steadyBeforeLetter_of_infix`).
-/

namespace Roster.Text

variable {piece before before' after after' : List Char} {text : String}

/-! ## Pieces -/

/-- The lower-case form of a piece that stands between two others; `before` is nearest first. -/
def lowercaseBetween (before : List Char) : List Char → List Char → List Char
  | [], _ => []
  | c :: rest, after =>
    lowerBetween before c (rest ++ after) ++ lowercaseBetween (c :: before) rest after

/-- A text is lower-cased piece by piece. -/
theorem lowercaseFrom_append (before piece after : List Char) :
    lowercaseFrom before (piece ++ after) =
      lowercaseBetween before piece after ++ lowercaseFrom (piece.reverse ++ before) after := by
  induction piece generalizing before with
  | nil => rfl
  | cons c rest ih =>
    rw [List.cons_append, lowercaseFrom_cons, ih, lowercaseBetween, List.reverse_cons,
      List.append_assoc, List.append_assoc]
    rfl

theorem lowercaseBetween_nil (before piece : List Char) :
    lowercaseBetween before piece [] = lowercaseFrom before piece := by
  have whole := lowercaseFrom_append before piece []
  rw [List.append_nil] at whole
  exact (whole.trans (List.append_nil _)).symm

theorem meetsCased_append_congr (same : meetsCased after = meetsCased after')
    (piece : List Char) : meetsCased (piece ++ after) = meetsCased (piece ++ after') := by
  induction piece with
  | nil => exact same
  | cons c rest ih => exact meetsCased_cons_congr ih c

/-- A piece has one form in surroundings that begin with the same letters on both sides. -/
theorem lowercaseBetween_congr (left : meetsCased before = meetsCased before')
    (right : meetsCased after = meetsCased after') (piece : List Char) :
    lowercaseBetween before piece after = lowercaseBetween before' piece after' := by
  induction piece generalizing before before' with
  | nil => rfl
  | cons c rest ih =>
    rw [lowercaseBetween, lowercaseBetween, ih (meetsCased_cons_congr left c),
      lowerBetween_congr left (meetsCased_append_congr right rest)]

/-- A piece without a capital sigma has one form everywhere. -/
theorem lowercaseBetween_of_no_sigma (plain : 'Σ' ∉ piece) :
    lowercaseBetween before piece after = lowercaseBetween before' piece after' := by
  induction piece generalizing before before' with
  | nil => rfl
  | cons c rest ih =>
    obtain ⟨other, plain⟩ := List.ne_and_not_mem_of_not_mem_cons plain
    have form : lowerBetween before c (rest ++ after) = lowerBetween before' c (rest ++ after') := by
      unfold lowerBetween
      rw [if_neg (Ne.symm other), if_neg (Ne.symm other)]
    rw [lowercaseBetween, lowercaseBetween, form, ih plain]

/-! ## More letters around a piece -/

theorem meetsCased_of_nil (cs : List Char) : meetsCased [] = true → meetsCased cs = true := nofun

theorem meetsCased_append_mono (more : meetsCased after = true → meetsCased after' = true)
    (piece : List Char) : meetsCased (piece ++ after) = true → meetsCased (piece ++ after') = true := by
  induction piece with
  | nil => exact more
  | cons c rest ih =>
    rw [List.cons_append, List.cons_append, meetsCased_cons, meetsCased_cons]
    split
    · exact ih
    · exact id

theorem meetsCased_cons_mono (more : meetsCased before = true → meetsCased before' = true) (c : Char) :
    meetsCased (c :: before) = true → meetsCased (c :: before') = true :=
  meetsCased_append_mono more [c]

theorem length_lowerBetween (before before' : List Char) (c : Char) (rest rest' : List Char) :
    (lowerBetween before c rest).length = (lowerBetween before' c rest').length := by
  unfold lowerBetween
  split
  · rfl
  split
  · split <;> split <;> rfl
  · rfl

/-- **What letters on either side alone do not change, letters on both sides do not.** -/
theorem lowercaseBetween_both (left : meetsCased before = true → meetsCased before' = true)
    (right : meetsCased after = true → meetsCased after' = true)
    (leftOnly : lowercaseBetween before' piece after = lowercaseBetween before piece after)
    (rightOnly : lowercaseBetween before piece after' = lowercaseBetween before piece after) :
    lowercaseBetween before' piece after' = lowercaseBetween before piece after := by
  induction piece generalizing before before' with
  | nil => rfl
  | cons c rest ih =>
    rw [lowercaseBetween, lowercaseBetween] at leftOnly rightOnly ⊢
    obtain ⟨leftHead, leftTail⟩ := List.append_inj leftOnly (length_lowerBetween _ _ _ _ _)
    obtain ⟨rightHead, rightTail⟩ := List.append_inj rightOnly (length_lowerBetween _ _ _ _ _)
    have tail := ih (meetsCased_cons_mono left c) leftTail rightTail
    have head : lowerBetween before' c (rest ++ after') = lowerBetween before c (rest ++ after) := by
      have behind := meetsCased_append_mono right rest
      unfold lowerBetween at leftHead rightHead ⊢
      generalize meetsCased before = b at *
      generalize meetsCased before' = b' at *
      generalize meetsCased (rest ++ after) = r at *
      generalize meetsCased (rest ++ after') = r' at *
      revert left behind leftHead rightHead
      split
      · exact fun _ _ _ _ => rfl
      split
      · cases b <;> cases b' <;> cases r <;> cases r' <;> decide
      · exact fun _ _ _ _ => rfl
    rw [head, tail]

/-! ## Steady texts -/

/-- A letter behind the text does not change its lower-case form. -/
def SteadyBeforeLetter (text : String) : Prop := lowercase (text ++ "a") = lowercase text ++ "a"

/-- A letter in front of the text does not change its lower-case form. -/
def SteadyAfterLetter (text : String) : Prop := lowercase ("a" ++ text) = "a" ++ lowercase text

instance (text : String) : Decidable (SteadyBeforeLetter text) :=
  inferInstanceAs (Decidable (_ = _))

instance (text : String) : Decidable (SteadyAfterLetter text) :=
  inferInstanceAs (Decidable (_ = _))

theorem toList_lowercase (text : String) : (lowercase text).toList = lowercaseFrom [] text.toList :=
  String.toList_ofList

theorem toList_lowercase_append_letter (text : String) :
    (lowercase (text ++ "a")).toList = lowercaseBetween [] text.toList ['a'] ++ ['a'] := by
  rw [toList_lowercase, String.toList_append]
  exact lowercaseFrom_append [] text.toList ['a']

theorem toList_lowercase_letter_append (text : String) :
    (lowercase ("a" ++ text)).toList = 'a' :: lowercaseBetween ['a'] text.toList [] := by
  rw [toList_lowercase, String.toList_append, lowercaseBetween_nil]
  rfl

theorem steadyBeforeLetter_iff : SteadyBeforeLetter text ↔
    lowercaseBetween [] text.toList ['a'] = lowercaseBetween [] text.toList [] := by
  rw [SteadyBeforeLetter, ← String.toList_inj, toList_lowercase_append_letter, String.toList_append,
    toList_lowercase, lowercaseBetween_nil]
  exact List.append_left_inj ['a']

theorem steadyAfterLetter_iff : SteadyAfterLetter text ↔
    lowercaseBetween ['a'] text.toList [] = lowercaseBetween [] text.toList [] := by
  rw [SteadyAfterLetter, ← String.toList_inj, toList_lowercase_letter_append, String.toList_append,
    toList_lowercase, lowercaseBetween_nil []]
  exact List.cons_inj_right 'a'

/-- What stands before or behind matters only if it begins with a letter. -/
theorem meetsCased_cases (cs : List Char) :
    meetsCased cs = meetsCased [] ∨ meetsCased cs = meetsCased ['a'] := by
  have letter : meetsCased ['a'] = true := by decide
  rw [letter]
  exact (Bool.eq_false_or_eq_true (meetsCased cs)).symm

/-- **A text that is steady on the sides on which something stands has its own form there.** -/
theorem lowercaseBetween_eq (left : before = [] ∨ SteadyAfterLetter text)
    (right : after = [] ∨ SteadyBeforeLetter text) :
    lowercaseBetween before text.toList after = (lowercase text).toList := by
  rw [toList_lowercase, ← lowercaseBetween_nil]
  have leftOnly : lowercaseBetween before text.toList [] = lowercaseBetween [] text.toList [] := by
    rcases left with rfl | steady
    · rfl
    rcases meetsCased_cases before with same | same
    · exact lowercaseBetween_congr same rfl _
    · exact (lowercaseBetween_congr same rfl _).trans (steadyAfterLetter_iff.mp steady)
  have rightOnly : lowercaseBetween [] text.toList after = lowercaseBetween [] text.toList [] := by
    rcases right with rfl | steady
    · rfl
    rcases meetsCased_cases after with same | same
    · exact lowercaseBetween_congr rfl same _
    · exact (lowercaseBetween_congr rfl same _).trans (steadyBeforeLetter_iff.mp steady)
  exact lowercaseBetween_both (meetsCased_of_nil _) (meetsCased_of_nil _) leftOnly rightOnly

/-- So a text that goes on only on steady sides of a piece has the form of the piece in it. -/
theorem toList_lowercase_between {whole : String} {front back : List Char}
    (parts : whole.toList = front ++ text.toList ++ back)
    (left : front = [] ∨ SteadyAfterLetter text) (right : back = [] ∨ SteadyBeforeLetter text) :
    (lowercase whole).toList =
      lowercaseBetween [] front (text.toList ++ back) ++ (lowercase text).toList ++
        lowercaseFrom (text.toList.reverse ++ front.reverse) back := by
  have reversed : front.reverse = [] ∨ SteadyAfterLetter text := left.imp_left fun h => by rw [h]; rfl
  rw [toList_lowercase, parts, List.append_assoc, lowercaseFrom_append, lowercaseFrom_append,
    List.append_nil, lowercaseBetween_eq reversed right, List.append_assoc]

theorem steady_of_no_sigma (plain : 'Σ' ∉ text.toList) :
    SteadyBeforeLetter text ∧ SteadyAfterLetter text :=
  ⟨steadyBeforeLetter_iff.mpr (lowercaseBetween_of_no_sigma plain),
    steadyAfterLetter_iff.mpr (lowercaseBetween_of_no_sigma plain)⟩

/-! ## Texts that are not steady -/

/-- Letters in front and none behind make sigmas final, and change nothing else. -/
theorem forall₂_lowercaseBetween (left : meetsCased before = true → meetsCased before' = true)
    (right : meetsCased after' = true → meetsCased after = true) (piece : List Char) :
    List.Forall₂ (fun c d => c = d ∨ c = 'σ' ∧ d = 'ς') (lowercaseBetween before piece after)
      (lowercaseBetween before' piece after') := by
  induction piece generalizing before before' with
  | nil => exact .nil
  | cons c rest ih =>
    rw [lowercaseBetween, lowercaseBetween]
    refine List.rel_append ?_ (ih (meetsCased_cons_mono left c))
    have behind := meetsCased_append_mono right rest
    unfold lowerBetween
    generalize meetsCased before = b at *
    generalize meetsCased before' = b' at *
    generalize meetsCased (rest ++ after) = r at *
    generalize meetsCased (rest ++ after') = r' at *
    split
    · simp
    split
    · cases b <;> cases b' <;> cases r <;> cases r' <;> simp_all
    · simp

/-- Texts that differ only where one has a character and the other has not are told apart by how often
they have it. -/
theorem count_of_forall₂ (s : Char) {cs ds : List Char}
    (differ : List.Forall₂ (fun c d => c = d ∨ c ≠ s ∧ d = s) cs ds) :
    cs.count s ≤ ds.count s ∧ (ds.count s ≤ cs.count s → cs = ds) := by
  induction differ with
  | nil => exact ⟨Nat.le_refl _, fun _ => rfl⟩
  | cons head _ ih =>
    rcases head with rfl | ⟨other, rfl⟩
    · rw [List.count_cons, List.count_cons]
      exact ⟨Nat.add_le_add_right ih.1 _, fun h => by rw [ih.2 (Nat.le_of_add_le_add_right h)]⟩
    · rw [List.count_cons_of_ne other, List.count_cons_self]
      exact ⟨Nat.le_succ_of_le ih.1, fun h => absurd (Nat.le_trans h ih.1) (Nat.not_succ_le_self _)⟩

/-- **Where a letter in front changes the form of a text, the text with the letter does not have the
form of the text alone anywhere.** -/
theorem steadyAfterLetter_of_infix
    (occurs : (lowercase text).toList <:+: (lowercase ("a" ++ text)).toList) :
    SteadyAfterLetter text := by
  rw [toList_lowercase_letter_append, toList_lowercase, ← lowercaseBetween_nil] at occurs
  have differ : List.Forall₂ (fun c d => c = d ∨ c ≠ 'σ' ∧ d = 'σ')
      (lowercaseBetween ['a'] text.toList []) (lowercaseBetween [] text.toList []) := by
    have more : List.Forall₂ (fun c d => c = d ∨ c = 'σ' ∧ d = 'ς')
        (lowercaseBetween [] text.toList []) (lowercaseBetween ['a'] text.toList []) :=
      forall₂_lowercaseBetween (meetsCased_of_nil _) id text.toList
    refine (more.imp ?_).flip
    rintro c d (rfl | ⟨rfl, rfl⟩)
    · exact .inl rfl
    · exact .inr (by decide)
  refine steadyAfterLetter_iff.mpr ((count_of_forall₂ 'σ' differ).2 ?_)
  have counted := occurs.sublist.count_le 'σ'
  rwa [List.count_cons_of_ne (by decide)] at counted

/-- **The same of a letter behind.** -/
theorem steadyBeforeLetter_of_infix
    (occurs : (lowercase text).toList <:+: (lowercase (text ++ "a")).toList) :
    SteadyBeforeLetter text := by
  rw [toList_lowercase_append_letter, toList_lowercase, ← lowercaseBetween_nil] at occurs
  have differ : List.Forall₂ (fun c d => c = d ∨ c ≠ 'ς' ∧ d = 'ς')
      (lowercaseBetween [] text.toList ['a']) (lowercaseBetween [] text.toList []) := by
    have more : List.Forall₂ (fun c d => c = d ∨ c = 'σ' ∧ d = 'ς')
        (lowercaseBetween [] text.toList ['a']) (lowercaseBetween [] text.toList []) :=
      forall₂_lowercaseBetween id (meetsCased_of_nil _) text.toList
    refine more.imp ?_
    rintro c d (rfl | ⟨rfl, rfl⟩)
    · exact .inl rfl
    · exact .inr (by decide)
  refine steadyBeforeLetter_iff.mpr ((count_of_forall₂ 'ς' differ).2 ?_)
  have counted := occurs.sublist.count_le 'ς'
  rwa [List.count_append, List.count_eq_zero_of_not_mem (l := ['a']) (by decide), Nat.add_zero]
    at counted

end Roster.Text
