import Roster.Json.Basic
import Roster.Client.Batch

/-!
# Counting pages in words of 64 bits

Sizes, places and counts are words, but the definitions of this library compute on natural numbers.
`Word.add?`, `Word.sub?`, `Word.mul?`, `Word.div?` and `Word.ceilDiv?` are the operations of words:
they have no result where it would not fit, or where a divisor is zero.

What keeps page numbers within words is where a window starts. `StartsPage` says that it starts with
a page, and that it is not at the very end of the words. Only a window in front of a further page is
moved on, and then the page after it ends before some count that is itself a word.
-/

namespace Roster

/-! ## Operations of words -/

namespace Word

/-- The number is a word. -/
def Fits (n : Nat) : Prop := n < Json.wordBound

instance (n : Nat) : Decidable (Fits n) := inferInstanceAs (Decidable (n < Json.wordBound))

/-- The sum, if it is a word. -/
def add? (a b : Nat) : Option Nat := if Fits (a + b) then some (a + b) else none

/-- The difference, if it is not below zero. -/
def sub? (a b : Nat) : Option Nat := if b ≤ a then some (a - b) else none

/-- The product, if it is a word. -/
def mul? (a b : Nat) : Option Nat := if Fits (a * b) then some (a * b) else none

/-- The quotient, rounded down. -/
def div? (a b : Nat) : Option Nat := if b = 0 then none else some (a / b)

/-- The quotient, rounded up: one more where there is a remainder. -/
def ceilDiv? (a b : Nat) : Option Nat := do
  let quotient ← div? a b
  if a % b = 0 then return quotient else add? quotient 1

/-- The number of the page on which a window starts, counted from one. -/
def pageNumber? (size skip : Nat) : Option Nat := do add? (← div? skip size) 1

theorem Fits.mono {m n : Nat} (fits : Fits n) (le : m ≤ n) : Fits m := Nat.lt_of_le_of_lt le fits

variable {a b : Nat}

theorem add?_eq_some (fits : Fits (a + b)) : add? a b = some (a + b) := if_pos fits

theorem sub?_eq_some (le : b ≤ a) : sub? a b = some (a - b) := if_pos le

theorem mul?_eq_some (fits : Fits (a * b)) : mul? a b = some (a * b) := if_pos fits

theorem div?_eq_some (positive : 0 < b) : div? a b = some (a / b) :=
  if_neg (Nat.ne_of_gt positive)

end Word

/-! ## Counting pages -/

section PageCount

variable {items size : Nat}

/-- A page is one of the pages exactly when there is an item on it. -/
theorem lt_pageCount_iff (sized : 0 < size) (page : Nat) :
    page < pageCount items size ↔ page * size < items := by
  rw [pageCount, Nat.lt_iff_add_one_le, Nat.le_div_iff_mul_le sized, Nat.succ_mul]
  omega

/-- Every page has an item of its own. -/
theorem pageCount_le (sized : 0 < size) : pageCount items size ≤ items := by
  refine Nat.le_of_not_lt fun more => ?_
  have item := (lt_pageCount_iff sized items).mp more
  exact Nat.not_lt_of_le (Nat.le_mul_of_pos_right items sized) item

/-- The count of pages is the quotient, rounded up. -/
theorem pageCount_eq (sized : 0 < size) :
    pageCount items size = if items % size = 0 then items / size else items / size + 1 := by
  have parts := Nat.div_add_mod items size
  have rest := Nat.mod_lt items sized
  -- what is left over fills no page by itself
  have quotient : ∀ left pages, left < size → (left + size * pages) / size = pages := by
    intro left pages small
    rw [Nat.add_mul_div_left _ _ sized, Nat.div_eq_of_lt small, Nat.zero_add]
  rw [pageCount]
  split
  · next full =>
    rw [show items + size - 1 = size - 1 + size * (items / size) by omega]
    exact quotient _ _ (by omega)
  · next partly =>
    rw [show items + size - 1 = items % size - 1 + size * (items / size + 1) by
      rw [Nat.mul_succ]; omega]
    exact quotient _ _ (by omega)

/-- Pages can be counted in words. -/
theorem Word.ceilDiv?_eq_pageCount (sized : 0 < size) (fits : Word.Fits items) :
    Word.ceilDiv? items size = some (pageCount items size) := by
  have least : Word.Fits (pageCount items size) := fits.mono (pageCount_le sized)
  rw [pageCount_eq sized] at least ⊢
  rw [Word.ceilDiv?, Word.div?_eq_some sized, Option.bind_eq_bind, Option.bind_some]
  split
  · rfl
  · next partly =>
    rw [if_neg partly] at least
    exact Word.add?_eq_some least

end PageCount

/-! ## Where a window starts -/

/-- A window starts with a page, and there is room for one row more at least. -/
structure StartsPage (size skip : Nat) : Prop where
  aligned : size ∣ skip
  room : Word.Fits (skip + 1)

namespace StartsPage

variable {size skip items : Nat}

theorem first (size : Nat) : StartsPage size 0 := ⟨size.dvd_zero, by decide⟩

/-- The page has a number. -/
theorem pageNumber (starts : StartsPage size skip) (sized : 0 < size) :
    Word.pageNumber? size skip = some (skip / size + 1) := by
  rw [Word.pageNumber?, Word.div?_eq_some sized, Option.bind_eq_bind, Option.bind_some]
  exact Word.add?_eq_some (starts.room.mono (Nat.succ_le_succ (Nat.div_le_self skip size)))

/-- A page starts in front of an item that can be counted. -/
theorem of_lt_pageCount (sized : 0 < size) (fits : Word.Fits items) {page : Nat}
    (further : page < pageCount items size) : StartsPage size (page * size) where
  aligned := Nat.dvd_mul_left size page
  room := fits.mono ((lt_pageCount_iff sized page).mp further)

/-- The page after this one starts where this one ends. -/
theorem next_eq (starts : StartsPage size skip) : (skip / size + 1) * size = skip + size := by
  rw [Nat.succ_mul, Nat.div_mul_cancel starts.aligned]

/-- In front of a further page, the window can be moved on. -/
theorem next (starts : StartsPage size skip) (sized : 0 < size) (fits : Word.Fits items)
    (further : skip / size + 1 < pageCount items size) : StartsPage size (skip + size) := by
  have start := of_lt_pageCount sized fits further
  rwa [starts.next_eq] at start

theorem fits (starts : StartsPage size skip) : Word.Fits skip := starts.room.mono skip.le_succ

end StartsPage

end Roster
