/-!
# Double precision numbers, exactly

A finite IEEE double is a sign and a RANK: its place, counted from zero, among
the non-negative doubles in increasing order. Ranks make every question about
doubles a question about natural numbers. Order is order of ranks, the next
double is the next rank, and `Double.units` gives the value itself as a whole
number of steps of `2⁻¹⁰⁷⁴`, the smallest positive double.

Rounding happens in one place, `rankNearest`: the rank nearest to a quotient of
natural numbers, an exact half going to the even rank. Integers, products,
quotients and sums of doubles, and decimals are all rounded by it.

Infinities and NaN are not represented: no document can carry them. An
operation whose result would be too large answers `none`.
-/

namespace Roster

/-- The number of finite non-negative doubles, and so the first rank that is too large. -/
def Double.rankBound : Nat := 2047 * Nat.pow 2 52

/-- A finite double. Both zeros are present, at rank zero. -/
structure Double where
  negative : Bool
  rank : Nat
  rank_lt : rank < Double.rankBound
deriving DecidableEq, Repr

namespace Double

/-- Positive zero. -/
def zero : Double := ⟨false, 0, by decide⟩

instance : Inhabited Double := ⟨zero⟩

/-! ## Value -/

/-- The magnitude of the double of a rank, in steps of `2⁻¹⁰⁷⁴`. -/
def unitsOfRank (rank : Nat) : Nat :=
  let binade := rank / Nat.pow 2 52
  let fraction := rank % Nat.pow 2 52
  if binade = 0 then fraction else (Nat.pow 2 52 + fraction) * Nat.pow 2 (binade - 1)

/-- The magnitude, in steps of `2⁻¹⁰⁷⁴`. -/
def units (d : Double) : Nat := unitsOfRank d.rank

/-- The signed place of a double: equal for the two zeros, increasing with the value. -/
def place (d : Double) : Int := if d.negative then -d.rank else d.rank

/-- Numeric comparison. -/
def order (a b : Double) : Ordering := compare a.place b.place

/-- Numeric equality: the two zeros are equal, though they are written differently. -/
def sameValue (a b : Double) : Bool := a.place == b.place

/-- One of the two zeros. -/
def isZero (d : Double) : Bool := d.rank == 0

/-! ## Rounding -/

/-- The quotient `num / den` rounded to a whole number, a half going to the even neighbour. -/
def roundHalfEven (num den : Nat) : Nat :=
  let quotient := num / den
  let rest := num % den
  if 2 * rest > den ∨ (2 * rest = den ∧ quotient % 2 = 1) then quotient + 1 else quotient

/-- The rank of the double nearest to `num / den`; it may lie beyond the largest one. -/
def rankNearest (num den : Nat) : Nat :=
  let scaled := num * Nat.pow 2 1074
  let shift := (scaled / den).log2 - 52
  shift * Nat.pow 2 52 + roundHalfEven scaled (den * Nat.pow 2 shift)

/-- The double nearest to `± num / den`, if one is finite. -/
def ofRatio? (negative : Bool) (num den : Nat) : Option Double :=
  let rank := rankNearest num den
  if h : rank < rankBound then some ⟨negative, rank, h⟩ else none

/-- The double nearest to an integer, the largest double standing for all beyond it. -/
def ofInt (i : Int) : Double :=
  let rank := rankNearest i.natAbs 1
  if h : rank < rankBound then ⟨i < 0, rank, h⟩
  else ⟨i < 0, rankBound - 1, by decide⟩

/-! ## Arithmetic -/

/-- The rounded product. -/
def mul? (a b : Double) : Option Double :=
  ofRatio? (a.negative != b.negative) (a.units * b.units) (Nat.pow 2 2148)

/-- The rounded quotient by a double other than zero. -/
def div? (a b : Double) : Option Double :=
  ofRatio? (a.negative != b.negative) a.units b.units

/-- The signed value, in steps of `2⁻¹⁰⁷⁴`. -/
def signedUnits (d : Double) : Int := if d.negative then -d.units else d.units

/-- The rounded sum; a sum of zero is negative only for two negative zeros. -/
def add? (a b : Double) : Option Double :=
  let sum := a.signedUnits + b.signedUnits
  let negative := if sum = 0 then a.negative && b.negative else sum < 0
  ofRatio? negative sum.natAbs (Nat.pow 2 1074)

/-! ## Decimals -/

/-- The double nearest to `10 ^ k`, for the exponents that have one. -/
def powerOfTen? (k : Nat) : Option Double := ofRatio? false (Nat.pow 10 k) 1

/-- Division by powers of ten, at most `10³⁰⁸` at a time, each step rounded.

`fuel` bounds the steps; a quotient reaches zero after three. -/
def scaleDown : Nat → Double → Nat → Option Double
  | 0, d, _ => some ⟨d.negative, 0, by decide⟩
  | fuel + 1, d, k =>
    if d.isZero then some d
    else if k ≤ 308 then powerOfTen? k >>= d.div?
    else (powerOfTen? 308 >>= d.div?) >>= (scaleDown fuel · (k - 308))

/-- Reads `± digits · 10 ^ exponent` in two roundings: the digits to a double, then the product
with, or the quotient by, the double nearest to the power of ten. -/
def ofDecimal? (negative : Bool) (digits : Nat) (exponent : Int) : Option Double := do
  let whole ← ofRatio? negative digits 1
  if 0 ≤ exponent then
    if exponent ≤ 308 then powerOfTen? exponent.toNat >>= whole.mul?
    else if whole.isZero then some whole else none
  else scaleDown 4 whole exponent.natAbs

end Double

end Roster
