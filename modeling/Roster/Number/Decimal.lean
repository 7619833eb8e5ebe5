import Roster.Number.Double

/-!
# Shortest decimals

A double is written with the fewest digits that read back as the same double,
and of those with the digits nearest to it. `Double.shortest` finds them: for
one digit, two digits, … it tries the two neighbours of the double on that
decimal grid, and the first grid with a neighbour inside the interval of reals
that round to the double wins.

`Digits` are what a writer lays out: the digits themselves and the place of
their point.
-/

namespace Roster

/-- The digits of a whole number in base ten. -/
def decimal (n : Nat) : String := String.ofList (Nat.toDigits 10 n)

/-- An integer in base ten, with a minus sign where it is negative. -/
def signedDecimal (i : Int) : String :=
  if i < 0 then "-" ++ decimal i.natAbs else decimal i.natAbs

/-- A positive decimal `0.d₁d₂… · 10 ^ point`, without leading or trailing zeros. -/
structure Digits where
  digits : List Char
  point : Int
deriving DecidableEq, Repr

namespace Double

/-- The interval of the reals that round to a rank, in quarters of its last place:
lower end, value and upper end, over the common denominator `4 · 2¹⁰⁷⁴`.
Below a power of two the doubles lie twice as dense. -/
def roundingInterval (rank : Nat) : Nat × Nat × Nat :=
  let binade := rank / Nat.pow 2 52
  let step := Nat.pow 2 (binade - 1)
  let value := 4 * unitsOfRank rank
  let below := if rank % Nat.pow 2 52 = 0 ∧ 1 < binade then step else 2 * step
  (value - below, value, value + 2 * step)

/-- The least `k` with `num < den * 10 ^ k`, searched upwards from `start`. -/
def decimalPoint (num den : Nat) : Nat → Int → Int
  | 0, start => start
  | fuel + 1, start =>
    let reached :=
      if start < 0 then num * Nat.pow 10 start.natAbs < den else num < den * Nat.pow 10 start.toNat
    if reached then start else decimalPoint num den fuel (start + 1)

/-- One candidate grid: the neighbours of `value / den` among the multiples of `10 ^ (point - n)`,
kept where they lie in the interval, the nearer one first. -/
def gridPoint? (low value high den : Nat) (closed tieUp : Bool) (point : Int) (n : Nat) :
    Option Nat :=
  let exponent := point - n
  let up := if exponent < 0 then Nat.pow 10 exponent.natAbs else 1
  let unit := den * (if exponent < 0 then 1 else Nat.pow 10 exponent.toNat)
  let floor := value * up / unit
  let inside (d : Nat) : Bool :=
    if closed then low * up ≤ d * unit && d * unit ≤ high * up
    else low * up < d * unit && d * unit < high * up
  let below := value * up - floor * unit
  let above := (floor + 1) * unit - value * up
  let preferUp := above < below || (above == below && (tieUp || floor % 2 == 1))
  match inside floor, inside (floor + 1) with
  | true, true => some (if preferUp then floor + 1 else floor)
  | true, false => some floor
  | false, true => some (floor + 1)
  | false, false => none

/-- The first of the grids with `n`, `n + 1`, … digits that has a point in the interval. -/
def firstGrid (low value high den : Nat) (closed tieUp : Bool) (point : Int) :
    Nat → Nat → Nat × Nat
  | 0, n => (value / den, n)
  | fuel + 1, n =>
    match gridPoint? low value high den closed tieUp point n with
    | some d => (d, n)
    | none => firstGrid low value high den closed tieUp point fuel (n + 1)

/-- The shortest digits of a positive rank. Seventeen digits always suffice.

`tieUp` decides between two shortest decimals that are equally near: the upper one, or the one
whose last digit is even. -/
def shortest (tieUp : Bool) (rank : Nat) : Digits :=
  let (low, value, high) := roundingInterval rank
  let den := 4 * Nat.pow 2 1074
  let estimate : Int := ((value.log2 : Int) - (den.log2 : Int)) * 30103 / 100000 - 1
  let point := decimalPoint value den 8 estimate
  let (d, n) := firstGrid low value high den (rank % 2 == 0) tieUp point 17 1
  let text := Nat.toDigits 10 d
  let kept := (text.reverse.dropWhile (· == '0')).reverse
  ⟨kept, point + (text.length - n : Int)⟩

end Double

end Roster
