import Roster.Number.Decimal

/-!
# Digits of a scaled double

A quick way to the digits of a double: the double and the ends of its rounding
interval are scaled by a power of ten until the point stands inside a word of
64 bits, and digits are cut off from the upper end until what is left over is
inside the interval. The last digit is then moved down towards the double.

Powers of ten are known to one word only, so the scaled ends are uncertain in
their last place, and the interval is taken that much narrower on both sides.
What `Double.scaledDigits` answers therefore reads back, but there may be fewer
digits that do, and others may be nearer to the double.
-/

namespace Roster.Double

/-- A positive number `significand · 2 ^ exponent`. -/
structure Scaled where
  significand : Nat
  exponent : Int
deriving DecidableEq, Repr

/-- The power `10 ^ k` with a significand of 64 bits. -/
def wordPower (k : Int) : Scaled :=
  if 0 ≤ k then
    let power := Nat.pow 10 k.toNat
    let exponent : Int := (power.log2 : Int) - 63
    ⟨roundHalfEven (power * Nat.pow 2 (-exponent).toNat) (Nat.pow 2 exponent.toNat), exponent⟩
  else
    let power := Nat.pow 10 k.natAbs
    let shift := power.log2 + 64
    ⟨roundHalfEven (Nat.pow 2 shift) power, -shift⟩

/-- The power by which a number `2 ^ exponent · n` is scaled, where `n` has 64 bits: the least
power that is large enough, among those four beyond a multiple of eight. -/
def scalePower (exponent : Int) : Int :=
  let enough := -((61 + exponent) * 30103 / 100000)
  8 * ((enough + 347) / 8) - 340

/-- The upper half of the product of two words, rounded. -/
def upperWord (a b : Nat) : Nat := (a * b + Nat.pow 2 63) / Nat.pow 2 64

/-- A scaled interval: its upper end, how far below it the double stands and how far the lower end,
all in steps of `1 / unit`, and the power of ten by which it was scaled. -/
structure ScaledInterval where
  upper : Nat
  gap : Nat
  width : Nat
  unit : Nat
  power : Int

/-- The scaled rounding interval of a positive rank. A double whose significand is a power of two
has its lower neighbour at half the distance. -/
def scaledInterval (rank : Nat) : ScaledInterval :=
  let binade := rank / Nat.pow 2 52
  let fraction := rank % Nat.pow 2 52
  let significand := if binade = 0 then fraction else Nat.pow 2 52 + fraction
  let shift := 62 - significand.log2
  let step := Nat.pow 2 shift
  let value := 2 * significand * step
  let below := if significand = Nat.pow 2 52 then step / 2 else step
  let exponent : Int := (max binade 1 : Nat) - 1076 - shift
  let power := scalePower exponent
  let scale := wordPower power
  let upper := upperWord (value + step) scale.significand - 1
  let lower := upperWord (value - below) scale.significand + 1
  ⟨upper, upper - upperWord value scale.significand, upper - lower,
    Nat.pow 2 (-(exponent + scale.exponent + 64)).toNat, power⟩

/-- Moves the last of some digits down as long as that brings them nearer to the double and keeps
them inside the interval; `rest` is what was left over, `place` the worth of the last digit. -/
def approach (gap width place : Nat) : Nat → Nat → Nat
  | 0, _ => 0
  | digits + 1, rest =>
    let next := rest + place
    if rest < gap ∧ next ≤ width ∧ (next < gap ∨ next - gap < gap - rest)
    then approach gap width place digits next
    else digits + 1

/-- Cuts the digits off before the place `10 ^ place`, if what is left over is inside the interval.
From nine places behind the point on the last digit is left as it is. -/
def ScaledInterval.cut? (i : ScaledInterval) (place : Int) : Option Nat :=
  let up := Nat.pow 10 (-place).toNat
  let worth := i.unit * Nat.pow 10 place.toNat
  let rest := i.upper * up % worth
  let width := i.width * up
  let inside := if 0 ≤ place then rest ≤ width else rest < width
  if inside then
    some (approach (if place ≤ -9 then 0 else i.gap * up) width worth (i.upper * up / worth) rest)
  else none

/-- The first place, downwards from `place`, where the digits can be cut off. -/
def ScaledInterval.firstCut (i : ScaledInterval) : Nat → Int → Nat × Int
  | 0, place => (i.upper / i.unit, place)
  | fuel + 1, place =>
    match i.cut? place with
    | some digits => (digits, place)
    | none => i.firstCut fuel (place - 1)

/-- The digits of a positive rank. Twenty places behind the point always suffice. -/
def scaledDigits (rank : Nat) : Digits :=
  let i := scaledInterval rank
  let whole := (Nat.toDigits 10 (i.upper / i.unit)).length
  let (digits, place) := i.firstCut (whole + 20) ((whole : Int) - 1)
  let text := Nat.toDigits 10 digits
  ⟨text, (text.length : Int) + place - i.power⟩

end Roster.Double
