import Roster.Number.Scaled

/-!
# Layouts of a double

How the digits of a double are laid out is a `Layout`: which digits are taken,
where positional notation ends, whether a whole number keeps a fraction part,
how an exponent is written. The three layouts in use are `Layout.json`,
`Layout.plain` and `Layout.metric`.
-/

namespace Roster

/-- How the digits of a double are laid out. -/
structure Layout where
  /-- The least and the greatest scientific exponent written positionally. -/
  positional : Int × Int
  /-- A whole number is written with a fraction part `.0`. -/
  fraction : Bool
  /-- A positive exponent is written with its sign. -/
  plusSign : Bool
  /-- The digits of the double of a positive rank. -/
  digits : Nat → Digits

namespace Layout

/-- The layout of numbers inside a JSON text. -/
def json : Layout := ⟨(-5, 15), true, true, Double.shortest false⟩

/-- The layout of a number that is written outside a JSON text: always positional. -/
def plain : Layout := ⟨(-400, 400), false, false, Double.shortest true⟩

/-- The layout of sums and bounds in a metrics page. -/
def metric : Layout := ⟨(-6, 20), true, false, Double.scaledDigits⟩

/-- Positional notation. -/
def writePositional (fraction : Bool) (d : Digits) : List Char :=
  if d.point ≤ 0 then '0' :: '.' :: (List.replicate d.point.natAbs '0' ++ d.digits)
  else
    let whole := d.point.toNat
    if d.digits.length ≤ whole then
      d.digits ++ List.replicate (whole - d.digits.length) '0' ++
        (if fraction then ['.', '0'] else [])
    else d.digits.take whole ++ '.' :: d.digits.drop whole

/-- Scientific notation. -/
def writeScientific (plusSign : Bool) (d : Digits) : List Char :=
  let exponent := d.point - 1
  let mantissa :=
    match d.digits with
    | [] => []
    | [first] => [first]
    | first :: rest => first :: '.' :: rest
  mantissa ++ 'e' :: (if 0 ≤ exponent ∧ plusSign then ['+'] else []) ++
    (signedDecimal exponent).toList

/-- The text of a double. -/
def write (l : Layout) (d : Double) : String :=
  let sign := if d.negative then "-" else ""
  if d.rank = 0 then sign ++ (if l.fraction then "0.0" else "0")
  else
    let digits := l.digits d.rank
    let exponent := digits.point - 1
    let body :=
      if l.positional.1 ≤ exponent ∧ exponent ≤ l.positional.2
      then writePositional l.fraction digits
      else writeScientific l.plusSign digits
    sign ++ String.ofList body

end Layout

end Roster
