import Roster.Json.Parser

/-!
# Timestamps

A timestamp of RFC 3339: a date of the calendar, a time of day and an offset
from universal time. Only the form is checked here; timestamps are compared as
texts. `Timestamp.ofMinutes` writes the ones that records are created with.
-/

namespace Roster.Timestamp

/-- A number of two digits. -/
def pair? (a b : Char) : Option Nat :=
  if a.isDigit && b.isDigit then some (Json.naturalOf [a, b]) else none

/-- The year is a leap year. -/
def isLeap (year : Nat) : Bool := year % 4 = 0 && (year % 100 ≠ 0 || year % 400 = 0)

/-- The days of a month. -/
def daysIn (year month : Nat) : Nat :=
  if month = 2 then (if isLeap year then 29 else 28)
  else if month = 4 ∨ month = 6 ∨ month = 9 ∨ month = 11 then 30
  else 31

/-- A date, and the text after it. -/
def afterDate? : List Char → Option (List Char)
  | a :: b :: c :: d :: '-' :: m :: n :: '-' :: e :: f :: rest => do
    let year := (← pair? a b) * 100 + (← pair? c d)
    let month ← pair? m n
    let day ← pair? e f
    if 1 ≤ month ∧ month ≤ 12 ∧ 1 ≤ day ∧ day ≤ daysIn year month then some rest else none
  | _ => none

/-- A time of day up to its seconds, and the text after it. The sixtieth second is a leap second. -/
def afterTime? : List Char → Option (List Char)
  | a :: b :: ':' :: c :: d :: ':' :: e :: f :: rest => do
    let hour ← pair? a b
    let minute ← pair? c d
    let second ← pair? e f
    if hour ≤ 23 ∧ minute ≤ 59 ∧ second ≤ 60 then some rest else none
  | _ => none

/-- A fraction of a second, if there is one, and the text after it. -/
def afterFraction? : List Char → Option (List Char)
  | '.' :: rest =>
    if (rest.takeWhile Char.isDigit).isEmpty then none else some (rest.dropWhile Char.isDigit)
  | rest => some rest

/-- The rest of the text is an offset. -/
def isOffset : List Char → Bool
  | ['Z'] => true
  | ['z'] => true
  | [sign, a, b, ':', c, d] =>
    (sign = '+' || sign = '-' || sign = '−') &&
      (pair? a b).any (· ≤ 23) && (pair? c d).any (· ≤ 59)
  | _ => false

/-- The text is a timestamp. -/
def isValid (text : String) : Bool :=
  let offset : Option (List Char) := do
    match ← afterDate? text.toList with
    | sep :: rest =>
      if sep = 'T' ∨ sep = 't' ∨ sep = ' ' then afterFraction? (← afterTime? rest) else none
    | [] => none
  offset.any isOffset

/-! ## Writing -/

/-- A number with two digits at least. -/
def twoDigits (n : Nat) : String := (if n < 10 then "0" else "") ++ decimal n

/-- The month and the day on which some days have passed since the start of a month. `fuel` bounds
the months that are looked at. -/
def monthAndDay (year : Nat) : Nat → Nat → Nat → Nat × Nat
  | 0, month, days => (month, days + 1)
  | fuel + 1, month, days =>
    if days < daysIn year month then (month, days + 1)
    else monthAndDay year fuel (month + 1) (days - daysIn year month)

/-- The days of a year. -/
def daysOfYear (year : Nat) : Nat := if isLeap year then 366 else 365

/-- The date on which some days have passed since the start of a year. `fuel` bounds the years that
are looked at. -/
def dateAfter : Nat → Nat → Nat → Nat × Nat × Nat
  | 0, year, days => (year, monthAndDay year 12 1 days)
  | fuel + 1, year, days =>
    if days < daysOfYear year then (year, monthAndDay year 12 1 days)
    else dateAfter fuel (year + 1) (days - daysOfYear year)

/-- The timestamp of a full minute after the start of the year 2025. -/
def ofMinutes (minutes : Nat) : String :=
  let days := minutes / 1440
  let (year, month, day) := dateAfter (days / 365 + 1) 2025 days
  decimal year ++ "-" ++ twoDigits month ++ "-" ++ twoDigits day ++ "T" ++
    twoDigits (minutes % 1440 / 60) ++ ":" ++ twoDigits (minutes % 60) ++ ":00+00:00"

end Roster.Timestamp
