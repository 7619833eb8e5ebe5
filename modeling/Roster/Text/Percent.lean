import Roster.Json.Parser
import Roster.Text.Bytes

/-!
# Percent encoding

In a location a byte can be written as `%` and two digits of base sixteen. A `%`
that no two digits follow stands for itself.
-/

namespace Roster.Percent

/-- The byte of two digits. -/
def byte? (high low : UInt8) : Option UInt8 := do
  let h ← Json.hexValue? (Char.ofNat high.toNat)
  let l ← Json.hexValue? (Char.ofNat low.toNat)
  return UInt8.ofNat (h * 16 + l)

/-- Replaces every escape by its byte. -/
def unescape : List UInt8 → List UInt8
  | 0x25 :: h :: l :: rest =>
    match byte? h l with
    | some b => b :: unescape rest
    | none => 0x25 :: unescape (h :: l :: rest)
  | b :: rest => b :: unescape rest
  | [] => []

/-- The text behind an escaped text, unless its bytes are no text. -/
def decode? (text : String) : Option String := Text.ofBytes? (unescape (Text.bytes text))

end Roster.Percent
