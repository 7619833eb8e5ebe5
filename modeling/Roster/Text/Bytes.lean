import Roster.Json.Printer

/-!
# Texts as bytes

The UTF-8 bytes of a text, and bytes written in base sixteen.
-/

namespace Roster.Text

/-- The UTF-8 bytes of a text. -/
def bytes (text : String) : List UInt8 := text.toList.flatMap String.utf8EncodeChar

/-- The text that bytes are the UTF-8 form of. -/
def ofBytes? (bytes : List UInt8) : Option String := String.fromUTF8? bytes.toByteArray

/-- Two digits of base sixteen for every byte. -/
def hex (bytes : List UInt8) : String :=
  String.ofList (bytes.flatMap fun b =>
    [Json.hexDigit (b.toNat / 16), Json.hexDigit (b.toNat % 16)])

/-- Different texts have different bytes. -/
theorem bytes_inj {s t : String} : bytes s = bytes t ↔ s = t := by
  constructor
  · intro h
    have := congrArg List.toByteArray h
    rw [← String.toByteArray_inj, ← String.ofList_toList (s := s), ← String.ofList_toList (s := t),
      String.toByteArray_ofList, String.toByteArray_ofList]
    exact this
  · exact congrArg bytes

end Roster.Text
