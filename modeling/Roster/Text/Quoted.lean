import Roster.Json.Printer
import Roster.Text.PrintData
import Roster.Text.Ranges

/-!
# Texts quoted in messages

A message that repeats a text puts it between quotes. Quotes, backslashes and
the characters that would not be seen are escaped, the latter by their code
point in base sixteen.
-/

namespace Roster.Text

/-- A character as its code point. -/
def codePointEscape (c : Char) : List Char :=
  ['\\', 'u', '\x7b'] ++ Nat.toDigits 16 c.toNat ++ ['\x7d']

/-- One character between quotes. -/
def quoteChar (c : Char) : List Char :=
  if c = '"' then ['\\', '"']
  else if c = '\\' then ['\\', '\\']
  else if c = '\n' then ['\\', 'n']
  else if c = '\r' then ['\\', 'r']
  else if c = '\t' then ['\\', 't']
  else if c.toNat = 0 then ['\\', '0']
  else if inRanges c.toNat extendingRanges || inRanges c.toNat hiddenRanges then codePointEscape c
  else [c]

/-- A text between quotes. -/
def quoted (text : String) : String :=
  String.ofList ('"' :: text.toList.flatMap quoteChar ++ ['"'])

end Roster.Text
