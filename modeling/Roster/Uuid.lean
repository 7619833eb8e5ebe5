import Roster.Json.Parser
import Roster.Json.Printer

/-!
# Identifiers

A universally unique identifier is a word of 128 bits. It is written as 32
digits of base sixteen in five groups, in lower case, and read in that form, in
any letter case, without its hyphens, in braces, or after `urn:uuid:`.
-/

namespace Roster

/-- A universally unique identifier. -/
structure Uuid where
  bits : BitVec 128
deriving DecidableEq, Repr, Inhabited

namespace Uuid

/-- The lengths of the groups of digits. -/
def groups : List Nat := [8, 4, 4, 4, 12]

/-- The 32 digits. -/
def digits (u : Uuid) : List Char :=
  (List.range 32).map fun i => Json.hexDigit (u.bits.toNat / Nat.pow 16 (31 - i) % 16)

/-- Characters in groups of given lengths, with hyphens between the groups. -/
def hyphenate : List Nat → List Char → List Char
  | [], _ => []
  | [n], cs => cs.take n
  | n :: rest, cs => cs.take n ++ '-' :: hyphenate rest (cs.drop n)

/-- The written form. -/
def text (u : Uuid) : String := String.ofList (hyphenate groups u.digits)

/-- Takes the groups apart again; every hyphen has to be in its place. -/
def unhyphenate? : List Nat → List Char → Option (List Char)
  | [], cs => if cs.isEmpty then some [] else none
  | [n], cs => if cs.length = n then some cs else none
  | n :: rest, cs =>
    match cs.drop n with
    | '-' :: others => (unhyphenate? rest others).map (cs.take n ++ ·)
    | _ => none

/-- The identifier of 32 digits. -/
def ofDigits? (cs : List Char) : Option Uuid :=
  if cs.length = 32 then
    (cs.mapM Json.hexValue?).map fun ds => ⟨BitVec.ofNat 128 (ds.foldl (fun n d => n * 16 + d) 0)⟩
  else none

/-- The prefix of the form as a name. -/
def namePrefix : List Char := "urn:uuid:".toList

/-- Reads an identifier in any of its forms. -/
def parse? (text : String) : Option Uuid :=
  let cs := text.toList
  let grouped (cs : List Char) : Option Uuid := unhyphenate? groups cs >>= ofDigits?
  if cs.length = 32 then ofDigits? cs
  else if cs.length = 36 then grouped cs
  else if cs.length = 38 then
    if cs.head? = some '\x7b' ∧ cs.getLast? = some '\x7d' then grouped (cs.drop 1).dropLast else none
  else if cs.length = 45 then
    if (cs.take 9).map Char.toLower = namePrefix then grouped (cs.drop 9) else none
  else none

end Uuid

end Roster
