import Roster.Json.Parser
import Roster.Text.Bytes

/-!
# Strings and their escapes

A string that is written inside a text is read from there again, and reading stops at its closing
quote (`string?_stringChars`). Each character is followed through the three stages of reading: the
search for the closing quote, the resolving of escapes, and the joining of code units. A control
character without a letter of its own is written as a code unit, which is far below the surrogates.

Digits of base sixteen are told apart, and so are bytes written in them.
-/

namespace Roster

namespace Json

/-! ## Digits of base sixteen -/

theorem hexValue?_hexDigit : ∀ n < 16, hexValue? (hexDigit n) = some n := by decide

theorem hexDigit_inj {n m : Nat} (hn : n < 16) (hm : m < 16) (same : hexDigit n = hexDigit m) :
    n = m := by
  have read := congrArg hexValue? same
  rw [hexValue?_hexDigit n hn, hexValue?_hexDigit m hm] at read
  exact Option.some.inj read

/-- A digit needs no escape. -/
theorem hexDigit_plain :
    ∀ n < 16, 32 ≤ (hexDigit n).toNat ∧ hexDigit n ≠ '"' ∧ hexDigit n ≠ '\\' := by
  decide

theorem hex4?_hexDigit {n : Nat} (h : n < 256) :
    hex4? '0' '0' (hexDigit (n / 16)) (hexDigit (n % 16)) = some n := by
  have zero : hexValue? '0' = some 0 := rfl
  rw [hex4?, zero, hexValue?_hexDigit _ (by omega), hexValue?_hexDigit _ (by omega)]
  exact congrArg some (by omega)

/-! ## One character -/

/-- How a character is written: as it is, behind a backslash, or as a code unit. -/
inductive Escaped (c : Char) : Prop
  | plain (eq : escapeChar c = [c]) (low : 32 ≤ c.toNat) (quote : c ≠ '"') (slash : c ≠ '\\')
  | letter (l : Char) (eq : escapeChar c = ['\\', l]) (read : escape? l = some c) (unit : l ≠ 'u')
  | unit (high low : Nat)
      (eq : escapeChar c = ['\\', 'u', '0', '0', hexDigit high, hexDigit low])
      (read : hex4? '0' '0' (hexDigit high) (hexDigit low) = some c.toNat) (small : c.toNat < 32)
      (high_lt : high < 16) (low_lt : low < 16)

theorem escaped (c : Char) : Escaped c := by
  by_cases quote : c = '"'
  · subst quote
    exact .letter '"' rfl rfl (by decide)
  by_cases slash : c = '\\'
  · subst slash
    exact .letter '\\' rfl rfl (by decide)
  by_cases back : c = '\x08'
  · subst back
    exact .letter 'b' rfl rfl (by decide)
  by_cases feed : c = '\x0c'
  · subst feed
    exact .letter 'f' rfl rfl (by decide)
  by_cases line : c = '\n'
  · subst line
    exact .letter 'n' rfl rfl (by decide)
  by_cases ret : c = '\r'
  · subst ret
    exact .letter 'r' rfl rfl (by decide)
  by_cases tab : c = '\t'
  · subst tab
    exact .letter 't' rfl rfl (by decide)
  have rest : escapeChar c = if c.toNat < 32 then
      ['\\', 'u', '0', '0', hexDigit (c.toNat / 16), hexDigit (c.toNat % 16)] else [c] := by
    simp only [escapeChar, quote, slash, back, feed, line, ret, tab, if_false]
  by_cases small : c.toNat < 32
  · rw [if_pos small] at rest
    exact .unit _ _ rest (hex4?_hexDigit (by omega)) small (by omega) (by omega)
  · rw [if_neg small] at rest
    exact .plain rest (by omega) quote slash

/-! ## The three stages of reading -/

theorem quotedBody_plain {c : Char} (low : 32 ≤ c.toNat) (quote : c ≠ '"') (slash : c ≠ '\\')
    (rest : List Char) :
    quotedBody (c :: rest) = (quotedBody rest).map fun p => (c :: p.1, p.2) := by
  rw [quotedBody, if_neg (by omega)]
  · exact fun h => quote h
  · exact fun _ _ h _ => slash h

theorem quotedBody_escapeChar (c : Char) (rest : List Char) :
    quotedBody (escapeChar c ++ rest) =
      (quotedBody rest).map fun p => (escapeChar c ++ p.1, p.2) := by
  cases escaped c with
  | plain eq low quote slash =>
    rw [eq]
    exact quotedBody_plain low quote slash rest
  | letter l eq _ _ =>
    rw [eq]
    rfl
  | unit high low eq _ _ high_lt low_lt =>
    obtain ⟨highLow, highQuote, highSlash⟩ := hexDigit_plain high high_lt
    obtain ⟨lowLow, lowQuote, lowSlash⟩ := hexDigit_plain low low_lt
    -- behind `\u` nothing is an escape to this stage: the four digits are passed one by one
    have digits : quotedBody (hexDigit high :: hexDigit low :: rest) =
        (quotedBody rest).map fun p => (hexDigit high :: hexDigit low :: p.1, p.2) := by
      rw [quotedBody_plain highLow highQuote highSlash, quotedBody_plain lowLow lowQuote lowSlash,
        Option.map_map]
      rfl
    have zero (rest : List Char) :
        quotedBody ('0' :: rest) = (quotedBody rest).map fun p => ('0' :: p.1, p.2) :=
      quotedBody_plain (by decide) (by decide) (by decide) rest
    have start (rest : List Char) : quotedBody ('\\' :: 'u' :: rest) =
        (quotedBody rest).map fun p => ('\\' :: 'u' :: p.1, p.2) := rfl
    rw [eq]
    simp only [List.cons_append, List.nil_append]
    rw [start, zero, zero, digits]
    simp only [Option.map_map]
    rfl

theorem quotedBody_escaped (s rest : List Char) :
    quotedBody (s.flatMap escapeChar ++ '"' :: rest) = some (s.flatMap escapeChar, rest) := by
  induction s with
  | nil => rfl
  | cons c s ih =>
    rw [List.flatMap_cons, List.append_assoc, quotedBody_escapeChar, ih]
    rfl

/-- A piece stands for a character. -/
def Piece.StandsFor (c : Char) : Piece → Prop
  | .char d => d = c
  | .unit n => n = c.toNat ∧ n < 32

theorem pieces?_escapeChar (c : Char) (rest : List Char) :
    ∃ piece : Piece, piece.StandsFor c ∧
      pieces? (escapeChar c ++ rest) = (pieces? rest).map (piece :: ·) := by
  cases escaped c with
  | plain eq _ quote slash =>
    refine ⟨.char c, rfl, ?_⟩
    rw [eq, List.singleton_append, pieces?]
    · cases pieces? rest <;> rfl
    · exact fun _ _ _ _ _ h _ => slash h
    · exact fun _ _ h _ => slash h
  | letter l eq read unit =>
    refine ⟨.char c, rfl, ?_⟩
    rw [eq, List.cons_append, List.singleton_append, pieces?, read]
    · cases pieces? rest <;> rfl
    · exact fun _ _ _ _ _ h _ => unit h
  | unit high low eq read small _ _ =>
    refine ⟨.unit c.toNat, ⟨rfl, small⟩, ?_⟩
    rw [eq]
    simp only [List.cons_append, List.nil_append, pieces?, read]
    cases pieces? rest <;> rfl

/-- Below the surrogates a unit is a character, whatever follows. -/
theorem joinUnits?_cons {c : Char} {piece : Piece} (stands : piece.StandsFor c)
    (rest : List Piece) : joinUnits? (piece :: rest) = (joinUnits? rest).map (c :: ·) := by
  cases piece with
  | char d =>
    cases stands
    rw [joinUnits?]
    cases joinUnits? rest <;> rfl
  | unit n =>
    obtain ⟨rfl, small⟩ := stands
    have high : ¬(0xD800 ≤ c.toNat ∧ c.toNat < 0xDC00) := by omega
    have low : ¬(0xDC00 ≤ c.toNat ∧ c.toNat < 0xE000) := by omega
    have either : ¬(0xD800 ≤ c.toNat ∧ c.toNat < 0xE000) := by omega
    have alone {joined : Option (List Char)} :
        (do return Char.ofNat c.toNat :: (← joined)) = joined.map (c :: ·) := by
      rw [Char.ofNat_toNat]
      cases joined <;> rfl
    rcases rest with _ | ⟨d | m, rest⟩
    · simp only [joinUnits?, if_neg either, alone]
    · simp only [joinUnits?, if_neg either, alone]
    · rw [joinUnits?, if_neg high, if_neg low, alone]

theorem joined_pieces (s : List Char) :
    (pieces? (s.flatMap escapeChar)).bind joinUnits? = some s := by
  induction s with
  | nil => rfl
  | cons c s ih =>
    obtain ⟨piece, stands, eq⟩ := pieces?_escapeChar c (s.flatMap escapeChar)
    obtain ⟨pieces, hp, joined⟩ := Option.bind_eq_some_iff.mp ih
    rw [List.flatMap_cons, eq, hp]
    simp only [Option.map_some, Option.bind_some]
    rw [joinUnits?_cons stands, joined]
    rfl

/-- **A string that is written inside a text is read again**, and nothing behind it. -/
theorem string?_stringChars (s : String) (rest : List Char) :
    string? (s.toList.flatMap escapeChar ++ '"' :: rest) = some (s, rest) := by
  obtain ⟨pieces, hp, joined⟩ := Option.bind_eq_some_iff.mp (joined_pieces s.toList)
  unfold string?
  rw [quotedBody_escaped]
  simp only [bind, Option.bind_some, hp, joined, String.ofList_toList]
  rfl

theorem stringChars_append_inj {s t : String} {r r' : List Char}
    (same : stringChars s ++ r = stringChars t ++ r') : s = t ∧ r = r' := by
  have bodies :
      s.toList.flatMap escapeChar ++ '"' :: r = t.toList.flatMap escapeChar ++ '"' :: r' := by
    simpa [stringChars] using same
  have read := congrArg string? bodies
  rw [string?_stringChars, string?_stringChars] at read
  exact Prod.mk.inj (Option.some.inj read)

end Json

/-! ## Bytes -/

/-- **Bytes are told by their digits.** -/
theorem Text.hex_inj {a b : List UInt8} (same : hex a = hex b) : a = b := by
  have digits := String.ofList_inj.mp same
  clear same
  induction a generalizing b with
  | nil =>
    cases b with
    | nil => rfl
    | cons _ _ => cases digits
  | cons x a ih =>
    cases b with
    | nil => cases digits
    | cons y b =>
      obtain ⟨high, digits⟩ := List.cons.inj digits
      obtain ⟨low, digits⟩ := List.cons.inj digits
      have hx := x.toNat_lt
      have hy := y.toNat_lt
      have first := Json.hexDigit_inj (by omega) (by omega) high
      have second := Json.hexDigit_inj (by omega) (by omega) low
      have byte : x = y := UInt8.toNat_inj.mp (by omega)
      rw [byte, ih digits]

end Roster
