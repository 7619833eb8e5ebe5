import Roster.Number.Layout
import Roster.Proofs.Number.Shortest

/-!
# Numbers from their texts

No two integers have one text, and no two doubles have. A text without an exponent is taken apart at
its point, and what its digits stand for is what the digits of the double stand for, wherever the
point fell. One with an exponent is taken apart at the `e`. Then the digits tell the double.

The sign comes first, before a digit, so the two zeros are told apart as well.
-/

namespace Roster

/-! ## Taking texts apart -/

/-- Two texts that are equal are so on both sides of the first `c`. -/
theorem split_at {c : Char} {a a' b b' : List Char} (fresh : c ∉ a) (fresh' : c ∉ a')
    (same : a ++ c :: b = a' ++ c :: b') : a = a' ∧ b = b' := by
  induction a generalizing a' with
  | nil =>
    cases a' with
    | nil => exact ⟨rfl, (List.cons.inj same).2⟩
    | cons d a' => exact absurd ((List.cons.inj same).1 ▸ List.mem_cons_self) fresh'
  | cons d a ih =>
    cases a' with
    | nil => exact absurd ((List.cons.inj same).1 ▸ List.mem_cons_self) fresh
    | cons d' a' =>
      obtain ⟨rfl, rest⟩ := List.cons.inj same
      obtain ⟨rfl, rfl⟩ := ih (fun h => fresh (List.mem_cons_of_mem _ h))
        (fun h => fresh' (List.mem_cons_of_mem _ h)) rest
      exact ⟨rfl, rfl⟩

/-! ## Integers -/

theorem decimal_inj {n m : Nat} (same : decimal n = decimal m) : n = m := by
  have digits : Nat.toDigits 10 n = Nat.toDigits 10 m := String.ofList_inj.mp same
  calc n = Nat.ofDigitChars 10 (Nat.toDigits 10 n) 0 := Nat.ofDigitChars_ten_toDigits.symm
    _ = Nat.ofDigitChars 10 (Nat.toDigits 10 m) 0 := by rw [digits]
    _ = m := Nat.ofDigitChars_ten_toDigits

theorem isDigit_of_mem_decimal {n : Nat} {c : Char} (h : c ∈ (decimal n).toList) :
    c.isDigit = true := by
  rw [decimal, String.toList_ofList] at h
  exact Nat.isDigit_of_mem_toDigits (by decide) (by decide) h

/-- A natural number starts with a digit. -/
theorem decimal_eq_cons (n : Nat) :
    ∃ c rest, (decimal n).toList = c :: rest ∧ c.isDigit = true := by
  cases h : (decimal n).toList with
  | nil =>
    rw [decimal, String.toList_ofList] at h
    exact absurd h Nat.toDigits_ne_nil
  | cons c rest => exact ⟨c, rest, rfl, isDigit_of_mem_decimal (h ▸ List.mem_cons_self)⟩

theorem toList_signedDecimal (i : Int) :
    (signedDecimal i).toList =
      (if i < 0 then ['-'] else []) ++ (decimal i.natAbs).toList := by
  unfold signedDecimal
  split <;> simp

theorem eq_minus_of_mem_sign {p : Prop} [Decidable p] {c : Char}
    (h : c ∈ if p then ['-'] else []) : c = '-' := by
  split at h
  · exact List.mem_singleton.mp h
  · cases h

theorem mem_signedDecimal {i : Int} {c : Char} (h : c ∈ (signedDecimal i).toList) :
    c = '-' ∨ c.isDigit = true := by
  rw [toList_signedDecimal] at h
  exact (List.mem_append.mp h).imp eq_minus_of_mem_sign isDigit_of_mem_decimal

/-- Texts that start with a digit, after a sign or not, have one sign. -/
theorem sign_inj {p q : Prop} [Decidable p] [Decidable q] {s t : List Char} {c d : Char}
    {s' t' : List Char} (hs : s = c :: s') (ht : t = d :: t') (hc : c.isDigit = true)
    (hd : d.isDigit = true)
    (same : (if p then ['-'] else []) ++ s = (if q then ['-'] else []) ++ t) : (p ↔ q) ∧ s = t := by
  have other {c : Char} (h : c.isDigit = true) : '-' ≠ c := by
    rintro rfl
    exact absurd h (by decide)
  subst hs ht
  by_cases hp : p <;> by_cases hq : q
  · rw [if_pos hp, if_pos hq] at same
    exact ⟨iff_of_true hp hq, (List.cons.inj same).2⟩
  · rw [if_pos hp, if_neg hq] at same
    exact absurd (List.cons.inj same).1 (other hd)
  · rw [if_neg hp, if_pos hq] at same
    exact absurd (List.cons.inj same).1.symm (other hc)
  · rw [if_neg hp, if_neg hq] at same
    exact ⟨iff_of_false hp hq, same⟩

/-- **An integer is told by its text.** -/
theorem signedDecimal_inj {i j : Int} (same : signedDecimal i = signedDecimal j) : i = j := by
  have lists := congrArg String.toList same
  rw [toList_signedDecimal, toList_signedDecimal] at lists
  obtain ⟨c, s, hs, hc⟩ := decimal_eq_cons i.natAbs
  obtain ⟨d, t, ht, hd⟩ := decimal_eq_cons j.natAbs
  obtain ⟨sign, digits⟩ := sign_inj hs ht hc hd lists
  have size := decimal_inj (String.toList_inj.mp digits)
  omega

/-! ## Doubles -/

namespace Double

theorem isDigit_shortest {tieUp : Bool} {rank : Nat} {c : Char}
    (h : c ∈ (shortest tieUp rank).digits) : c.isDigit = true := by
  obtain ⟨d, hd⟩ : ∃ d, (shortest tieUp rank).digits = stripZeros (Nat.toDigits 10 d) := ⟨_, rfl⟩
  rw [hd, stripZeros, List.mem_reverse] at h
  have listed := List.mem_reverse.mp ((List.dropWhile_sublist _).subset h)
  exact Nat.isDigit_of_mem_toDigits (by decide) (by decide) listed

end Double

namespace Layout

/-- An exponent with its sign. -/
def exponentChars (e : Int) : List Char :=
  (if 0 ≤ e then ['+'] else []) ++ (signedDecimal e).toList

theorem exponentChars_inj {e f : Int} (same : exponentChars e = exponentChars f) : e = f := by
  have minus {e : Int} (negative : ¬0 ≤ e) : ∃ rest, (signedDecimal e).toList = '-' :: rest := by
    rw [toList_signedDecimal, if_pos (not_le.mp negative)]
    exact ⟨_, rfl⟩
  have texts : (signedDecimal e).toList = (signedDecimal f).toList := by
    unfold exponentChars at same
    by_cases he : 0 ≤ e <;> by_cases hf : 0 ≤ f
    · rw [if_pos he, if_pos hf] at same
      exact (List.cons.inj same).2
    · obtain ⟨rest, eq⟩ := minus hf
      rw [if_pos he, if_neg hf, eq] at same
      exact absurd (List.cons.inj same).1 (by decide)
    · obtain ⟨rest, eq⟩ := minus he
      rw [if_neg he, if_pos hf, eq] at same
      exact absurd (List.cons.inj same).1 (by decide)
    · rw [if_neg he, if_neg hf] at same
      exact same
  exact signedDecimal_inj (String.toList_inj.mp texts)

/-- A mantissa: one digit, and a point if there are more. -/
def mantissa (first : Char) : List Char → List Char
  | [] => [first]
  | rest => first :: '.' :: rest

theorem mantissa_inj {c d : Char} {s t : List Char} (same : mantissa c s = mantissa d t) :
    c = d ∧ s = t := by
  cases s with
  | nil =>
    cases t with
    | nil => exact ⟨(List.cons.inj same).1, rfl⟩
    | cons _ _ => cases (List.cons.inj same).2
  | cons _ _ =>
    cases t with
    | nil => cases (List.cons.inj same).2
    | cons _ _ =>
      obtain ⟨first, rest⟩ := List.cons.inj same
      exact ⟨first, (List.cons.inj rest).2⟩

theorem mem_mantissa {c d : Char} {s : List Char} (h : d ∈ mantissa c s) :
    d = '.' ∨ d ∈ c :: s := by
  cases s with
  | nil => exact .inr h
  | cons e s =>
    rcases List.mem_cons.mp h with rfl | h
    · exact .inr List.mem_cons_self
    · rcases List.mem_cons.mp h with rfl | h
      · exact .inl rfl
      · exact .inr (List.mem_cons_of_mem _ h)

/-- How a double is written behind its sign, and what the text stands for: digits around a point, or
a mantissa with an exponent. -/
inductive Body : List Char → ℚ → Prop
  | positional {whole part : List Char} (filled : whole ≠ [])
      (digits : ∀ c ∈ whole ++ part, c.isDigit = true) :
      Body (whole ++ '.' :: part)
        (Nat.ofDigitChars 10 (whole ++ part) 0 * 10 ^ (-(part.length : ℤ)))
  | scientific {first : Char} {rest : List Char} (digits : ∀ c ∈ first :: rest, c.isDigit = true)
      (exponent : Int) :
      Body (mantissa first rest ++ 'e' :: exponentChars exponent)
        (Nat.ofDigitChars 10 (first :: rest) 0 * 10 ^ (exponent - (rest.length : ℤ)))

namespace Body

variable {s t : List Char} {x y : ℚ}

theorem notMem_of_digits {text : List Char} {c : Char} (digits : ∀ d ∈ text, d.isDigit = true)
    (other : c.isDigit = false) : c ∉ text := fun h => by
  rw [digits c h] at other
  cases other

theorem notMem_mantissa {first : Char} {rest : List Char}
    (digits : ∀ c ∈ first :: rest, c.isDigit = true) : 'e' ∉ mantissa first rest := fun h => by
  rcases mem_mantissa h with h | h
  · exact absurd h (by decide)
  · exact notMem_of_digits digits (by decide) h

/-- **A text stands for one number.** -/
theorem unique (hs : Body s x) (ht : Body t y) (same : s = t) : x = y := by
  have apart {whole part first rest exponent}
      (digits : ∀ c ∈ whole ++ part, Char.isDigit c = true)
      (same : whole ++ '.' :: part = mantissa first rest ++ 'e' :: exponentChars exponent) :
      False := by
    have letter : 'e' ∈ whole ++ '.' :: part := by
      rw [same]
      exact List.mem_append_right _ List.mem_cons_self
    rcases List.mem_append.mp letter with h | h
    · exact notMem_of_digits digits (by decide) (List.mem_append_left _ h)
    · rcases List.mem_cons.mp h with h | h
      · exact absurd h (by decide)
      · exact notMem_of_digits digits (by decide) (List.mem_append_right _ h)
  cases hs with
  | positional _ digits =>
    cases ht with
    | positional _ digits' =>
      have fresh := notMem_of_digits digits (c := '.') (by decide)
      have fresh' := notMem_of_digits digits' (c := '.') (by decide)
      obtain ⟨rfl, rfl⟩ := split_at (mt (List.mem_append_left _) fresh)
        (mt (List.mem_append_left _) fresh') same
      rfl
    | scientific _ _ => exact (apart digits same).elim
  | scientific digits exponent =>
    cases ht with
    | positional _ digits' => exact (apart digits' same.symm).elim
    | scientific digits' exponent' =>
      obtain ⟨fronts, backs⟩ := split_at (notMem_mantissa digits) (notMem_mantissa digits') same
      obtain ⟨rfl, rfl⟩ := mantissa_inj fronts
      rw [exponentChars_inj backs]

/-- A digit comes first. -/
theorem eq_cons (h : Body s x) : ∃ c rest, s = c :: rest ∧ c.isDigit = true := by
  cases h with
  | @positional whole part filled digits =>
    cases whole with
    | nil => exact absurd rfl filled
    | cons c rest => exact ⟨c, _, rfl, digits c List.mem_cons_self⟩
  | @scientific first rest digits exponent =>
    refine ⟨first, ?_, ?_, digits first List.mem_cons_self⟩
    · exact (mantissa first rest).tail ++ 'e' :: exponentChars exponent
    · cases rest <;> rfl

/-- A point or an exponent is in it. -/
theorem marked (h : Body s x) : '.' ∈ s ∨ 'e' ∈ s := by
  cases h with
  | positional _ _ => exact .inl (List.mem_append_right _ List.mem_cons_self)
  | scientific _ _ => exact .inr (List.mem_append_right _ List.mem_cons_self)

end Body

section

theorem isDigit_of_mem_zeros {n : Nat} {c : Char} (h : c ∈ List.replicate n '0') :
    c.isDigit = true := by
  rw [(List.mem_replicate.mp h).2]
  rfl

variable {d : Digits}

/-- Digits around a point that stand for the value. -/
theorem body_around (whole part : List Char) (filled : whole ≠ [])
    (digits : ∀ c ∈ whole ++ part, c.isDigit = true)
    (value : d.value = Nat.ofDigitChars 10 (whole ++ part) 0 * 10 ^ (-(part.length : ℤ))) :
    Body (whole ++ '.' :: part) d.value :=
  value ▸ .positional filled digits

/-- The point stands before all digits, with zeros between. -/
theorem body_leading (digits : ∀ c ∈ d.digits, c.isDigit = true) (small : d.point ≤ 0) :
    Body ('0' :: '.' :: (List.replicate d.point.natAbs '0' ++ d.digits)) d.value := by
  refine body_around ['0'] _ (List.cons_ne_nil _ _) (fun c hc => ?_) ?_
  · rcases List.mem_append.mp hc with hc | hc
    · rw [List.mem_singleton.mp hc]
      rfl
    · exact (List.mem_append.mp hc).elim isDigit_of_mem_zeros (digits c)
  · have place : d.point - (d.digits.length : ℤ) =
        -((List.replicate d.point.natAbs '0' ++ d.digits).length : ℤ) := by
      rw [List.length_append, List.length_replicate]
      omega
    rw [Digits.value, place, Nat.ofDigitChars_append, Nat.ofDigitChars_append,
      Nat.ofDigitChars_replicate_zero]
    rfl

/-- The point stands behind all digits, with zeros between, and one more behind it. -/
theorem body_trailing (digits : ∀ c ∈ d.digits, c.isDigit = true) (filled : d.digits ≠ []) {n : Nat}
    (point : d.point = n) (whole : d.digits.length ≤ n) :
    Body (d.digits ++ List.replicate (n - d.digits.length) '0' ++ ['.', '0']) d.value := by
  refine body_around _ ['0'] (by simp [filled]) (fun c hc => ?_) ?_
  · rcases List.mem_append.mp hc with hc | hc
    · exact (List.mem_append.mp hc).elim (digits c) isDigit_of_mem_zeros
    · rw [List.mem_singleton.mp hc]
      rfl
  · obtain ⟨k, hk⟩ := Nat.exists_eq_add_of_le whole
    have last : ['0'] = List.replicate 1 '0' := rfl
    rw [Digits.value, point, last, Nat.ofDigitChars_append, Nat.ofDigitChars_append,
      Nat.ofDigitChars_replicate_zero, Nat.ofDigitChars_replicate_zero, hk,
      Nat.add_sub_cancel_left, List.length_replicate]
    push_cast
    rw [add_sub_cancel_left, zpow_natCast, zpow_neg, zpow_one]
    ring

/-- The point stands between the digits. -/
theorem body_inside (digits : ∀ c ∈ d.digits, c.isDigit = true) (filled : d.digits ≠ []) {n : Nat}
    (point : d.point = n) (positive : n ≠ 0) (inside : n ≤ d.digits.length) :
    Body (d.digits.take n ++ '.' :: d.digits.drop n) d.value := by
  refine body_around _ _ ?_ (fun c hc => ?_) ?_
  · rw [Ne, List.take_eq_nil_iff]
    exact not_or.mpr ⟨positive, filled⟩
  · rw [List.take_append_drop] at hc
    exact digits c hc
  · have place : (n : ℤ) - (d.digits.length : ℤ) = -((d.digits.drop n).length : ℤ) := by
      rw [List.length_drop]
      omega
    rw [Digits.value, point, place, List.take_append_drop]

theorem body_positional (digits : ∀ c ∈ d.digits, c.isDigit = true) (filled : d.digits ≠ []) :
    Body (writePositional true d) d.value := by
  unfold writePositional
  by_cases small : d.point ≤ 0
  · rw [if_pos small]
    exact body_leading digits small
  · obtain ⟨n, point⟩ : ∃ n : ℕ, d.point = n := ⟨d.point.toNat, by omega⟩
    rw [if_neg small]
    simp only [point, Int.toNat_natCast, if_true]
    by_cases whole : d.digits.length ≤ n
    · rw [if_pos whole]
      exact body_trailing digits filled point whole
    · rw [if_neg whole]
      exact body_inside digits filled point (by omega) (by omega)

theorem body_scientific (digits : ∀ c ∈ d.digits, c.isDigit = true) (filled : d.digits ≠ []) :
    Body (writeScientific true d) d.value := by
  obtain ⟨ds, point⟩ := d
  cases ds with
  | nil => exact absurd rfl filled
  | cons first rest =>
    have written : writeScientific true ⟨first :: rest, point⟩ =
        mantissa first rest ++ 'e' :: exponentChars (point - 1) := by
      unfold writeScientific exponentChars
      simp only [and_true, List.append_assoc]
      cases rest <;> rfl
    have place : point - ((first :: rest).length : ℤ) = point - 1 - (rest.length : ℤ) := by
      rw [List.length_cons]
      omega
    rw [written, Digits.value, place]
    exact .scientific digits (point - 1)

end

/-- What stands behind the sign of a double. -/
def jsonBody (rank : Nat) : List Char :=
  if rank = 0 then ['0', '.', '0']
  else
    let d := Double.shortest false rank
    if -5 ≤ d.point - 1 ∧ d.point - 1 ≤ 15 then writePositional true d else writeScientific true d

/-- The number that the body stands for. -/
def jsonValue (rank : Nat) : ℚ := if rank = 0 then 0 else (Double.shortest false rank).value

theorem toList_write_json (d : Double) :
    (json.write d).toList =
      (if d.negative = true then ['-'] else []) ++ jsonBody d.rank := by
  have sign : (if d.negative = true then "-" else "").toList =
      if d.negative = true then ['-'] else [] := by split <;> rfl
  unfold write jsonBody
  by_cases zero : d.rank = 0
  · rw [if_pos zero, if_pos zero]
    simp only [String.toList_append, sign]
    rfl
  · rw [if_neg zero, if_neg zero]
    simp only [String.toList_append, sign, String.toList_ofList]
    rfl

theorem body_json {rank : Nat} (finite : rank < Double.rankBound) :
    Body (jsonBody rank) (jsonValue rank) := by
  unfold jsonBody jsonValue
  by_cases zero : rank = 0
  · rw [if_pos zero, if_pos zero]
    have nothing : (0 : ℚ) = Nat.ofDigitChars 10 (['0'] ++ ['0']) 0 * 10 ^ (-1 : ℤ) := by
      have : Nat.ofDigitChars 10 (['0'] ++ ['0']) 0 = 0 := by decide
      rw [this, Nat.cast_zero, zero_mul]
    rw [nothing]
    have digits : ∀ c ∈ ['0'] ++ ['0'], Char.isDigit c = true := by simp
    exact .positional (List.cons_ne_nil _ _) digits
  · rw [if_neg zero, if_neg zero]
    have positive : 0 < (Double.shortest false rank).value :=
      Double.shortest_pos (Nat.pos_of_ne_zero zero) finite
    have filled : (Double.shortest false rank).digits ≠ [] := fun empty => by
      rw [Digits.value, empty] at positive
      simp at positive
    have digits : ∀ c ∈ (Double.shortest false rank).digits, c.isDigit = true :=
      fun c => Double.isDigit_shortest
    simp only
    split
    · exact body_positional digits filled
    · exact body_scientific digits filled

theorem jsonValue_inj {r s : Nat} (hr : r < Double.rankBound) (hs : s < Double.rankBound)
    (same : jsonValue r = jsonValue s) : r = s := by
  have nonzero {r : Nat} (h : r ≠ 0) (hr : r < Double.rankBound) : jsonValue r ≠ 0 := by
    rw [jsonValue, if_neg h]
    exact (Double.shortest_pos (Nat.pos_of_ne_zero h) hr).ne'
  have none : jsonValue 0 = 0 := rfl
  by_cases zr : r = 0
  · subst zr
    by_contra zs
    exact nonzero (Ne.symm zs) hs (same.symm.trans none)
  · by_cases zs : s = 0
    · subst zs
      exact absurd (same.trans none) (nonzero zr hr)
    · rw [jsonValue, jsonValue, if_neg zr, if_neg zs] at same
      exact Double.shortest_inj (Nat.pos_of_ne_zero zr) (Nat.pos_of_ne_zero zs) hr hs same

/-- **A double is told by its text**, sign of a zero included. -/
theorem write_json_inj {d e : Double} (same : json.write d = json.write e) : d = e := by
  have lists := congrArg String.toList same
  rw [toList_write_json, toList_write_json] at lists
  obtain ⟨c, s, hs, hc⟩ := (body_json d.rank_lt).eq_cons
  obtain ⟨c', s', hs', hc'⟩ := (body_json e.rank_lt).eq_cons
  obtain ⟨sign, bodies⟩ := sign_inj hs hs' hc hc' lists
  have values := (body_json d.rank_lt).unique (body_json e.rank_lt) bodies
  have ranks := jsonValue_inj d.rank_lt e.rank_lt values
  obtain ⟨negative, rank, bound⟩ := d
  obtain ⟨negative', rank', bound'⟩ := e
  simp only at sign ranks
  subst ranks
  rw [Bool.eq_iff_iff.mpr sign]

end Layout

end Roster
