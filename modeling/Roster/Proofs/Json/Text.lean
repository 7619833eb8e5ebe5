import Roster.Proofs.Json.Strings
import Roster.Proofs.Number.Text

/-!
# Values from their texts

No two values have one compact text (`text_inj`). That has to hold of a value inside a text as well,
so it is stated of a value with something behind it: where a number ends is seen from what follows,
and everything else ends by itself. Items and fields are lists with commas between them, and are
told apart one by one (`told_separated`).
-/

namespace Roster.Json

/-! ## Numbers -/

namespace Number

/-- A character of a number. -/
def isPart (c : Char) : Bool := c.isDigit || c == '-' || c == '+' || c == '.' || c == 'e'

theorem isPart_of_isDigit {c : Char} (h : c.isDigit = true) : isPart c = true := by
  simp [isPart, h]

theorem isPart_signedDecimal (i : Int) : ∀ c ∈ (signedDecimal i).toList, isPart c = true := by
  intro c hc
  rcases mem_signedDecimal hc with rfl | digit
  · rfl
  · exact isPart_of_isDigit digit

theorem isPart_body {s : List Char} {x : ℚ} (h : Layout.Body s x) : ∀ c ∈ s, isPart c = true := by
  intro c hc
  cases h with
  | positional _ digits =>
    rcases List.mem_append.mp hc with hc | hc
    · exact isPart_of_isDigit (digits c (List.mem_append_left _ hc))
    · rcases List.mem_cons.mp hc with rfl | hc
      · rfl
      · exact isPart_of_isDigit (digits c (List.mem_append_right _ hc))
  | scientific digits exponent =>
    rcases List.mem_append.mp hc with hc | hc
    · rcases Layout.mem_mantissa hc with rfl | hc
      · rfl
      · exact isPart_of_isDigit (digits c hc)
    · rcases List.mem_cons.mp hc with rfl | hc
      · rfl
      · rcases List.mem_append.mp hc with hc | hc
        · split at hc
          · rw [List.mem_singleton.mp hc]
            rfl
          · cases hc
        · exact isPart_signedDecimal exponent c hc

/-- A number is made of its own characters. -/
theorem isPart_text (n : Number) : ∀ c ∈ n.text.toList, isPart c = true := by
  intro c hc
  cases n with
  | int i => exact isPart_signedDecimal i c hc
  | float d =>
    rw [text, Layout.toList_write_json] at hc
    rcases List.mem_append.mp hc with hc | hc
    · rw [eq_minus_of_mem_sign hc]
      rfl
    · exact isPart_body (Layout.body_json d.rank_lt) c hc

theorem text_ne_nil (n : Number) : n.text.toList ≠ [] := by
  intro empty
  cases n with
  | int i =>
    obtain ⟨c, rest, digits, -⟩ := decimal_eq_cons i.natAbs
    rw [text, toList_signedDecimal, digits] at empty
    exact absurd (List.append_eq_nil_iff.mp empty).2 (List.cons_ne_nil _ _)
  | float d =>
    obtain ⟨c, rest, body, -⟩ := (Layout.body_json d.rank_lt).eq_cons
    rw [text, Layout.toList_write_json, body] at empty
    exact absurd (List.append_eq_nil_iff.mp empty).2 (List.cons_ne_nil _ _)

/-- **A number is told by its text**: a double has a point or an exponent, an integer neither. -/
theorem text_inj {n m : Number} (same : n.text = m.text) : n = m := by
  have apart {i : Int} {d : Double} (same : signedDecimal i = Layout.json.write d) : False := by
    have member {c : Char} (hc : c ∈ Layout.jsonBody d.rank) : c = '-' ∨ c.isDigit = true := by
      refine mem_signedDecimal (i := i) ?_
      rw [same, Layout.toList_write_json]
      exact List.mem_append_right _ hc
    rcases (Layout.body_json d.rank_lt).marked with h | h
    · exact absurd (member h) (by decide)
    · exact absurd (member h) (by decide)
  cases n with
  | int i =>
    cases m with
    | int j => exact congrArg Number.int (signedDecimal_inj same)
    | float e => exact (apart same).elim
  | float d =>
    cases m with
    | int j => exact (apart same.symm).elim
    | float e => exact congrArg Number.float (Layout.write_json_inj same)

end Number


/-! ## Texts with something behind them -/

/-- What stands behind a value does not go on with a number. -/
def Delimited (r : List Char) : Prop := ∀ c ∈ r.head?, Number.isPart c = false

theorem delimited_cons {c : Char} {r : List Char} (h : Number.isPart c = false) :
    Delimited (c :: r) := by
  intro d hd
  cases hd
  exact h

theorem takeWhile_isPart {n r : List Char} (part : ∀ c ∈ n, Number.isPart c = true)
    (delimited : Delimited r) : (n ++ r).takeWhile Number.isPart = n := by
  rw [List.takeWhile_append_of_pos part]
  cases r with
  | nil => exact List.append_nil n
  | cons c r =>
    have stop : ¬Number.isPart c = true := by simp [delimited c rfl]
    rw [List.takeWhile_cons_of_neg stop, List.append_nil]

/-- Numbers are told apart where what stands behind them does not go on with a number. -/
theorem number_append_inj {n m : Number} {r s : List Char} (hr : Delimited r) (hs : Delimited s)
    (same : n.text.toList ++ r = m.text.toList ++ s) : n = m ∧ r = s := by
  have texts := congrArg (List.takeWhile Number.isPart) same
  rw [takeWhile_isPart n.isPart_text hr, takeWhile_isPart m.isPart_text hs] at texts
  rw [texts] at same
  exact ⟨Number.text_inj (String.toList_inj.mp texts), List.append_cancel_left same⟩

/-- Its text tells a thing from everything that is written in this way, and tells where it ends. -/
def Told {α : Type} (write : α → List Char) (x : α) : Prop :=
  ∀ (y : α) {r s : List Char}, Delimited r → Delimited s → write x ++ r = write y ++ s →
    x = y ∧ r = s

/-- Texts with commas between them. -/
def separated {α : Type} (write : α → List Char) : List α → List Char
  | [] => []
  | x :: rest => write x ++ rest.flatMap fun y => ',' :: write y

section

variable {α : Type} {write : α → List Char} {close : Char} {r s : List Char}
  (notPart : Number.isPart close = false) (notComma : close ≠ ',')

include notPart

theorem delimited_tail (xs : List α) :
    Delimited ((xs.flatMap fun x => ',' :: write x) ++ close :: r) := by
  cases xs with
  | nil => exact delimited_cons notPart
  | cons _ _ => exact delimited_cons (by decide)

include notComma

/-- The things after the first one are told apart, for a comma or the closing bracket comes next. -/
theorem told_tail (xs : List α) (told : ∀ x ∈ xs, Told write x) : ∀ ys : List α,
    (xs.flatMap fun x => ',' :: write x) ++ close :: r =
      (ys.flatMap fun y => ',' :: write y) ++ close :: s → xs = ys ∧ r = s := by
  induction xs with
  | nil =>
    intro ys same
    cases ys with
    | nil => exact ⟨rfl, (List.cons.inj same).2⟩
    | cons _ _ => exact absurd (List.cons.inj same).1 notComma
  | cons x xs ih =>
    intro ys same
    cases ys with
    | nil => exact absurd (List.cons.inj same).1.symm notComma
    | cons y ys =>
      rw [List.flatMap_cons, List.flatMap_cons, List.append_assoc, List.append_assoc,
        List.cons_append, List.cons_append] at same
      obtain ⟨rfl, rest⟩ := told x List.mem_cons_self y (delimited_tail notPart xs)
        (delimited_tail notPart ys) (List.cons.inj same).2
      obtain ⟨rfl, behind⟩ := ih (fun x hx => told x (List.mem_cons_of_mem _ hx)) ys rest
      exact ⟨rfl, behind⟩

/-- Texts with commas between them are told apart up to the closing bracket, which none of them
starts with. -/
theorem told_separated (opens : ∀ (x : α) (rest tail), write x ++ rest ≠ close :: tail)
    (xs : List α) (told : ∀ x ∈ xs, Told write x) (ys : List α)
    (same : separated write xs ++ close :: r = separated write ys ++ close :: s) :
    xs = ys ∧ r = s := by
  cases xs with
  | nil =>
    cases ys with
    | nil => exact ⟨rfl, (List.cons.inj same).2⟩
    | cons y ys =>
      rw [separated, separated, List.append_assoc] at same
      exact absurd same.symm (opens y _ _)
  | cons x xs =>
    cases ys with
    | nil =>
      rw [separated, separated, List.append_assoc] at same
      exact absurd same (opens x _ _)
    | cons y ys =>
      rw [separated, separated, List.append_assoc, List.append_assoc] at same
      obtain ⟨rfl, rest⟩ := told x List.mem_cons_self y (delimited_tail notPart xs)
        (delimited_tail notPart ys) same
      obtain ⟨rfl, behind⟩ := told_tail notPart notComma xs
        (fun x hx => told x (List.mem_cons_of_mem _ hx)) ys rest
      exact ⟨rfl, behind⟩

end

/-! ## Values -/

theorem itemChars_eq (items : List Json) : itemChars items = separated chars items := by
  cases items with
  | nil => rfl
  | cons v rest =>
    induction rest generalizing v with
    | nil => exact (List.append_nil _).symm
    | cons w rest ih =>
      rw [itemChars, ih w]
      · rfl
      · exact fun h => nomatch h

/-- A field. -/
def fieldText (field : String × Json) : List Char := stringChars field.1 ++ ':' :: field.2.chars

theorem fieldChars_eq (fields : List (String × Json)) :
    fieldChars fields = separated fieldText fields := by
  cases fields with
  | nil => rfl
  | cons field rest =>
    induction rest generalizing field with
    | nil => exact (List.append_nil _).symm
    | cons other rest ih =>
      obtain ⟨k, v⟩ := field
      rw [fieldChars, ih other, List.append_assoc, List.cons_append]
      · simp [separated, fieldText]
      · exact fun h => nomatch h

/-- The kind of a value, which the first character of its text tells. -/
def lead : Json → Nat
  | .null => 0
  | .bool _ => 1
  | .num _ => 2
  | .str _ => 3
  | .arr _ => 4
  | .obj _ => 5

/-- The kind of the values that start with a character. -/
def leadOf (c : Char) : Nat :=
  if Number.isPart c then 2
  else if c = 'n' then 0
  else if c = 't' ∨ c = 'f' then 1
  else if c = '"' then 3
  else if c = '[' then 4
  else if c = '\x7b' then 5
  else 6

theorem lead_lt (v : Json) : v.lead < 6 := by
  cases v <;> simp [lead]

theorem leadOf_head (v : Json) : ∃ c rest, v.chars = c :: rest ∧ leadOf c = v.lead := by
  cases v with
  | null => exact ⟨_, _, rfl, rfl⟩
  | bool b => cases b <;> exact ⟨_, _, rfl, rfl⟩
  | num n =>
    cases h : n.text.toList with
    | nil => exact absurd h n.text_ne_nil
    | cons c rest =>
      refine ⟨c, rest, h, ?_⟩
      rw [leadOf, if_pos (n.isPart_text c (h ▸ List.mem_cons_self))]
      rfl
  | str s => exact ⟨_, _, rfl, rfl⟩
  | arr items => exact ⟨_, _, rfl, rfl⟩
  | obj fields => exact ⟨_, _, rfl, rfl⟩

/-- Texts that start alike are of values of one kind. -/
theorem lead_eq {v w : Json} {r s : List Char} (same : v.chars ++ r = w.chars ++ s) :
    v.lead = w.lead := by
  obtain ⟨c, _, hv, hc⟩ := leadOf_head v
  obtain ⟨d, _, hw, hd⟩ := leadOf_head w
  rw [hv, hw] at same
  rw [← hc, ← hd, (List.cons.inj same).1]

theorem chars_append_ne (v : Json) (rest tail : List Char) : v.chars ++ rest ≠ ']' :: tail := by
  intro same
  obtain ⟨c, _, hv, hc⟩ := leadOf_head v
  have kind := lead_lt v
  rw [hv] at same
  rw [← hc, (List.cons.inj same).1] at kind
  exact absurd kind (by decide)

theorem fieldText_append_ne (f : String × Json) (rest tail : List Char) :
    fieldText f ++ rest ≠ '\x7d' :: tail := fun same =>
  absurd (List.cons.inj same).1 (by decide)

theorem told_fieldText {f : String × Json} (told : Told chars f.2) : Told fieldText f := by
  intro g r s hr hs same
  unfold fieldText at same
  rw [List.append_assoc, List.append_assoc] at same
  obtain ⟨keys, rest⟩ := stringChars_append_inj same
  obtain ⟨values, behind⟩ := told g.2 hr hs (List.cons.inj rest).2
  exact ⟨Prod.ext keys values, behind⟩

mutual

/-- **A value is told by its text**, with anything behind it that does not go on with a number. -/
theorem told_chars : ∀ v : Json, Told chars v := by
  intro v w r s hr hs same
  -- the first character tells the kind, so values of two kinds are no longer in question
  have kinds := lead_eq same
  cases v with
  | null =>
    cases w with
    | null => exact ⟨rfl, List.append_cancel_left same⟩
    | _ => cases kinds
  | bool b =>
    cases w with
    | bool c =>
      cases b <;> cases c
      · exact ⟨rfl, List.append_cancel_left same⟩
      · exact absurd (List.cons.inj same).1 (by decide)
      · exact absurd (List.cons.inj same).1 (by decide)
      · exact ⟨rfl, List.append_cancel_left same⟩
    | _ => cases kinds
  | num n =>
    cases w with
    | num m =>
      obtain ⟨rfl, behind⟩ := number_append_inj hr hs same
      exact ⟨rfl, behind⟩
    | _ => cases kinds
  | str t =>
    cases w with
    | str u =>
      obtain ⟨rfl, behind⟩ := stringChars_append_inj same
      exact ⟨rfl, behind⟩
    | _ => cases kinds
  | arr items =>
    cases w with
    | arr others =>
      simp only [chars, itemChars_eq, List.cons_append, List.append_assoc, List.nil_append,
        List.cons.injEq, true_and] at same
      obtain ⟨rfl, behind⟩ := told_separated (by decide) (by decide) chars_append_ne items
        (told_items items) others same
      exact ⟨rfl, behind⟩
    | _ => cases kinds
  | obj fields =>
    cases w with
    | obj others =>
      simp only [chars, fieldChars_eq, List.cons_append, List.append_assoc, List.nil_append,
        List.cons.injEq, true_and] at same
      obtain ⟨rfl, behind⟩ := told_separated (by decide) (by decide) fieldText_append_ne fields
        (told_fields fields) others same
      exact ⟨rfl, behind⟩
    | _ => cases kinds

/-- Each item is told. -/
theorem told_items : ∀ items : List Json, ∀ v ∈ items, Told chars v
  | [], _, h => nomatch h
  | v :: rest, w, h => by
    rcases List.mem_cons.mp h with same | h
    · exact same ▸ told_chars v
    · exact told_items rest w h

/-- Each field is told, by its key and its value. -/
theorem told_fields : ∀ fields : List (String × Json), ∀ f ∈ fields, Told fieldText f
  | [], _, h => nomatch h
  | (k, v) :: rest, f, h => by
    rcases List.mem_cons.mp h with same | h
    · exact same ▸ told_fieldText (told_chars v)
    · exact told_fields rest f h

end

/-- **No two values have one text.** -/
theorem text_inj {v w : Json} (same : v.text = w.text) : v = w := by
  have nothing : Delimited [] := fun _ h => nomatch h
  refine (told_chars v w nothing nothing ?_).1
  rw [List.append_nil, List.append_nil]
  exact String.ofList_inj.mp same

end Roster.Json
