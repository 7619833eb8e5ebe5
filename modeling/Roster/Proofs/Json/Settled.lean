import Roster.Json.Basic

/-!
# Values that are settled

Settling makes every key of an object count once. An object whose keys are distinct, over values
that are settled, stays as it is.
-/

namespace Roster

namespace Keyed

variable {α : Type}

theorem put_of_new {m : Keyed α} {key : String} (value : α) (new : key ∉ m.map (·.1)) :
    m.put key value = m ++ [(key, value)] := by
  induction m with
  | nil => rfl
  | cons p rest ih =>
    obtain ⟨k, v⟩ := p
    rw [List.map_cons, List.mem_cons, not_or] at new
    rw [put, if_neg (Ne.symm new.1), ih new.2, List.cons_append]

/-- **Pairs with distinct keys are a map as they stand.** -/
theorem ofPairs_of_distinct {m : Keyed α} (distinct : m.Distinct) : ofPairs m = m := by
  have fold : ∀ (rest before : Keyed α), Distinct (before ++ rest) →
      rest.foldl (fun m p => m.put p.1 p.2) before = before ++ rest := by
    intro rest
    induction rest with
    | nil => simp
    | cons p rest ih =>
      intro before distinct
      obtain ⟨k, v⟩ := p
      have new : k ∉ before.map (·.1) := by
        intro old
        rw [Distinct, List.map_append, List.nodup_append] at distinct
        exact distinct.2.2 k old k List.mem_cons_self rfl
      rw [List.foldl_cons, put_of_new v new, ih (before ++ [(k, v)]) (by simpa using distinct)]
      simp
  exact fold m [] distinct

end Keyed

namespace Json

/-- The value is settled. -/
def Settled (v : Json) : Prop := v.settle = v

theorem settleFields_of_settled {fields : List (String × Json)}
    (settled : ∀ field ∈ fields, field.2.Settled) : settleFields fields = fields := by
  induction fields with
  | nil => rfl
  | cons field fields ih =>
    obtain ⟨k, v⟩ := field
    have first : v.settle = v := settled (k, v) List.mem_cons_self
    rw [settleFields, first, ih fun f hf => settled f (List.mem_cons_of_mem _ hf)]

theorem settleItems_of_settled {items : List Json} (settled : ∀ v ∈ items, v.Settled) :
    settleItems items = items := by
  induction items with
  | nil => rfl
  | cons v items ih =>
    have first : v.settle = v := settled v List.mem_cons_self
    rw [settleItems, first, ih fun w hw => settled w (List.mem_cons_of_mem _ hw)]

theorem settled_obj {fields : List (String × Json)} (distinct : Keyed.Distinct fields)
    (settled : ∀ field ∈ fields, field.2.Settled) : (obj fields).Settled := by
  rw [Settled, settle, settleFields_of_settled settled, Keyed.ofPairs_of_distinct distinct]

theorem settled_arr {items : List Json} (settled : ∀ v ∈ items, v.Settled) :
    (arr items).Settled := by
  rw [Settled, settle, settleItems_of_settled settled]

theorem settled_single {key : String} {v : Json} (settled : v.Settled) :
    (obj [(key, v)]).Settled :=
  settled_obj (by simp [Keyed.Distinct]) fun _ hf => List.mem_singleton.mp hf ▸ settled

end Json

end Roster
