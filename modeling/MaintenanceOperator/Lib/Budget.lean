import Mathlib.Data.List.Basic
import Mathlib.Algebra.Order.Group.Nat
import Mathlib.Tactic.Common

/-!
# Selection under a budget

One pass over a list that keeps every element that costs nothing and, of those that cost, as many as
the budget allows. A negative budget is never used up. The rules say what is kept (`count_spend`,
`mem_or_spent`), and how two passes compare (`spend_sublist_of_le`, `spend_append`).
-/

namespace MaintenanceOperator.Lib

variable {α : Type} {costs : α → Bool}

/-- Keep what the budget allows. -/
def spend (costs : α → Bool) : Int → List α → List α
  | _, [] => []
  | b, a :: l =>
    if costs a then
      if b = 0 then spend costs b l else a :: spend costs (b - 1) l
    else
      a :: spend costs b l

lemma spend_nil (b : Int) : spend costs b [] = [] := rfl

lemma spend_cons (b : Int) (a : α) (l : List α) :
    spend costs b (a :: l) =
      if costs a then if b = 0 then spend costs b l else a :: spend costs (b - 1) l
      else a :: spend costs b l := rfl

lemma spend_cons_free {a : α} (h : costs a = false) (b : Int) (l : List α) :
    spend costs b (a :: l) = a :: spend costs b l := by
  simp [spend_cons, h]

lemma spend_cons_skip {a : α} (h : costs a = true) (l : List α) :
    spend costs 0 (a :: l) = spend costs 0 l := by
  simp [spend_cons, h]

lemma spend_cons_pay {a : α} (h : costs a = true) {b : Int} (hb : b ≠ 0) (l : List α) :
    spend costs b (a :: l) = a :: spend costs (b - 1) l := by
  simp [spend_cons, h, hb]

lemma spend_sublist (b : Int) (l : List α) : (spend costs b l).Sublist l := by
  induction l generalizing b with
  | nil => exact .slnil
  | cons a l ih =>
    rw [spend_cons]
    split
    · split
      · exact (ih b).cons a
      · exact (ih _).cons_cons a
    · exact (ih b).cons_cons a

/-- What is kept first does not depend on what comes later. -/
lemma spend_append (b : Int) (l₁ l₂ : List α) :
    spend costs b (l₁ ++ l₂) =
      spend costs b l₁ ++ spend costs (b - (spend costs b l₁).countP costs) l₂ := by
  induction l₁ generalizing b with
  | nil => simp [spend_nil]
  | cons a l ih =>
    rw [List.cons_append]
    cases ha : costs a with
    | false =>
      rw [spend_cons_free ha, spend_cons_free ha, ih, List.countP_cons_of_neg (by simp [ha])]
      rfl
    | true =>
      by_cases hb : b = 0
      · subst hb
        rw [spend_cons_skip ha, spend_cons_skip ha, ih]
      · rw [spend_cons_pay ha hb, spend_cons_pay ha hb, ih, List.countP_cons_of_pos ha,
          List.cons_append]
        congr 3
        push_cast
        omega

/-- A budget that is large enough keeps everything. -/
lemma spend_of_count_le {b : Int} {l : List α} (h : (l.countP costs : Int) ≤ b) :
    spend costs b l = l := by
  induction l generalizing b with
  | nil => rfl
  | cons a l ih =>
    cases ha : costs a with
    | false =>
      rw [List.countP_cons_of_neg (by simp [ha])] at h
      rw [spend_cons_free ha, ih h]
    | true =>
      rw [List.countP_cons_of_pos ha] at h
      push_cast at h
      rw [spend_cons_pay ha (by omega), ih (by omega)]

/-- The budget is used up as far as there is something to spend it on. -/
lemma count_spend {b : Int} (hb : 0 ≤ b) (l : List α) :
    ((spend costs b l).countP costs : Int) = min b (l.countP costs) := by
  induction l generalizing b with
  | nil => simp [spend_nil, hb]
  | cons a l ih =>
    cases ha : costs a with
    | false =>
      rw [spend_cons_free ha, List.countP_cons_of_neg (by simp [ha]),
        List.countP_cons_of_neg (by simp [ha]), ih hb]
    | true =>
      rw [List.countP_cons_of_pos ha]
      by_cases hb0 : b = 0
      · subst hb0
        rw [spend_cons_skip ha, ih le_rfl]
        push_cast
        omega
      · rw [spend_cons_pay ha hb0, List.countP_cons_of_pos ha]
        push_cast
        rw [ih (by omega : 0 ≤ b - 1)]
        omega

/-- What costs nothing is kept. -/
lemma mem_spend_of_free {a : α} {l : List α} (h : a ∈ l) (ha : costs a = false) (b : Int) :
    a ∈ spend costs b l := by
  obtain ⟨l₁, l₂, rfl⟩ := List.append_of_mem h
  rw [spend_append, spend_cons_free ha]
  exact List.mem_append_right _ (.head _)

/-- Elements that cost nothing are all kept. -/
lemma countP_free_spend (b : Int) (l : List α) :
    (spend costs b l).countP (fun a => ¬ costs a) = l.countP (fun a => ¬ costs a) := by
  induction l generalizing b with
  | nil => rfl
  | cons a l ih =>
    cases ha : costs a with
    | false =>
      rw [spend_cons_free ha, List.countP_cons_of_pos (by simp [ha]),
        List.countP_cons_of_pos (by simp [ha]), ih]
    | true =>
      rw [List.countP_cons_of_neg (by simp [ha])]
      by_cases hb : b = 0
      · subst hb
        rw [spend_cons_skip ha, ih]
      · rw [spend_cons_pay ha hb, List.countP_cons_of_neg (by simp [ha]), ih]

/-- The elements that cost nothing are all kept, so the rest of the list is what the budget cuts. -/
lemma length_spend {b : Int} (hb : 0 ≤ b) (l : List α) :
    ((spend costs b l).length : Int) = l.length - max 0 (l.countP costs - b) := by
  have h₁ := List.length_eq_countP_add_countP costs (l := l)
  have h₂ := List.length_eq_countP_add_countP costs (l := spend costs b l)
  have h₃ := @countP_free_spend _ costs b l
  have h₄ := @count_spend _ costs _ hb l
  omega

/-- An element is kept, or costs and finds the budget used up by what was kept before it. -/
lemma mem_or_spent (b : Int) (l₁ : List α) (a : α) (l₂ : List α) :
    a ∈ spend costs b (l₁ ++ a :: l₂) ∨
      costs a = true ∧ ((spend costs b l₁).countP costs : Int) = b := by
  rw [spend_append]
  cases ha : costs a with
  | false =>
    rw [spend_cons_free ha]
    exact .inl (List.mem_append_right _ (.head _))
  | true =>
    by_cases hb : b - (spend costs b l₁).countP costs = 0
    · exact .inr ⟨rfl, by omega⟩
    · rw [spend_cons_pay ha hb]
      exact .inl (List.mem_append_right _ (.head _))

/-- A larger budget keeps more. -/
lemma spend_sublist_of_le {b b' : Int} (hb : 0 ≤ b) (h : b ≤ b') (l : List α) :
    (spend costs b l).Sublist (spend costs b' l) := by
  induction l generalizing b b' with
  | nil => exact .slnil
  | cons a l ih =>
    cases ha : costs a with
    | false =>
      rw [spend_cons_free ha, spend_cons_free ha]
      exact (ih hb h).cons_cons a
    | true =>
      by_cases hb0 : b = 0
      · subst hb0
        rw [spend_cons_skip ha]
        by_cases hb' : b' = 0
        · subst hb'
          rw [spend_cons_skip ha]
        · rw [spend_cons_pay ha hb']
          exact (ih le_rfl (by omega)).cons a
      · rw [spend_cons_pay ha hb0, spend_cons_pay ha (by omega)]
        exact (ih (by omega) (by omega)).cons_cons a

end MaintenanceOperator.Lib
