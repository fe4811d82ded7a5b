import Mathlib.Data.List.Basic

/-!
# Counting pairs of neighbours

How many elements of a list stand in a relation to the element behind them;
behind the last element stands a given one.  Breaks of a text are counted so,
where a break depends on what follows it.

* `countAdjacent` — the count;
* `countAdjacent_append` — it splits over an append, where the left part sees
  the head of the right one;
* `countAdjacent_mono` — it grows with the relation at the end.
-/

universe u

variable {α : Type u}

/-- The number of elements that stand in the relation to their successor;
`next` follows the last one. -/
def countAdjacent (R : α → α → Bool) (next : α) : List α → Nat
  | [] => 0
  | a :: l => (if R a (l.headD next) then 1 else 0) + countAdjacent R next l

@[simp] theorem countAdjacent_nil (R : α → α → Bool) (next : α) :
    countAdjacent R next [] = 0 := rfl

theorem countAdjacent_cons (R : α → α → Bool) (next a : α) (l : List α) :
    countAdjacent R next (a :: l)
      = (if R a (l.headD next) then 1 else 0) + countAdjacent R next l := rfl

/-- The left part of an append sees the head of the right part. -/
theorem countAdjacent_append (R : α → α → Bool) (next : α) (l₁ l₂ : List α) :
    countAdjacent R next (l₁ ++ l₂)
      = countAdjacent R (l₂.headD next) l₁ + countAdjacent R next l₂ := by
  induction l₁ with
  | nil => simp
  | cons a l ih =>
      have hhead : (l ++ l₂).headD next = l.headD (l₂.headD next) := by
        cases l <;> rfl
      rw [List.cons_append, countAdjacent_cons, countAdjacent_cons, hhead, ih, Nat.add_assoc]

/-- What follows the end matters for the last element only. -/
theorem countAdjacent_mono {R : α → α → Bool} {next next' : α}
    (h : ∀ a, R a next = true → R a next' = true) (l : List α) :
    countAdjacent R next l ≤ countAdjacent R next' l := by
  induction l with
  | nil => simp
  | cons a l ih =>
      rw [countAdjacent_cons, countAdjacent_cons]
      cases l with
      | nil =>
          simp only [List.headD_nil, countAdjacent_nil, Nat.add_zero]
          by_cases ha : R a next = true
          · simp [ha, h a ha]
          · simp [ha]
      | cons b l =>
          simp only [List.headD_cons]
          exact Nat.add_le_add_left ih _
