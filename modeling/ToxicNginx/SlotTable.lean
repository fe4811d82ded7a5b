import Mathlib.Data.List.Basic

/-!
# Tables with lowest-free allocation

A table is a list of slots; its index is the number of a slot.  Allocation
takes the lowest free number, as a kernel does for file descriptors, and makes
the table longer when every slot is taken.

* `slot` — what a number refers to;
* `lowestFree`, `alloc`, `release` — the operations;
* `slot_lowestFree`, `lowestFree_le` — the number is free, and the lowest;
* `slot_alloc`, `slot_release` — what the operations do to every number;
* `lowestFree_release` — a released number is given away next.
-/

namespace SlotTable

universe u

variable {α : Type u}

/-- What a number refers to; a number behind the table is free. -/
def slot (t : List (Option α)) (n : Nat) : Option α := (t[n]?).join

/-- The lowest number that refers to nothing. -/
def lowestFree : List (Option α) → Nat
  | [] => 0
  | none :: _ => 0
  | some _ :: t => lowestFree t + 1

/-- Let the lowest free number refer to `a`. -/
def alloc (a : α) : List (Option α) → List (Option α)
  | [] => [some a]
  | none :: t => some a :: t
  | some b :: t => some b :: alloc a t

/-- Free a number. -/
def release (n : Nat) (t : List (Option α)) : List (Option α) := t.set n none

@[simp] theorem slot_nil (n : Nat) : slot ([] : List (Option α)) n = none := rfl

@[simp] theorem slot_cons_zero (x : Option α) (t : List (Option α)) :
    slot (x :: t) 0 = x := rfl

@[simp] theorem slot_cons_succ (x : Option α) (t : List (Option α)) (n : Nat) :
    slot (x :: t) (n + 1) = slot t n := rfl

/-- The lowest free number is free. -/
theorem slot_lowestFree (t : List (Option α)) : slot t (lowestFree t) = none := by
  induction t with
  | nil => rfl
  | cons x t ih =>
      cases x with
      | none => rfl
      | some b => exact ih

/-- No free number is lower. -/
theorem lowestFree_le {t : List (Option α)} {n : Nat} (h : slot t n = none) :
    lowestFree t ≤ n := by
  induction t generalizing n with
  | nil => exact Nat.zero_le n
  | cons x t ih =>
      cases x with
      | none => exact Nat.zero_le n
      | some b =>
          cases n with
          | zero => cases h
          | succ n => exact Nat.succ_le_succ (ih h)

/-- An allocation changes what one number refers to. -/
theorem slot_alloc (a : α) (t : List (Option α)) (n : Nat) :
    slot (alloc a t) n = if n = lowestFree t then some a else slot t n := by
  induction t generalizing n with
  | nil => cases n <;> simp [alloc, lowestFree]
  | cons x t ih =>
      cases x with
      | none => cases n <;> simp [alloc, lowestFree]
      | some b =>
          cases n with
          | zero => simp [alloc, lowestFree]
          | succ n => simp [alloc, lowestFree, ih]

/-- A number in use keeps what it refers to. -/
theorem slot_alloc_of_some {a b : α} {t : List (Option α)} {n : Nat} (h : slot t n = some b) :
    slot (alloc a t) n = some b := by
  have hn : n ≠ lowestFree t := by
    intro heq
    rw [heq, slot_lowestFree] at h
    cases h
  rw [slot_alloc, if_neg hn]
  exact h

/-- A release frees one number. -/
theorem slot_release (t : List (Option α)) (m n : Nat) :
    slot (release m t) n = if n = m then none else slot t n := by
  unfold slot release
  by_cases h : n = m
  · subst h
    rw [if_pos rfl, List.getElem?_set_self']
    cases t[n]? <;> rfl
  · rw [if_neg h, List.getElem?_set_ne (Ne.symm h)]

/-- Numbers that refer to different things are different, so the release of one
leaves the other. -/
theorem slot_release_of_some {a b : α} {t : List (Option α)} {m n : Nat} (hm : slot t m = some a)
    (hn : slot t n = some b) (hab : a ≠ b) : slot (release m t) n = some b := by
  have hmn : n ≠ m := by
    intro heq
    rw [heq, hm] at hn
    exact hab (Option.some.inj hn)
  rw [slot_release, if_neg hmn]
  exact hn

/-- The number given away after a release is the released one, unless a lower
one was free. -/
theorem lowestFree_release (n : Nat) (t : List (Option α)) :
    lowestFree (release n t) = min n (lowestFree t) := by
  apply Nat.le_antisymm
  · apply Nat.le_min.mpr
    constructor
    · apply lowestFree_le
      rw [slot_release, if_pos rfl]
    · apply lowestFree_le
      rw [slot_release, slot_lowestFree, ite_self]
  · have hfree := slot_lowestFree (release n t)
    rw [slot_release] at hfree
    by_cases heq : lowestFree (release n t) = n
    · omega
    · rw [if_neg heq] at hfree
      have := lowestFree_le hfree
      omega

end SlotTable
