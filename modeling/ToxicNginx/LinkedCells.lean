import Mathlib.Logic.Function.Basic
import Mathlib.Data.List.Nodup

/-!
# Singly linked cells in a memory

A memory maps addresses to cells and every cell has a `next` link.  This file
names no particular cell type.

* `Segment` — the cells from one link to another, in link order;
* `walk` — the same as a computation, with the number of links it may follow;
  `walk_of_segment` says that a terminated segment is what the walk finds;
* `Segment.frame` — writing outside a segment keeps it;
* `Segment.extend` — linking a fresh cell behind the last one appends it.
-/

namespace LinkedCells

universe u

variable {Cell : Type u} (next : Cell → Option Nat)

/-- `Segment next mem p as q`: following `next` from the link `p` visits
exactly the addresses `as` and arrives at the link `q`. -/
inductive Segment (mem : Nat → Cell) : Option Nat → List Nat → Option Nat → Prop
  | nil (p : Option Nat) : Segment mem p [] p
  | cons {a : Nat} {as : List Nat} {q : Option Nat}
      (tail : Segment mem (next (mem a)) as q) : Segment mem (some a) (a :: as) q

/-- Follow `next` for at most `fuel` links; `none` when the null link is not
reached. -/
def walk (mem : Nat → Cell) : Nat → Option Nat → Option (List Nat)
  | _, none => some []
  | 0, some _ => none
  | fuel + 1, some a => (walk mem fuel (next (mem a))).map (a :: ·)

variable {next} {mem : Nat → Cell}

/-- A terminated segment is found by every walk that may follow that many
links. -/
theorem walk_of_segment {p : Option Nat} {as : List Nat}
    (hseg : Segment next mem p as none) {fuel : Nat} (hfuel : as.length ≤ fuel) :
    walk next mem fuel p = some as := by
  generalize hq : (none : Option Nat) = q at hseg
  induction hseg generalizing fuel with
  | nil p => subst hq; simp [walk]
  | cons tail ih =>
      obtain ⟨fuel, rfl⟩ : ∃ n, fuel = n + 1 := ⟨fuel - 1, by simp at hfuel; omega⟩
      simp [walk, ih (by simpa using hfuel) hq]

/-- Segments compose at the link where they meet. -/
theorem Segment.append {p q r : Option Nat} {as bs : List Nat}
    (hleft : Segment next mem p as q) (hright : Segment next mem q bs r) :
    Segment next mem p (as ++ bs) r := by
  induction hleft with
  | nil p => exact hright
  | cons tail ih => exact Segment.cons (ih hright)

/-- Split a segment at a list append, exposing the link in between. -/
theorem Segment.split {p r : Option Nat} {as bs : List Nat}
    (hseg : Segment next mem p (as ++ bs) r) :
    ∃ q, Segment next mem p as q ∧ Segment next mem q bs r := by
  induction as generalizing p with
  | nil => exact ⟨p, Segment.nil p, hseg⟩
  | cons a as ih =>
      cases hseg with
      | cons tail =>
          obtain ⟨q, hleft, hright⟩ := ih tail
          exact ⟨q, Segment.cons hleft, hright⟩

/-- **Frame.**  A segment only depends on the links of its own cells. -/
theorem Segment.frame {mem' : Nat → Cell} {p q : Option Nat} {as : List Nat}
    (hseg : Segment next mem p as q) (hsame : ∀ a ∈ as, next (mem' a) = next (mem a)) :
    Segment next mem' p as q := by
  induction hseg with
  | nil p => exact Segment.nil p
  | @cons a as q tail ih =>
      refine Segment.cons ?_
      rw [hsame a List.mem_cons_self]
      exact ih fun b hb => hsame b (List.mem_cons_of_mem _ hb)

/-- A one-cell segment ends where its cell points. -/
theorem Segment.single (a : Nat) : Segment next mem (some a) [a] (next (mem a)) :=
  Segment.cons (Segment.nil _)

/-- **Extension.**  Link the fresh cell `b` behind the last cell `a` of a
terminated segment and terminate `b`: the segment grows by exactly `b`. -/
theorem Segment.extend {mem' : Nat → Cell} {p : Option Nat} {front : List Nat} {a b : Nat}
    (hseg : Segment next mem p (front ++ [a]) none)
    (hfront : ∀ c ∈ front, next (mem' c) = next (mem c))
    (hlink : next (mem' a) = some b) (hend : next (mem' b) = none) :
    Segment next mem' p (front ++ [a] ++ [b]) none := by
  obtain ⟨q, hleft, hright⟩ := hseg.split
  have ha : Segment next mem' q [a] (some b) := by
    cases hright with
    | cons tail => rw [← hlink]; exact Segment.single a
  have hb : Segment next mem' (some b) [b] none := by
    rw [← hend]
    exact Segment.single b
  exact ((hleft.frame hfront).append ha).append hb

end LinkedCells
