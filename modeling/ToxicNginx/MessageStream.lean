import Mathlib.Data.List.Basic

/-!
# Messages in a stream that several readers share

Messages lie one behind the other in a stream.  Readers take its items from the
front, each item going to one of them, so a stream that is partly taken is the
list of the takers.  The question is whether a message has one taker.

* `Cut`, `SameMessage` — a position between two messages, two positions in one
  message; `Cut.separates`;
* `TakenWhole` — every message has one taker;
* `HeldFrom` — what was taken from some position on went to one reader;
* `TakenWhole.take` — the step: a reader that holds everything taken since a cut
  takes more;
* `itemsAt` — the items at some positions; `itemsAt_range'`.
-/

namespace MessageStream

universe u v

variable {α : Type u} {ρ : Type v}

/-- A position in front of a message or behind the last one. -/
def Cut (messages : List (List α)) (c : Nat) : Prop :=
  ∃ front later, messages = front ++ later ∧ front.flatten.length = c

/-- Two positions in one message. -/
def SameMessage (messages : List (List α)) (p q : Nat) : Prop :=
  ∃ front m later, messages = front ++ m :: later ∧
    (front.flatten.length ≤ p ∧ p < front.flatten.length + m.length) ∧
    (front.flatten.length ≤ q ∧ q < front.flatten.length + m.length)

/-- The taken positions of a message have one taker. -/
def TakenWhole (messages : List (List α)) (takers : List ρ) : Prop :=
  ∀ p q a b, SameMessage messages p q → takers[p]? = some a → takers[q]? = some b → a = b

/-- Whatever is taken from a position on was taken by one reader. -/
def HeldFrom (takers : List ρ) (c : Nat) (i : ρ) : Prop :=
  ∀ k, c ≤ k → ∀ a, takers[k]? = some a → a = i

theorem Cut.zero (messages : List (List α)) : Cut messages 0 := ⟨[], messages, rfl, rfl⟩

theorem SameMessage.symm {messages : List (List α)} {p q : Nat} (h : SameMessage messages p q) :
    SameMessage messages q p := by
  obtain ⟨front, m, later, hmessages, hp, hq⟩ := h
  exact ⟨front, m, later, hmessages, hq, hp⟩

/-- A cut behind the next message. -/
theorem Cut.next (front later : List (List α)) (m : List α) :
    Cut (front ++ m :: later) (front.flatten.length + m.length) :=
  ⟨front ++ [m], later, by simp, by simp⟩

/-- **A cut separates messages.** -/
theorem Cut.separates {messages : List (List α)} {c p q : Nat} (hc : Cut messages c)
    (hsame : SameMessage messages p q) (hp : p < c) : q < c := by
  obtain ⟨left, right, hcut, rfl⟩ := hc
  obtain ⟨front, m, later, hmessages, ⟨hlow, _⟩, ⟨_, hhigh⟩⟩ := hsame
  rw [hcut] at hmessages
  rcases List.append_eq_append_iff.mp hmessages with ⟨mid, hfront, _⟩ | ⟨mid, hleft, hmid⟩
  · -- the message begins behind the cut
    rw [hfront, List.flatten_append, List.length_append] at hlow
    omega
  · cases mid with
    | nil =>
        rw [List.append_nil] at hleft
        rw [hleft] at hp
        omega
    | cons m' mid =>
        obtain ⟨rfl, _⟩ := List.cons.inj hmid
        rw [hleft, List.flatten_append, List.length_append, List.flatten_cons, List.length_append]
        omega

/-- Nothing is taken at first. -/
theorem TakenWhole.nil (messages : List (List α)) : TakenWhole messages ([] : List ρ) := by
  intro p q a b _ hp
  simp at hp

/-- What a reader takes belongs to it. -/
theorem HeldFrom.take {takers : List ρ} {c : Nat} {i : ρ} (h : HeldFrom takers c i) (n : Nat) :
    HeldFrom (takers ++ List.replicate n i) c i := by
  intro k hk a ha
  by_cases hlt : k < takers.length
  · rw [List.getElem?_append_left hlt] at ha
    exact h k hk a ha
  · rw [List.getElem?_append_right (by omega), List.getElem?_replicate] at ha
    split at ha
    · exact (Option.some.inj ha).symm
    · cases ha

/-- Behind what is taken nothing is held. -/
theorem HeldFrom.end (takers : List ρ) (i : ρ) : HeldFrom takers takers.length i := by
  intro k hk a ha
  rw [List.getElem?_eq_none hk] at ha
  cases ha

theorem HeldFrom.mono {takers : List ρ} {c d : Nat} {i : ρ} (h : HeldFrom takers c i)
    (hle : c ≤ d) : HeldFrom takers d i := fun k hk => h k (by omega)

/-- **Taking more.**  A reader that has everything taken since a cut may take
more, and every message has one taker. -/
theorem TakenWhole.take {messages : List (List α)} {takers : List ρ} {c : Nat} {i : ρ}
    (h : TakenWhole messages takers) (hcut : Cut messages c) (hle : c ≤ takers.length)
    (hheld : HeldFrom takers c i) (n : Nat) :
    TakenWhole messages (takers ++ List.replicate n i) := by
  have hmore := hheld.take n
  -- two positions of one message, the second of which is taken now
  have hnew : ∀ p q a b, SameMessage messages p q → ¬ q < takers.length →
      (takers ++ List.replicate n i)[p]? = some a →
      (takers ++ List.replicate n i)[q]? = some b → a = b := by
    intro p q a b hsame hq ha hb
    have hp : c ≤ p := by
      by_contra hlow
      have := hcut.separates hsame (by omega)
      omega
    rw [hmore p hp a ha, hmore q (by omega) b hb]
  intro p q a b hsame ha hb
  by_cases hq : q < takers.length
  · by_cases hp : p < takers.length
    · rw [List.getElem?_append_left hp] at ha
      rw [List.getElem?_append_left hq] at hb
      exact h p q a b hsame ha hb
    · exact (hnew q p b a hsame.symm hp hb ha).symm
  · exact hnew p q a b hsame hq ha hb

/-- The items of a stream at some positions. -/
def itemsAt (stream : List α) (positions : List Nat) : List α :=
  positions.filterMap fun p => stream[p]?

/-- Adjacent positions have adjacent items. -/
theorem itemsAt_range' (stream : List α) (c n : Nat) :
    itemsAt stream (List.range' c n) = (stream.drop c).take n := by
  induction n generalizing c with
  | zero => rfl
  | succ n ih =>
      rw [List.range'_succ]
      unfold itemsAt at ih ⊢
      by_cases hc : c < stream.length
      · rw [List.filterMap_cons_some (List.getElem?_eq_getElem hc), ih,
          List.drop_eq_getElem_cons hc, List.take_succ_cons]
      · rw [List.filterMap_cons_none (List.getElem?_eq_none (by omega)), ih,
          List.drop_eq_nil_of_le (by omega), List.drop_eq_nil_of_le (by omega), List.take_nil,
          List.take_nil]

end MessageStream
