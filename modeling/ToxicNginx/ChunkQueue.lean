import Mathlib.Data.List.Basic

/-!
# Queues of byte chunks drained by partial writes

A queue holds chunks, each a run of items with a tag, and a partial write
takes some items from its front.  This file names no particular item or tag.

* `contents` — the items of a queue in order;
* `drain` — the queue that is left after a write, without the chunks that were
  taken whole; `contents_drain`, `drain_eq_nil_iff`;
* `consume` — the same with the taken chunks left in place, empty;
* `exists_mem_drain_cons`, `exists_mem_consume_cons` — when something of the
  first chunk is still queued.
-/

namespace ChunkQueue

universe u v

/-- A run of items with a tag. -/
structure Chunk (β : Type u) (τ : Type v) where
  bytes : List β
  tag : τ
  deriving DecidableEq, Repr

variable {β : Type u} {τ : Type v}

/-- The items of a queue in order. -/
def contents (q : List (Chunk β τ)) : List β := (q.map Chunk.bytes).flatten

@[simp] theorem contents_nil : contents ([] : List (Chunk β τ)) = [] := rfl

@[simp] theorem contents_cons (c : Chunk β τ) (q : List (Chunk β τ)) :
    contents (c :: q) = c.bytes ++ contents q := rfl

@[simp] theorem contents_append (q q' : List (Chunk β τ)) :
    contents (q ++ q') = contents q ++ contents q' := by
  simp [contents]

/-- Take `n` items from the front and drop the chunks that were taken whole. -/
def drain : Nat → List (Chunk β τ) → List (Chunk β τ)
  | _, [] => []
  | n, c :: q =>
      if n = 0 then c :: q
      else if c.bytes.length ≤ n then drain (n - c.bytes.length) q
      else { c with bytes := c.bytes.drop n } :: q

/-- Take `n` items from the front and leave every chunk in place. -/
def consume : Nat → List (Chunk β τ) → List (Chunk β τ)
  | _, [] => []
  | n, c :: q => { c with bytes := c.bytes.drop n } :: consume (n - c.bytes.length) q

/-- No chunk of the queue is empty. -/
def Packed (q : List (Chunk β τ)) : Prop := ∀ c ∈ q, c.bytes ≠ []

theorem Packed.append {q q' : List (Chunk β τ)} (h : Packed q) (h' : Packed q') :
    Packed (q ++ q') := by
  intro c hc
  rcases List.mem_append.mp hc with hc | hc
  · exact h c hc
  · exact h' c hc

theorem Packed.tail {c : Chunk β τ} {q : List (Chunk β τ)} (h : Packed (c :: q)) : Packed q :=
  fun d hd => h d (List.mem_cons_of_mem _ hd)

/-- A packed queue with an item has something to send. -/
theorem Packed.contents_length_pos {q : List (Chunk β τ)} (h : Packed q) (hq : q ≠ []) :
    0 < (contents q).length := by
  cases q with
  | nil => exact absurd rfl hq
  | cons c q =>
      have hc : 0 < c.bytes.length := List.length_pos_iff.mpr (h c List.mem_cons_self)
      rw [contents_cons, List.length_append]
      omega

@[simp] theorem drain_zero (q : List (Chunk β τ)) : drain 0 q = q := by
  cases q with
  | nil => rfl
  | cons c q => simp [drain]

/-- What is left after a write are the items behind the ones taken. -/
theorem contents_drain (n : Nat) (q : List (Chunk β τ)) :
    contents (drain n q) = (contents q).drop n := by
  induction q generalizing n with
  | nil => simp [drain]
  | cons c q ih =>
      unfold drain
      by_cases hn : n = 0
      · simp [hn]
      · rw [if_neg hn]
        by_cases hlen : c.bytes.length ≤ n
        · rw [if_pos hlen, ih, contents_cons, List.drop_append, List.drop_of_length_le hlen]
          rfl
        · rw [if_neg hlen, contents_cons, contents_cons, List.drop_append]
          rw [show n - c.bytes.length = 0 by omega, List.drop_zero]

/-- Consuming in place leaves the same items. -/
theorem contents_consume (n : Nat) (q : List (Chunk β τ)) :
    contents (consume n q) = (contents q).drop n := by
  induction q generalizing n with
  | nil => simp [consume]
  | cons c q ih => rw [consume, contents_cons, contents_cons, ih, List.drop_append]

/-- Draining keeps a queue packed. -/
theorem Packed.drain {q : List (Chunk β τ)} (h : Packed q) (n : Nat) :
    Packed (drain n q) := by
  induction q generalizing n with
  | nil => exact h
  | cons c q ih =>
      unfold ChunkQueue.drain
      by_cases hn : n = 0
      · rw [if_pos hn]; exact h
      · rw [if_neg hn]
        by_cases hlen : c.bytes.length ≤ n
        · rw [if_pos hlen]; exact ih h.tail _
        · rw [if_neg hlen]
          intro d hd
          rcases List.mem_cons.mp hd with rfl | hd
          · simp only [ne_eq, List.drop_eq_nil_iff]
            omega
          · exact h.tail d hd

/-- A packed queue is drained exactly by a write of all its items. -/
theorem drain_eq_nil_iff {q : List (Chunk β τ)} (h : Packed q) (n : Nat) :
    drain n q = [] ↔ (contents q).length ≤ n := by
  constructor
  · intro hnil
    have hdrop : (contents q).drop n = [] := by rw [← contents_drain, hnil]; rfl
    exact List.drop_eq_nil_iff.mp hdrop
  · intro hlen
    by_contra hne
    have hpos := (h.drain n).contents_length_pos hne
    rw [contents_drain, List.drop_of_length_le hlen] at hpos
    exact absurd hpos (Nat.lt_irrefl 0)

/-- Something of a chunk with a property of tags that only the first chunk has
is left after a write exactly when the write does not take that chunk whole. -/
theorem exists_mem_drain_cons {P : τ → Prop} {c : Chunk β τ} {q : List (Chunk β τ)}
    (hc : P c.tag) (hbytes : c.bytes ≠ []) (hq : ∀ d ∈ q, ¬ P d.tag) (n : Nat) :
    (∃ d ∈ drain n (c :: q), P d.tag) ↔ n < c.bytes.length := by
  have hpos : 0 < c.bytes.length := List.length_pos_iff.mpr hbytes
  have hrest : ∀ (m : Nat) (l : List (Chunk β τ)), (∀ d ∈ l, ¬ P d.tag) →
      ∀ d ∈ drain m l, ¬ P d.tag := by
    intro m l
    induction l generalizing m with
    | nil => intro hl; exact hl
    | cons e l ih =>
        intro hl
        unfold drain
        by_cases hm : m = 0
        · rw [if_pos hm]; exact hl
        · rw [if_neg hm]
          by_cases hlen : e.bytes.length ≤ m
          · rw [if_pos hlen]
            exact ih _ fun d hd => hl d (List.mem_cons_of_mem _ hd)
          · rw [if_neg hlen]
            intro d hd
            rcases List.mem_cons.mp hd with rfl | hd
            · exact hl e List.mem_cons_self
            · exact hl d (List.mem_cons_of_mem _ hd)
  unfold drain
  by_cases hn : n = 0
  · rw [if_pos hn]
    exact ⟨fun _ => by omega, fun _ => ⟨c, List.mem_cons_self, hc⟩⟩
  · rw [if_neg hn]
    by_cases hlen : c.bytes.length ≤ n
    · rw [if_pos hlen]
      constructor
      · rintro ⟨d, hd, hP⟩
        exact absurd hP (hrest _ q hq d hd)
      · intro hlt; omega
    · rw [if_neg hlen]
      exact ⟨fun _ => by omega, fun _ => ⟨_, List.mem_cons_self, hc⟩⟩

/-- The same for a write whose chunks stay in place. -/
theorem exists_mem_consume_cons {P : τ → Prop} {c : Chunk β τ} {q : List (Chunk β τ)}
    (hc : P c.tag) (hq : ∀ d ∈ q, ¬ P d.tag) (n : Nat) :
    (∃ d ∈ consume n (c :: q), P d.tag ∧ d.bytes ≠ []) ↔ n < c.bytes.length := by
  have hrest : ∀ (m : Nat) (l : List (Chunk β τ)), (∀ d ∈ l, ¬ P d.tag) →
      ∀ d ∈ consume m l, ¬ P d.tag := by
    intro m l
    induction l generalizing m with
    | nil => intro hl; exact hl
    | cons e l ih =>
        intro hl d hd
        rcases List.mem_cons.mp hd with rfl | hd
        · exact hl e List.mem_cons_self
        · exact ih _ (fun d hd => hl d (List.mem_cons_of_mem _ hd)) d hd
  constructor
  · rintro ⟨d, hd, hP, hne⟩
    rcases List.mem_cons.mp hd with rfl | hd
    · simpa [List.drop_eq_nil_iff] using hne
    · exact absurd hP (hrest _ q hq d hd)
  · intro hlt
    refine ⟨_, List.mem_cons_self, hc, ?_⟩
    simp only [ne_eq, List.drop_eq_nil_iff]
    omega

end ChunkQueue
