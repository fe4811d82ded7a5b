import Mathlib.Logic.Function.Basic
import Mathlib.Algebra.Notation.Defs

/-!
# Lock words that hold a tag

A lock is one word: `0` when it is free, else a tag its taker wrote there with
a compare and set.  A release compares the word with a tag, and so frees the
lock of whoever wrote the same tag.  Tags and agents are arbitrary types, and
several agents may use one tag.

* `trylock`, `release` — the operations, with the taker and whether a release
  has hit another agent's lock as a record beside the word;
* `Sound` — the word is what the agents inside wrote: `inside a` is the tag with
  which `a` took the lock it has not released;
* `Sound.exclusive` — at most one agent is inside;
* `Sound.acquire`, `Sound.leave` — a successful `trylock` and the matching
  `release` keep `Sound`;
* `Sound.release_eq` — a release with a tag nobody inside uses does nothing.
-/

universe u v

/-- The word, the agent that wrote it, and whether a release has freed a lock
that another agent took. -/
structure LockWord (Tag : Type u) (Agent : Type v) where
  word : Tag
  owner : Option Agent
  stolen : Bool
  deriving DecidableEq, Repr

namespace LockWord

variable {Tag : Type u} {Agent : Type v} [Zero Tag]

/-- Compare with `0` and set to the tag. -/
def trylock [DecidableEq Tag] (tag : Tag) (a : Agent) (l : LockWord Tag Agent) :
    Option (LockWord Tag Agent) :=
  if l.word = 0 then some ⟨tag, some a, l.stolen⟩ else none

/-- Compare with the tag and set to `0`, for the lock of agent `a`. -/
def release [DecidableEq Tag] [DecidableEq Agent] (tag : Tag) (a : Agent)
    (l : LockWord Tag Agent) : LockWord Tag Agent :=
  if l.word = tag then ⟨0, none, l.stolen || l.owner != some a⟩ else l

/-- The word is free, or has the tag of the one agent inside. -/
structure Sound (l : LockWord Tag Agent) (inside : Agent → Option Tag) : Prop where
  taken : ∀ a tag, inside a = some tag → l.word = tag ∧ l.owner = some a
  taker : l.word ≠ 0 → ∃ a tag, l.owner = some a ∧ inside a = some tag
  own : l.stolen = false

variable {l : LockWord Tag Agent} {inside : Agent → Option Tag} {a : Agent} {tag : Tag}

/-- A free lock with nobody inside. -/
theorem Sound.free : Sound (⟨0, none, false⟩ : LockWord Tag Agent) (fun _ => none) :=
  ⟨fun _ _ h => (nomatch h), fun h => absurd rfl h, rfl⟩

/-- **Exclusion.** -/
theorem Sound.exclusive (h : Sound l inside) {b : Agent} {tag' : Tag}
    (ha : inside a = some tag) (hb : inside b = some tag') : a = b := by
  have howner := (h.taken a tag ha).2
  rw [(h.taken b tag' hb).2] at howner
  exact (Option.some.inj howner).symm

variable [DecidableEq Tag]

/-- A successful `trylock` found the word free. -/
theorem trylock_eq_some {l' : LockWord Tag Agent} (h : l.trylock tag a = some l') :
    l.word = 0 ∧ l' = ⟨tag, some a, l.stolen⟩ := by
  unfold trylock at h
  split at h
  next hfree => exact ⟨hfree, (Option.some.inj h).symm⟩
  next => cases h

variable [DecidableEq Agent]

/-- **A successful `trylock`** lets its agent in. -/
theorem Sound.acquire (h : Sound l inside) {l' : LockWord Tag Agent}
    (hlock : l.trylock tag a = some l') (hnonzero : ∀ b, inside b ≠ some 0) :
    Sound l' (Function.update inside a (some tag)) := by
  obtain ⟨hfree, rfl⟩ := trylock_eq_some hlock
  have hnobody : ∀ b, inside b = none := by
    intro b
    cases hb : inside b with
    | none => rfl
    | some tag' =>
        have hword := (h.taken b tag' hb).1
        rw [hfree] at hword
        exact absurd (hword ▸ hb) (hnonzero b)
  refine ⟨?_, ?_, h.own⟩
  · intro b tag' hb
    by_cases hba : b = a
    · subst hba
      rw [Function.update_self] at hb
      exact ⟨Option.some.inj hb, rfl⟩
    · rw [Function.update_of_ne hba, hnobody b] at hb
      cases hb
  · intro _
    exact ⟨a, tag, rfl, Function.update_self ..⟩

/-- **The matching release** lets its agent out. -/
theorem Sound.leave (h : Sound l inside) (ha : inside a = some tag) :
    Sound (l.release tag a) (Function.update inside a none) := by
  obtain ⟨hword, howner⟩ := h.taken a tag ha
  unfold release
  rw [if_pos hword]
  refine ⟨?_, fun hne => absurd rfl hne, ?_⟩
  · intro b tag' hb
    by_cases hba : b = a
    · subst hba
      rw [Function.update_self] at hb
      cases hb
    · rw [Function.update_of_ne hba] at hb
      exact absurd (h.exclusive hb ha) hba
  · simp [h.own, howner]

/-- **A release from outside** does nothing when nobody inside uses its tag. -/
theorem Sound.release_eq (h : Sound l inside) (hnonzero : tag ≠ 0)
    (hothers : ∀ b, inside b ≠ some tag) : l.release tag a = l := by
  unfold release
  rw [if_neg]
  intro hword
  obtain ⟨b, tag', _, hb⟩ := h.taker (hword ▸ hnonzero)
  have htag := (h.taken b tag' hb).1
  rw [hword] at htag
  exact hothers b (htag ▸ hb)

/-- The release by which an agent inside leaves frees the word. -/
theorem Sound.release_word (h : Sound l inside) (ha : inside a = some tag) :
    (l.release tag a).word = 0 := by
  unfold release
  rw [if_pos (h.taken a tag ha).1]

end LockWord
