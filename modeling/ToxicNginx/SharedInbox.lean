import Mathlib.Data.List.Basic

/-!
# An inbox that several readers share

Messages are put at the end of an inbox and taken from its head, each by the
reader that comes first.  This file holds what every development over such an
inbox uses and names no particular one.

* `Inbox.write`, `Inbox.read` — the operations;
* `Inbox.Conserved` — what was written is what was taken and what is there, in
  this order; both operations keep it;
* `Inbox.Conserved.only_iff` — one reader has got all of it exactly when no
  other has taken anything.
-/

namespace SharedInbox

universe u v

/-- What is there, with records of what was written and who took what. -/
structure Inbox (Reader : Type u) (Msg : Type v) where
  pending : List Msg
  written : List Msg
  taken : List (Reader × Msg)
  deriving DecidableEq, Repr

variable {Reader : Type u} {Msg : Type v}

/-- An inbox nothing was written to. -/
def Inbox.empty : Inbox Reader Msg := ⟨[], [], []⟩

/-- A message comes behind the others. -/
def Inbox.write (m : Msg) (i : Inbox Reader Msg) : Inbox Reader Msg :=
  { i with pending := i.pending ++ [m], written := i.written ++ [m] }

/-- A reader takes the first message, if there is one. -/
def Inbox.read (r : Reader) (i : Inbox Reader Msg) : Option (Msg × Inbox Reader Msg) :=
  match i.pending with
  | [] => none
  | m :: rest => some (m, { i with pending := rest, taken := i.taken ++ [(r, m)] })

/-- What one reader has taken. -/
def Inbox.takenBy [DecidableEq Reader] (r : Reader) (i : Inbox Reader Msg) : List Msg :=
  (i.taken.filter fun e => decide (e.1 = r)).map Prod.snd

/-- Nothing is lost in the inbox, and the order is kept. -/
def Inbox.Conserved (i : Inbox Reader Msg) : Prop := i.written = i.taken.map Prod.snd ++ i.pending

/-- An empty inbox has lost nothing. -/
theorem Inbox.conserved_empty : (Inbox.empty : Inbox Reader Msg).Conserved := rfl

/-- Writing loses nothing. -/
theorem Inbox.Conserved.write {i : Inbox Reader Msg} (h : i.Conserved) (m : Msg) :
    (i.write m).Conserved := by
  unfold Conserved at h ⊢
  simp only [Inbox.write, h, List.append_assoc]

/-- Reading loses nothing. -/
theorem Inbox.Conserved.read {i j : Inbox Reader Msg} {r : Reader} {m : Msg} (h : i.Conserved)
    (hread : i.read r = some (m, j)) : j.Conserved := by
  unfold Inbox.read at hread
  split at hread
  case h_1 => cases hread
  case h_2 m' rest hpending =>
    obtain ⟨rfl, rfl⟩ := Prod.mk.inj (Option.some.inj hread)
    unfold Conserved at h ⊢
    simp only [h, hpending, List.map_append, List.map_cons, List.map_nil, List.append_assoc,
      List.singleton_append]

/-- What a read does, in full. -/
theorem Inbox.read_eq_some_iff {i j : Inbox Reader Msg} {r : Reader} {m : Msg} :
    i.read r = some (m, j) ↔
      ∃ rest, i.pending = m :: rest ∧
        j = { i with pending := rest, taken := i.taken ++ [(r, m)] } := by
  unfold Inbox.read
  cases i.pending with
  | nil => simp
  | cons m' rest =>
      simp only [Option.some.injEq, Prod.mk.injEq, List.cons.injEq]
      constructor
      · rintro ⟨rfl, rfl⟩
        exact ⟨rest, ⟨rfl, rfl⟩, rfl⟩
      · rintro ⟨rest', ⟨rfl, rfl⟩, rfl⟩
        exact ⟨rfl, rfl⟩

section Only

variable [DecidableEq Reader]

@[simp] theorem Inbox.takenBy_write (r : Reader) (m : Msg) (i : Inbox Reader Msg) :
    (i.write m).takenBy r = i.takenBy r := rfl

/-- A reader that has got all of it so far still has when more is written. -/
theorem Inbox.only_write {i : Inbox Reader Msg} {r : Reader}
    (h : i.written = i.takenBy r ++ i.pending) (m : Msg) :
    (i.write m).written = (i.write m).takenBy r ++ (i.write m).pending := by
  rw [takenBy_write]
  simp only [Inbox.write]
  rw [h, List.append_assoc]

/-- One reader has got all that was written and is no more there, exactly when
nobody else has taken anything. -/
theorem Inbox.Conserved.only_iff {i : Inbox Reader Msg} (h : i.Conserved) (r : Reader) :
    i.written = i.takenBy r ++ i.pending ↔ ∀ e ∈ i.taken, e.1 = r := by
  unfold Conserved at h
  rw [h, List.append_left_inj, takenBy]
  constructor
  · intro hall e he
    have hlen : i.taken.length = (i.taken.filter fun e => decide (e.1 = r)).length := by
      simpa using congrArg List.length hall
    simpa using List.length_filter_eq_length_iff.mp hlen.symm e he
  · intro hall
    rw [List.filter_eq_self.mpr fun e he => by simpa using hall e he]

end Only

end SharedInbox
