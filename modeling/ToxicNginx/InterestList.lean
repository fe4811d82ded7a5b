import Mathlib.Data.List.Basic

/-!
# Interest lists

An interest list is what a kernel's event queue has been asked to watch: each
key is in it once at most, with the data that is handed back with an event.
Whoever shares the queue may change the list.

* `Registered` — a key is in the list;
* `ctlAdd`, `ctlMod`, `ctlDel` — the operations, `none` where they fail;
  `retain` — what the kernel drops by itself;
* `registered_add`, `registered_mod`, `registered_del`, `registered_retain` —
  which keys are in the list afterwards;
* `mem_add`, `mem_mod`, `mem_del` — where its entries come from.
-/

namespace InterestList

universe u v

variable {K : Type u} {D : Type v} [DecidableEq K]

/-- The key is in the list. -/
def Registered (l : List (K × D)) (k : K) : Prop := k ∈ l.map Prod.fst

instance (l : List (K × D)) (k : K) : Decidable (Registered l k) :=
  inferInstanceAs (Decidable (k ∈ l.map Prod.fst))

/-- Put a key into the list. -/
def ctlAdd (k : K) (d : D) (l : List (K × D)) : Option (List (K × D)) :=
  if Registered l k then none else some (l ++ [(k, d)])

/-- Change the data of a key. -/
def ctlMod (k : K) (d : D) (l : List (K × D)) : Option (List (K × D)) :=
  if Registered l k then some (l.map fun e => if e.1 = k then (k, d) else e) else none

/-- Take a key out of the list. -/
def ctlDel (k : K) (l : List (K × D)) : Option (List (K × D)) :=
  if Registered l k then some (l.filter fun e => e.1 ≠ k) else none

/-- The entries whose keys are still worth watching. -/
def retain (p : K → Bool) (l : List (K × D)) : List (K × D) := l.filter fun e => p e.1

variable {k j : K} {d : D} {l m : List (K × D)} {e : K × D}

/-- After an addition the key is there as well. -/
theorem registered_add (h : ctlAdd k d l = some m) :
    Registered m j ↔ j = k ∨ Registered l j := by
  unfold ctlAdd at h
  split at h
  next => cases h
  next =>
    obtain rfl := Option.some.inj h
    unfold Registered
    simp [or_comm]

/-- A change leaves the keys. -/
theorem registered_mod (h : ctlMod k d l = some m) :
    Registered m j ↔ Registered l j := by
  unfold ctlMod at h
  split at h
  next =>
    obtain rfl := Option.some.inj h
    have hkeys : (l.map fun e => if e.1 = k then (k, d) else e).map Prod.fst
        = l.map Prod.fst := by
      rw [List.map_map]
      refine List.map_congr_left fun e _ => ?_
      rw [Function.comp_apply]
      split
      next heq => exact heq.symm
      next => rfl
    unfold Registered
    rw [hkeys]
  next => cases h

/-- The key that is changed is in the list. -/
theorem registered_of_mod (h : ctlMod k d l = some m) : Registered l k := by
  unfold ctlMod at h
  split at h
  next hk => exact hk
  next => cases h

/-- After a removal the key is not there. -/
theorem registered_del (h : ctlDel k l = some m) :
    Registered m j ↔ Registered l j ∧ j ≠ k := by
  unfold ctlDel at h
  split at h
  next =>
    obtain rfl := Option.some.inj h
    unfold Registered
    constructor
    · intro hj
      obtain ⟨e, he, rfl⟩ := List.mem_map.mp hj
      obtain ⟨hmem, hne⟩ := List.mem_filter.mp he
      exact ⟨List.mem_map_of_mem hmem, of_decide_eq_true hne⟩
    · rintro ⟨hj, hne⟩
      obtain ⟨e, he, rfl⟩ := List.mem_map.mp hj
      exact List.mem_map_of_mem (List.mem_filter.mpr ⟨he, decide_eq_true hne⟩)
  next => cases h

omit [DecidableEq K] in
/-- What is retained was there. -/
theorem registered_retain {p : K → Bool} :
    Registered (retain p l) j ↔ Registered l j ∧ p j = true := by
  unfold Registered retain
  constructor
  · intro hj
    obtain ⟨e, he, rfl⟩ := List.mem_map.mp hj
    obtain ⟨hmem, hp⟩ := List.mem_filter.mp he
    exact ⟨List.mem_map_of_mem hmem, hp⟩
  · rintro ⟨hj, hp⟩
    obtain ⟨e, he, rfl⟩ := List.mem_map.mp hj
    exact List.mem_map_of_mem (List.mem_filter.mpr ⟨he, hp⟩)

/-- The entries after an addition. -/
theorem mem_add (h : ctlAdd k d l = some m) (he : e ∈ m) : e = (k, d) ∨ e ∈ l := by
  unfold ctlAdd at h
  split at h
  next => cases h
  next =>
    obtain rfl := Option.some.inj h
    rcases List.mem_append.mp he with hold | hnew
    · exact Or.inr hold
    · exact Or.inl (List.mem_singleton.mp hnew)

/-- The entries after a change. -/
theorem mem_mod (h : ctlMod k d l = some m) (he : e ∈ m) : e = (k, d) ∨ e ∈ l := by
  unfold ctlMod at h
  split at h
  next =>
    obtain rfl := Option.some.inj h
    obtain ⟨old, hold, rfl⟩ := List.mem_map.mp he
    split
    next => exact Or.inl rfl
    next => exact Or.inr hold
  next => cases h

/-- The entries after a removal. -/
theorem mem_del (h : ctlDel k l = some m) (he : e ∈ m) : e ∈ l := by
  unfold ctlDel at h
  split at h
  next =>
    obtain rfl := Option.some.inj h
    exact (List.mem_filter.mp he).1
  next => cases h

end InterestList
