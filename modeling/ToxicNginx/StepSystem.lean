import Mathlib.Logic.Basic

/-!
# Labelled step systems and guarded runs

A step system is a partial function `step : State → Label → Option State`: the
label says which event is taken and with which outside answers, `none` says
that the event is not enabled.  This file holds what every development over
such a system uses and names no particular one.

* `execute`, `Run` — a finite run, as a computation and as a record of its
  labels; `run_iff_execute` ties the two together;
* `Run.invariant` — a property of the start that every step keeps holds at
  the end of every run; `Run.history` — the same with the labels taken so far;
* `GuardedRun` — a run each of whose steps is taken in a state where a guard
  holds; `GuardedRun.invariant` is the same induction with the guard at hand;
* `GuardedRun.reguard` — under an invariant one guard may imply another;
* `guardedRun_iff_everywhere` — a guard that is exact for one step is exact for
  runs;
* `check`, `guardedRun_iff_check` — a decidable guard makes it a computation;
* `Run.append`, `Run.snoc` — runs compose and are extended by a last step.
-/

namespace StepSystem

universe u v

variable {State : Type u} {Label : Type v}

/-- Execute a list of labels; `none` if one of them is not enabled. -/
def execute (step : State → Label → Option State) : State → List Label → Option State
  | s, [] => some s
  | s, a :: as => (step s a).bind fun m => execute step m as

/-- A finite run, recorded one label at a time. -/
inductive Run (step : State → Label → Option State) : State → List Label → State → Prop
  | nil (s : State) : Run step s [] s
  | cons {s m t : State} {a : Label} {as : List Label}
      (hstep : step s a = some m) (tail : Run step m as t) :
      Run step s (a :: as) t

/-- A run each of whose steps is taken in a state where `ok` allows it. -/
inductive GuardedRun (step : State → Label → Option State) (ok : State → Label → Prop) :
    State → List Label → State → Prop
  | nil (s : State) : GuardedRun step ok s [] s
  | cons {s m t : State} {a : Label} {as : List Label}
      (hok : ok s a) (hstep : step s a = some m) (tail : GuardedRun step ok m as t) :
      GuardedRun step ok s (a :: as) t

variable {step : State → Label → Option State} {ok : State → Label → Prop}

/-- A run is exactly a successful execution of its labels. -/
theorem run_iff_execute {s t : State} {as : List Label} :
    Run step s as t ↔ execute step s as = some t := by
  constructor
  · intro h
    induction h with
    | nil s => rfl
    | cons hstep tail ih => simp [execute, hstep, ih]
  · intro h
    induction as generalizing s with
    | nil =>
        obtain rfl : s = t := Option.some.inj h
        exact Run.nil s
    | cons a as ih =>
        obtain ⟨m, hm, hrest⟩ := Option.bind_eq_some_iff.mp h
        exact Run.cons hm (ih hrest)

/-- **Invariant rule.**  What holds at the start and is kept by every step
holds at the end of every run. -/
theorem Run.invariant {Inv : State → Prop}
    (hkeep : ∀ s a m, Inv s → step s a = some m → Inv m)
    {s t : State} {as : List Label} (hrun : Run step s as t) (hs : Inv s) : Inv t := by
  induction hrun with
  | nil s => exact hs
  | cons hstep tail ih => exact ih (hkeep _ _ _ hs hstep)

/-- **Guarded invariant rule.**  The same induction when each step may use
the guard of the state it is taken in. -/
theorem GuardedRun.invariant {Inv : State → Prop}
    (hkeep : ∀ s a m, Inv s → ok s a → step s a = some m → Inv m)
    {s t : State} {as : List Label} (hrun : GuardedRun step ok s as t) (hs : Inv s) :
    Inv t := by
  induction hrun with
  | nil s => exact hs
  | cons hok hstep tail ih => exact ih (hkeep _ _ _ hs hok hstep)

/-- **History rule.**  The same induction for a property of the state and the
labels taken so far. -/
theorem Run.history {Inv : State → List Label → Prop}
    (hkeep : ∀ s past a m, Inv s past → step s a = some m → Inv m (past ++ [a]))
    {s t : State} {as past : List Label} (hrun : Run step s as t) (hs : Inv s past) :
    Inv t (past ++ as) := by
  induction hrun generalizing past with
  | nil s =>
      rw [List.append_nil]
      exact hs
  | @cons s m t a as hstep tail ih =>
      have := ih (hkeep _ _ _ _ hs hstep)
      rw [List.append_assoc] at this
      exact this

/-- **Change of guard.**  An invariant may turn one guard into another. -/
theorem GuardedRun.reguard {Inv : State → Prop} {ok' : State → Label → Prop}
    (hkeep : ∀ s a m, Inv s → ok s a → step s a = some m → Inv m)
    (hguard : ∀ s a m, Inv s → ok s a → step s a = some m → ok' s a)
    {s t : State} {as : List Label} (hrun : GuardedRun step ok s as t) (hs : Inv s) :
    GuardedRun step ok' s as t := by
  induction hrun with
  | nil s => exact GuardedRun.nil s
  | cons hok hstep tail ih =>
      exact GuardedRun.cons (hguard _ _ _ hs hok hstep) hstep (ih (hkeep _ _ _ hs hok hstep))

/-- **Exact guard rule.**  When, under an invariant, a step keeps a property
exactly if its guard holds, the guarded runs are those with the property in
every state on the way. -/
theorem guardedRun_iff_everywhere {Inv P : State → Prop}
    (hinv : ∀ s a m, Inv s → step s a = some m → Inv m)
    (hguard : ∀ s a m, Inv s → P s → step s a = some m → (P m ↔ ok s a))
    {s t : State} {as : List Label} (hs : Inv s) (hp : P s) :
    GuardedRun step ok s as t ↔
      Run step s as t ∧ ∀ front back m, as = front ++ back → Run step s front m → P m := by
  induction as generalizing s with
  | nil =>
      constructor
      · intro h
        cases h
        refine ⟨Run.nil _, fun front back m hsplit hrun => ?_⟩
        obtain rfl := (List.append_eq_nil_iff.mp hsplit.symm).1
        cases hrun
        exact hp
      · rintro ⟨hrun, -⟩
        cases hrun
        exact GuardedRun.nil _
  | cons a as ih =>
      constructor
      · intro h
        cases h with
        | @cons _ m _ _ _ hok hstep tail =>
            have hm := (hguard _ _ _ hs hp hstep).mpr hok
            obtain ⟨hrun, hall⟩ := (ih (hinv _ _ _ hs hstep) hm).mp tail
            refine ⟨Run.cons hstep hrun, fun front back m' hsplit hfront => ?_⟩
            cases hfront with
            | nil => exact hp
            | @cons _ n _ b bs hstep' tail' =>
                obtain ⟨rfl, hrest⟩ := List.cons.inj hsplit
                obtain rfl := Option.some.inj (hstep.symm.trans hstep')
                exact hall bs back m' hrest tail'
      · rintro ⟨hrun, hall⟩
        cases hrun with
        | @cons _ m _ _ _ hstep tail =>
            have hm := hall [a] as m rfl (Run.cons hstep (Run.nil m))
            refine GuardedRun.cons ((hguard _ _ _ hs hp hstep).mp hm) hstep ?_
            refine (ih (hinv _ _ _ hs hstep) hm).mpr ⟨tail, fun front back m' hsplit hfront => ?_⟩
            exact hall (a :: front) back m' (by rw [hsplit, List.cons_append])
              (Run.cons hstep hfront)

/-- Execute a list of labels and check the guard on the way. -/
def check (step : State → Label → Option State) (ok : State → Label → Prop)
    [∀ s a, Decidable (ok s a)] : State → List Label → Option State
  | s, [] => some s
  | s, a :: as => if ok s a then (step s a).bind fun m => check step ok m as else none

/-- A guarded run is exactly a checked execution of its labels. -/
theorem guardedRun_iff_check [∀ s a, Decidable (ok s a)] {s t : State} {as : List Label} :
    GuardedRun step ok s as t ↔ check step ok s as = some t := by
  constructor
  · intro h
    induction h with
    | nil s => rfl
    | cons hok hstep tail ih => simp [check, hok, hstep, ih]
  · intro h
    induction as generalizing s with
    | nil =>
        obtain rfl : s = t := Option.some.inj h
        exact GuardedRun.nil s
    | cons a as ih =>
        unfold check at h
        by_cases hok : ok s a
        · rw [if_pos hok] at h
          obtain ⟨m, hm, hrest⟩ := Option.bind_eq_some_iff.mp h
          exact GuardedRun.cons hok hm (ih hrest)
        · rw [if_neg hok] at h
          cases h

/-- Runs compose. -/
theorem Run.append {s m t : State} {as bs : List Label}
    (hleft : Run step s as m) (hright : Run step m bs t) : Run step s (as ++ bs) t := by
  induction hleft with
  | nil s => exact hright
  | cons hstep tail ih => exact Run.cons hstep (ih hright)

/-- A run is extended by one more step at its end. -/
theorem Run.snoc {s m t : State} {as : List Label} {a : Label}
    (hrun : Run step s as m) (hstep : step m a = some t) : Run step s (as ++ [a]) t :=
  hrun.append (Run.cons hstep (Run.nil t))

end StepSystem
