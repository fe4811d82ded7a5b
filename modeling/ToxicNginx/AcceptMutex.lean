import Mathlib
import ToxicNginx.StepSystem
import ToxicNginx.LockWord

/-!
# The accept mutex among workers and toxic children

The word of the accept mutex holds the `ngx_pid` of the process that took it.
`ngx_spawn_process` sets `ngx_pid` in a worker; a toxic child is made by a bare
`fork` and goes on with its parent's `ngx_pid`, `ngx_accept_mutex_held` and
`ngx_accept_disabled`.

* `Proc`, `Mutex`, `mutexStep` — any number of processes in
  `ngx_process_events_and_timers` and the word they share;
* `trylockAcceptMutex`, `processEvents`, `enableAcceptEvents`, `acceptFails`,
  `unlockAcceptMutex`, `reap` — the functions, cut where the word is touched;
* `MutexSafe` — one process inside, no other process's lock released, no lock
  left behind by the dead;
* `Locked` — the invariant; `procStep_locked`, `mutexStep_locked`;
* `mutexSafe_of_guarded` — the property in every run in which an unlock from
  outside meets nobody inside with the same `ngx_pid`, and a process that dies
  inside is reaped under its own;
* `mutexSafe_of_workers` — the property in every run without a toxic child.
-/

namespace Toxic

open StepSystem

/-- Where a process is in `ngx_process_events_and_timers`. -/
inductive CyclePc
  | top
  /-- In `ngx_enable_accept_events`, behind a successful `ngx_shmtx_trylock`. -/
  | enabling
  /-- From `ngx_process_events` to the posted accept events; `post` is
  `NGX_POST_EVENTS` of `flags`. -/
  | events (post : Bool)
  /-- Behind the unlock: timers and posted events. -/
  | posted
  deriving DecidableEq, Repr

/-- A process runs, is dead, or dead and waited for. -/
inductive Life
  | alive
  | zombie
  | reaped
  deriving DecidableEq, Repr

/-- A process: its pid, the process that forked it (`none` for the master),
`ngx_pid`, `ngx_accept_mutex_held` and `ngx_accept_disabled`.  `inside` records
that it has not yet unlocked what its last successful `ngx_shmtx_trylock` took. -/
structure Proc where
  pid : Nat
  parent : Option Nat
  ngxPid : Nat
  held : Bool
  disabled : Int
  pc : CyclePc
  life : Life
  inside : Bool
  deriving DecidableEq, Repr

/-- The word of the accept mutex and the processes, in the order of their
creation. -/
structure Mutex where
  lock : LockWord Nat Nat
  procs : List Proc
  deriving DecidableEq, Repr

/-- What a process does next; `disables` and `ok` are the outcomes of
`ngx_disable_accept_events` and `ngx_enable_accept_events`. -/
inductive ProcEvent
  | cycle (disables : Bool)
  | enable (ok : Bool)
  /-- A connection is accepted. -/
  | accept (connectionN freeConnectionN : Nat)
  /-- `accept` fails with `EMFILE` or `ENFILE`. -/
  | acceptFails (disables : Bool)
  | unlock
  | finish
  /-- The handler of a toxic request forks. -/
  | fork (pid : Nat)
  | exit
  deriving DecidableEq, Repr

/-- What happens next: the master spawns a worker, a process takes a step, or a
dead process is waited for. -/
inductive MutexEvent
  | spawn (pid : Nat)
  | run (i : Nat) (event : ProcEvent)
  | reap (i : Nat)
  deriving DecidableEq, Repr

/-- Process `i` goes on as `p`. -/
def Mutex.set (s : Mutex) (i : Nat) (p : Proc) : Mutex := { s with procs := s.procs.set i p }

/-- `ngx_shmtx_unlock(&ngx_accept_mutex)`. -/
def shmtxUnlock (i : Nat) (p : Proc) (s : Mutex) : Mutex :=
  { s with lock := s.lock.release p.ngxPid i }

/-- `ngx_trylock_accept_mutex` as far as `ngx_enable_accept_events`, and the
flags that follow from it; `ngx_accept_events` is 0. -/
def trylockAcceptMutex (disables : Bool) (i : Nat) (p : Proc) (s : Mutex) : Mutex :=
  match s.lock.trylock p.ngxPid i with
  | some lock =>
      let s := { s with lock := lock }
      if p.held then s.set i { p with pc := .events true, inside := true }
      else s.set i { p with pc := .enabling, inside := true }
  | none =>
      if p.held then
        if disables then s.set i { p with held := false, pc := .events false }
        else s.set i { p with pc := .top }
      else s.set i { p with pc := .events false }

/-- `ngx_process_events_and_timers` before `ngx_process_events`. -/
def processEvents (disables : Bool) (i : Nat) (p : Proc) (s : Mutex) : Mutex :=
  if 0 < p.disabled then
    s.set i { p with disabled := p.disabled - 1, pc := .events false }
  else trylockAcceptMutex disables i p s

/-- `ngx_trylock_accept_mutex` from `ngx_enable_accept_events` on. -/
def enableAcceptEvents (ok : Bool) (i : Nat) (p : Proc) (s : Mutex) : Mutex :=
  if ok then s.set i { p with held := true, pc := .events true }
  else (shmtxUnlock i p s).set i { p with pc := .top, inside := false }

/-- `ngx_event_accept` when `accept` fails for want of descriptors. -/
def acceptFails (disables : Bool) (i : Nat) (p : Proc) (s : Mutex) : Mutex :=
  if !disables then s
  else if p.held then
    (shmtxUnlock i p s).set i { p with held := false, disabled := 1, inside := false }
  else s.set i { p with disabled := 1 }

/-- The unlock of `ngx_process_events_and_timers`. -/
def unlockAcceptMutex (i : Nat) (p : Proc) (s : Mutex) : Mutex :=
  if p.held then (shmtxUnlock i p s).set i { p with pc := .posted, inside := false }
  else s.set i { p with pc := .posted }

/-- The other side of a bare `fork` in process `i`. -/
def forkedChild (i pid : Nat) (p : Proc) : Proc :=
  { p with pid := pid, parent := some i, inside := false }

/-- A worker behind `ngx_spawn_process`. -/
def spawnedWorker (pid : Nat) : Proc :=
  ⟨pid, none, pid, false, 0, .top, .alive, false⟩

/-- A pid the kernel may give away. -/
def Mutex.unusedPid (s : Mutex) (pid : Nat) : Bool :=
  pid != 0 && s.procs.all fun q => q.life == .reaped || q.pid != pid

/-- The process that forked `p` is there to wait for it; else `init` does. -/
def Mutex.reaps (s : Mutex) (p : Proc) : Bool :=
  match p.parent with
  | none => true
  | some j => (s.procs[j]?).any (·.life == .alive)

/-- `waitpid` returns the pid of process `i`, and `ngx_unlock_mutexes` forces
the mutex open. -/
def reap (i : Nat) (p : Proc) (s : Mutex) : Mutex :=
  let s' := s.set i { p with life := .reaped }
  if s.reaps p then { s' with lock := s'.lock.release p.pid i } else s'

/-- One step of a live process; requests are handled behind the unlock, or
within `ngx_process_events` when events are not posted. -/
def procStep (i : Nat) (p : Proc) (s : Mutex) (event : ProcEvent) : Option Mutex :=
  match event, p.pc with
  | .cycle disables, .top => some (processEvents disables i p s)
  | .enable ok, .enabling => some (enableAcceptEvents ok i p s)
  | .accept connectionN freeConnectionN, .events _ =>
      some (s.set i { p with disabled := (connectionN / 8 : Nat) - (freeConnectionN : Int) })
  | .acceptFails disables, .events _ => some (acceptFails disables i p s)
  | .unlock, .events _ => some (unlockAcceptMutex i p s)
  | .finish, .posted => some (s.set i { p with pc := .top })
  | .fork pid, .posted | .fork pid, .events false =>
      if s.unusedPid pid then some { s with procs := s.procs ++ [forkedChild i pid p] } else none
  | .exit, _ => some (s.set i { p with life := .zombie })
  | _, _ => none

/-- One step of the system. -/
def mutexStep (s : Mutex) : MutexEvent → Option Mutex
  | .spawn pid =>
      if s.unusedPid pid then some { s with procs := s.procs ++ [spawnedWorker pid] } else none
  | .run i event =>
      match s.procs[i]? with
      | some p => if p.life = .alive then procStep i p s event else none
      | none => none
  | .reap i =>
      match s.procs[i]? with
      | some p => if p.life = .zombie then some (reap i p s) else none
      | none => none

/-- The master before it spawns the first worker. -/
def Mutex.start : Mutex := ⟨⟨0, none, false⟩, []⟩

/-- At most one live process is between its `ngx_shmtx_trylock` and its unlock,
no unlock has released a lock another process took, and a lock that is taken
was taken by a live process, or by a dead one whose reaping frees it. -/
structure MutexSafe (s : Mutex) : Prop where
  exclusive : ∀ (i j : Nat) (p q : Proc), s.procs[i]? = some p → s.procs[j]? = some q →
    p.life = .alive → q.life = .alive → p.inside = true → q.inside = true → i = j
  own : s.lock.stolen = false
  recoverable : s.lock.word ≠ 0 → ∃ i p, s.lock.owner = some i ∧ s.procs[i]? = some p ∧
    (p.life = .alive ∨ (p.life = .zombie ∧ (reap i p s).lock.word = 0))

/-- The tag of a process inside: its `ngx_pid`. -/
def Proc.tag (p : Proc) : Option Nat :=
  if p.inside && p.life != .reaped then some p.ngxPid else none

/-- The tag of process `i`. -/
def Mutex.inside (s : Mutex) (i : Nat) : Option Nat := s.procs[i]?.bind Proc.tag

/-- Nobody inside has this `ngx_pid`. -/
def Mutex.nobody (s : Mutex) (ngxPid : Nat) : Bool := s.procs.all fun q => q.tag != some ngxPid

/-- The steps under which the mutex is safe: a process that unlocks without
having locked finds nobody inside with its `ngx_pid`; nor does the reaping of
a process outside; a process that dies inside has its own `ngx_pid` and a
parent to wait for it, and no process dies before it has waited for such a
child. -/
def OwnUnlock (s : Mutex) : MutexEvent → Prop
  | .run i .unlock | .run i (.acceptFails true) =>
      ∀ p ∈ s.procs[i]?, p.held = true → p.inside = false → s.nobody p.ngxPid = true
  | .run i .exit =>
      (∀ p ∈ s.procs[i]?, p.inside = true → p.ngxPid = p.pid ∧ s.reaps p = true) ∧
        ∀ q ∈ s.procs, q.inside = true → q.life = .zombie → q.parent ≠ some i
  | .reap i =>
      ∀ p ∈ s.procs[i]?, p.inside = false → s.reaps p = true → s.nobody p.pid = true
  | _ => True

instance (s : Mutex) (event : MutexEvent) : Decidable (OwnUnlock s event) := by
  rcases event with pid | ⟨i, _ | _ | _ | ⟨_ | _⟩ | _ | _ | _ | _⟩ | i <;> unfold OwnUnlock <;>
    infer_instance

/-- Where a process can be inside. -/
def Proc.Located (p : Proc) : Prop :=
  match p.pc with
  | .enabling => p.inside = true
  | .events true => p.inside = true → p.held = true
  | _ => p.inside = false

/-- The invariant of the mutex. -/
structure Locked (s : Mutex) : Prop where
  sound : s.lock.Sound s.inside
  pids : ∀ p ∈ s.procs, p.pid ≠ 0 ∧ p.ngxPid ≠ 0
  parents : ∀ (i j : Nat) (p : Proc), s.procs[i]? = some p → p.parent = some j → j < i
  located : ∀ p ∈ s.procs, p.life = .alive → p.Located
  dead : ∀ p ∈ s.procs, p.inside = true → p.life = .zombie → p.ngxPid = p.pid ∧ s.reaps p = true

/-! ### What the processes inside are -/

theorem Proc.tag_outside {p : Proc} (h : p.inside = false) : p.tag = none := by
  simp [Proc.tag, h]

theorem Proc.tag_inside {p : Proc} (h : p.inside = true) (hlife : p.life ≠ .reaped) :
    p.tag = some p.ngxPid := by
  simp [Proc.tag, h, hlife]

theorem Mutex.inside_at {s : Mutex} {i : Nat} {p : Proc} (hp : s.procs[i]? = some p) :
    s.inside i = p.tag := by
  simp [Mutex.inside, hp]

/-- One process goes on. -/
theorem Mutex.inside_set {s : Mutex} {i : Nat} {p : Proc} (hp : s.procs[i]? = some p) (p' : Proc) :
    (s.set i p').inside = Function.update s.inside i p'.tag := by
  funext j
  by_cases hji : j = i
  · subst hji
    rw [Function.update_self]
    unfold Mutex.inside Mutex.set
    rw [List.getElem?_set_self', hp]
    rfl
  · rw [Function.update_of_ne hji]
    unfold Mutex.inside Mutex.set
    rw [List.getElem?_set_ne (Ne.symm hji)]

/-- A new process is outside. -/
theorem Mutex.inside_append (s : Mutex) {q : Proc} (hq : q.inside = false) :
    Mutex.inside { s with procs := s.procs ++ [q] } = s.inside := by
  funext j
  unfold Mutex.inside
  dsimp only
  rw [List.getElem?_append]
  split
  · rfl
  next hj =>
    rw [List.getElem?_eq_none (Nat.le_of_not_lt hj)]
    cases hget : [q][j - s.procs.length]? with
    | none => rfl
    | some p =>
        obtain rfl := List.mem_singleton.mp (List.mem_of_getElem? hget)
        exact Proc.tag_outside hq

/-- `nobody` in terms of the tags. -/
theorem Mutex.inside_ne_of_nobody {s : Mutex} {ngxPid : Nat} (h : s.nobody ngxPid = true)
    (i : Nat) : s.inside i ≠ some ngxPid := by
  intro hi
  obtain ⟨p, hp, htag⟩ := Option.bind_eq_some_iff.mp hi
  have hne := List.all_eq_true.mp h p (List.mem_of_getElem? hp)
  rw [htag] at hne
  simp at hne

/-- Who waits for a process depends on the lives of the others. -/
theorem Mutex.reaps_set {s : Mutex} {i : Nat} {p p' : Proc} (hp : s.procs[i]? = some p) {q : Proc}
    (h : p'.life = p.life ∨ q.parent ≠ some i) : (s.set i p').reaps q = s.reaps q := by
  unfold Mutex.reaps Mutex.set
  cases hq : q.parent with
  | none => rfl
  | some j =>
      by_cases hji : j = i
      · subst hji
        rcases h with h | h
        · simp [List.getElem?_set_self', hp, h]
        · exact absurd hq h
      · dsimp only
        rw [List.getElem?_set_ne (Ne.symm hji)]

/-- A new process takes nobody's parent away. -/
theorem Mutex.reaps_append {s : Mutex} {p q : Proc} (h : s.reaps q = true) :
    Mutex.reaps { s with procs := s.procs ++ [p] } q = true := by
  unfold Mutex.reaps at h ⊢
  cases hq : q.parent with
  | none => rfl
  | some j =>
      simp only [hq] at h ⊢
      cases hj : s.procs[j]? with
      | none => simp [hj] at h
      | some r =>
          rw [hj] at h
          rw [List.getElem?_append_left (List.getElem?_eq_some_iff.mp hj).1, hj]
          exact h

/-! ### The steps -/

/-- **Process `i` goes on** with its pids and its parent, and the word changes
as its place in the code says. -/
theorem Locked.update {s : Mutex} (h : Locked s) {i : Nat} {p p' : Proc}
    {lock : LockWord Nat Nat} (hp : s.procs[i]? = some p)
    (hsame : p'.pid = p.pid ∧ p'.ngxPid = p.ngxPid ∧ p'.parent = p.parent)
    (hsound : lock.Sound (Function.update s.inside i p'.tag))
    (hlocated : p'.life = .alive → p'.Located)
    (hdead : p'.inside = true → p'.life = .zombie → p'.ngxPid = p'.pid ∧ s.reaps p' = true)
    (hparent : p'.life = p.life ∨
      ∀ q ∈ s.procs, q.inside = true → q.life = .zombie → q.parent ≠ some i) :
    Locked (Mutex.set { s with lock := lock } i p') := by
  have hmem : p ∈ s.procs := List.mem_of_getElem? hp
  have hself : p'.parent ≠ some i := by
    intro hi
    have := h.parents i i p hp (hsame.2.2 ▸ hi)
    omega
  constructor
  · rw [Mutex.inside_set (s := { s with lock := lock }) hp]
    exact hsound
  · intro q hq
    rcases List.mem_or_eq_of_mem_set hq with hq | rfl
    · exact h.pids q hq
    · rw [hsame.1, hsame.2.1]
      exact h.pids p hmem
  · intro j k q hq hk
    by_cases hji : j = i
    · subst hji
      change (s.procs.set j p')[j]? = some q at hq
      rw [List.getElem?_set_self', hp] at hq
      obtain rfl := Option.some.inj hq
      exact h.parents j k p hp (hsame.2.2 ▸ hk)
    · change (s.procs.set i p')[j]? = some q at hq
      rw [List.getElem?_set_ne (Ne.symm hji)] at hq
      exact h.parents j k q hq hk
  · intro q hq
    rcases List.mem_or_eq_of_mem_set hq with hq | rfl
    · exact h.located q hq
    · exact hlocated
  · intro q hq hin hzombie
    rcases List.mem_or_eq_of_mem_set hq with hq | rfl
    · obtain ⟨hown, hreaps⟩ := h.dead q hq hin hzombie
      refine ⟨hown, ?_⟩
      rw [Mutex.reaps_set (s := { s with lock := lock }) hp]
      · exact hreaps
      · exact hparent.imp_right fun hothers => hothers q hq hin hzombie
    · obtain ⟨hown, hreaps⟩ := hdead hin hzombie
      refine ⟨hown, ?_⟩
      rw [Mutex.reaps_set (s := { s with lock := lock }) hp (Or.inr hself)]
      exact hreaps

/-- A live process goes on. -/
theorem Locked.go {s : Mutex} (h : Locked s) {i : Nat} {p p' : Proc} {lock : LockWord Nat Nat}
    (hp : s.procs[i]? = some p) (hlife : p.life = .alive)
    (hsame : p'.pid = p.pid ∧ p'.ngxPid = p.ngxPid ∧ p'.parent = p.parent)
    (hlife' : p'.life = p.life)
    (hsound : lock.Sound (Function.update s.inside i p'.tag))
    (hlocated : p'.Located) :
    Locked (Mutex.set { s with lock := lock } i p') := by
  refine h.update hp hsame hsound (fun _ => hlocated) ?_ (Or.inl hlife')
  intro _ hzombie
  rw [hlife', hlife] at hzombie
  cases hzombie

/-- A live process goes on and leaves the word as it is. -/
theorem Locked.stay {s : Mutex} (h : Locked s) {i : Nat} {p p' : Proc}
    (hp : s.procs[i]? = some p) (hlife : p.life = .alive)
    (hsame : p'.pid = p.pid ∧ p'.ngxPid = p.ngxPid ∧ p'.parent = p.parent)
    (hlife' : p'.life = p.life)
    (hinside : p'.inside = p.inside)
    (hlocated : p'.Located) :
    Locked (s.set i p') := by
  have htag : p'.tag = s.inside i := by
    rw [Mutex.inside_at hp]
    unfold Proc.tag
    rw [hinside, hsame.2.1, hlife']
  refine h.go hp hlife hsame hlife' ?_ hlocated
  rw [htag, Function.update_eq_self]
  exact h.sound

/-- **`ngx_shmtx_unlock`** by a process inside, or by one outside that finds
nobody inside with its `ngx_pid`. -/
theorem Locked.unlocked {s : Mutex} (h : Locked s) {i : Nat} {p : Proc}
    (hp : s.procs[i]? = some p) (hlife : p.life = .alive)
    (hok : p.inside = false → s.nobody p.ngxPid = true) :
    (s.lock.release p.ngxPid i).Sound (Function.update s.inside i none) := by
  cases hin : p.inside with
  | true =>
      apply h.sound.leave
      rw [Mutex.inside_at hp]
      exact Proc.tag_inside hin (by simp [hlife])
  | false =>
      have hnone : s.inside i = none := by
        rw [Mutex.inside_at hp]
        exact Proc.tag_outside hin
      rw [h.sound.release_eq (h.pids p (List.mem_of_getElem? hp)).2 (Mutex.inside_ne_of_nobody (hok hin))]
      rw [Function.update_eq_self_iff.mpr hnone.symm]
      exact h.sound

/-- The unlock of a process that goes on outside. -/
theorem Locked.unlock {s : Mutex} (h : Locked s) {i : Nat} {p p' : Proc}
    (hp : s.procs[i]? = some p) (hlife : p.life = .alive)
    (hsame : p'.pid = p.pid ∧ p'.ngxPid = p.ngxPid ∧ p'.parent = p.parent)
    (hlife' : p'.life = p.life)
    (houtside : p'.inside = false) (hlocated : p'.Located)
    (hok : p.inside = false → s.nobody p.ngxPid = true) :
    Locked ((shmtxUnlock i p s).set i p') := by
  refine h.go hp hlife hsame hlife' ?_ hlocated
  rw [Proc.tag_outside houtside]
  exact h.unlocked hp hlife hok

/-- **A new process** that is outside, has an `ngx_pid`, and was forked by an
earlier one. -/
theorem Locked.append {s : Mutex} (h : Locked s) {q : Proc} (hq : q.inside = false)
    (hpid : q.pid ≠ 0 ∧ q.ngxPid ≠ 0) (hlocated : q.Located)
    (hparent : ∀ j, q.parent = some j → j < s.procs.length) :
    Locked { s with procs := s.procs ++ [q] } := by
  have hmem : ∀ p ∈ s.procs ++ [q], p.inside = true → p ∈ s.procs := by
    intro p hp hin
    rcases List.mem_append.mp hp with hp | hp
    · exact hp
    · obtain rfl := List.mem_singleton.mp hp
      rw [hq] at hin
      cases hin
  constructor
  · rw [Mutex.inside_append s hq]
    exact h.sound
  · intro p hp
    rcases List.mem_append.mp hp with hp | hp
    · exact h.pids p hp
    · obtain rfl := List.mem_singleton.mp hp
      exact hpid
  · intro i j p hp hj
    change (s.procs ++ [q])[i]? = some p at hp
    rw [List.getElem?_append] at hp
    split at hp
    next => exact h.parents i j p hp hj
    next hi =>
      obtain rfl := List.mem_singleton.mp (List.mem_of_getElem? hp)
      have := hparent j hj
      omega
  · intro p hp halive
    rcases List.mem_append.mp hp with hp | hp
    · exact h.located p hp halive
    · obtain rfl := List.mem_singleton.mp hp
      exact hlocated
  · intro p hp hin hzombie
    obtain ⟨hown, hreaps⟩ := h.dead p (hmem p hp hin) hin hzombie
    exact ⟨hown, Mutex.reaps_append hreaps⟩

/-- **`ngx_trylock_accept_mutex`** at the top of the cycle. -/
theorem trylockAcceptMutex_locked {s : Mutex} (h : Locked s) (disables : Bool) {i : Nat} {p : Proc}
    (hp : s.procs[i]? = some p) (hlife : p.life = .alive) (houtside : p.inside = false) :
    Locked (trylockAcceptMutex disables i p s) := by
  have hstay : ∀ held pc, (pc = .top ∨ pc = .events false) →
      Locked (s.set i { p with held := held, pc := pc }) := by
    intro held pc hpc
    refine h.stay hp hlife ⟨rfl, rfl, rfl⟩ rfl rfl ?_
    rcases hpc with rfl | rfl
    · exact houtside
    · exact houtside
  unfold trylockAcceptMutex
  cases hlock : s.lock.trylock p.ngxPid i with
  | none =>
      dsimp only
      split
      · split
        · exact hstay _ _ (Or.inr rfl)
        · exact hstay _ _ (Or.inl rfl)
      · exact hstay _ _ (Or.inr rfl)
  | some lock =>
      have hnonzero : ∀ j, s.inside j ≠ some 0 := by
        intro j hj
        obtain ⟨q, hq, htag⟩ := Option.bind_eq_some_iff.mp hj
        unfold Proc.tag at htag
        split at htag
        · exact (h.pids q (List.mem_of_getElem? hq)).2 (Option.some.inj htag)
        · cases htag
      have hsound := h.sound.acquire hlock hnonzero
      have htag : ∀ pc, ({ p with pc := pc, inside := true } : Proc).tag = some p.ngxPid :=
        fun pc => Proc.tag_inside rfl (by simp [hlife])
      dsimp only
      split
      next hheld =>
        refine h.go hp hlife ⟨rfl, rfl, rfl⟩ rfl ?_ fun _ => hheld
        rw [htag]
        exact hsound
      next =>
        refine h.go hp hlife ⟨rfl, rfl, rfl⟩ rfl ?_ rfl
        rw [htag]
        exact hsound

/-- The end of the process: its place in the code is what it left there. -/
theorem Locked.exit {s : Mutex} (h : Locked s) {i : Nat} {p : Proc} (hp : s.procs[i]? = some p)
    (hlife : p.life = .alive) (hown : p.inside = true → p.ngxPid = p.pid ∧ s.reaps p = true)
    (hchildren : ∀ q ∈ s.procs, q.inside = true → q.life = .zombie → q.parent ≠ some i) :
    Locked (s.set i { p with life := .zombie }) := by
  have htag : ({ p with life := .zombie } : Proc).tag = s.inside i := by
    rw [Mutex.inside_at hp]
    simp [Proc.tag, hlife]
  have hsound : s.lock.Sound
      (Function.update s.inside i ({ p with life := .zombie } : Proc).tag) := by
    rw [htag, Function.update_eq_self]
    exact h.sound
  refine h.update hp ⟨rfl, rfl, rfl⟩ hsound ?_ (fun hin _ => hown hin) (Or.inr hchildren)
  intro halive
  cases halive

/-- **The reaping** of a process that died inside, or of one that died outside
and finds nobody inside with its pid as `ngx_pid`. -/
theorem Locked.reap {s : Mutex} (h : Locked s) {i : Nat} {p : Proc} (hp : s.procs[i]? = some p)
    (hlife : p.life = .zombie)
    (hok : p.inside = false → s.reaps p = true → s.nobody p.pid = true) :
    Locked (Toxic.reap i p s) := by
  have htag : ({ p with life := .reaped } : Proc).tag = none := by simp [Proc.tag]
  have hchildren : ∀ q ∈ s.procs, q.inside = true → q.life = .zombie → q.parent ≠ some i := by
    intro q hq hin hzombie hi
    obtain ⟨_, hreaps⟩ := h.dead q hq hin hzombie
    simp [Mutex.reaps, hi, hp, hlife] at hreaps
  have hupdate : ∀ lock : LockWord Nat Nat, lock.Sound (Function.update s.inside i none) →
      Locked (Mutex.set { s with lock := lock } i { p with life := .reaped }) := by
    intro lock hsound
    refine h.update hp ⟨rfl, rfl, rfl⟩ ?_ ?_ ?_ (Or.inr hchildren)
    · rw [htag]
      exact hsound
    · intro halive
      cases halive
    · intro _ hzombie
      cases hzombie
  cases hin : p.inside with
  | true =>
      obtain ⟨hown, hreaps⟩ := h.dead p (List.mem_of_getElem? hp) hin hlife
      unfold Toxic.reap
      simp only [hreaps, if_true]
      apply hupdate
      apply h.sound.leave
      rw [Mutex.inside_at hp, ← hown]
      exact Proc.tag_inside hin (by simp [hlife])
  | false =>
      have hnone : s.inside i = none := by
        rw [Mutex.inside_at hp]
        exact Proc.tag_outside hin
      have hsound : s.lock.Sound (Function.update s.inside i none) := by
        rw [Function.update_eq_self_iff.mpr hnone.symm]
        exact h.sound
      unfold Toxic.reap
      dsimp only
      split
      next hreaps =>
        apply hupdate
        change (s.lock.release p.pid i).Sound _
        rw [h.sound.release_eq (h.pids p (List.mem_of_getElem? hp)).1 (Mutex.inside_ne_of_nobody (hok hin hreaps))]
        exact hsound
      next => exact hupdate s.lock hsound

/-- **A step of a live process.** -/
theorem procStep_locked {s t : Mutex} (h : Locked s) {i : Nat} {p : Proc} {event : ProcEvent}
    (hp : s.procs[i]? = some p) (hlife : p.life = .alive) (hok : OwnUnlock s (.run i event))
    (hstep : procStep i p s event = some t) : Locked t := by
  have hplace : p.Located := h.located p (List.mem_of_getElem? hp) hlife
  have hlocated := hplace
  unfold Proc.Located at hlocated
  have hfork : ∀ pid, (forkedChild i pid p).Located →
      (if s.unusedPid pid then some { s with procs := s.procs ++ [forkedChild i pid p] }
        else none) = some t → Locked t := by
    intro pid hchild hstep
    rw [Option.ite_none_right_eq_some] at hstep
    obtain ⟨hunused, ht⟩ := hstep
    obtain rfl := Option.some.inj ht
    simp only [Mutex.unusedPid, Bool.and_eq_true, bne_iff_ne] at hunused
    refine h.append rfl ⟨hunused.1, (h.pids p (List.mem_of_getElem? hp)).2⟩ hchild ?_
    intro j hj
    obtain rfl := Option.some.inj hj
    exact (List.getElem?_eq_some_iff.mp hp).1
  unfold procStep at hstep
  split at hstep
  next disables hpc =>
    rw [hpc] at hlocated
    obtain rfl := Option.some.inj hstep
    unfold processEvents
    split
    · exact h.stay hp hlife ⟨rfl, rfl, rfl⟩ rfl rfl hlocated
    · exact trylockAcceptMutex_locked h disables hp hlife hlocated
  next ok hpc =>
    rw [hpc] at hlocated
    obtain rfl := Option.some.inj hstep
    unfold enableAcceptEvents
    split
    · exact h.stay hp hlife ⟨rfl, rfl, rfl⟩ rfl rfl fun _ => rfl
    · refine h.unlock hp hlife ⟨rfl, rfl, rfl⟩ rfl rfl rfl ?_
      intro houtside
      rw [hlocated] at houtside
      cases houtside
  next =>
    obtain rfl := Option.some.inj hstep
    exact h.stay hp hlife ⟨rfl, rfl, rfl⟩ rfl rfl hplace
  next disables post hpc =>
    obtain rfl := Option.some.inj hstep
    unfold acceptFails
    cases disables with
    | false => exact h
    | true =>
        simp only [Bool.not_true, Bool.false_eq_true, if_false]
        split
        next hheld =>
          refine h.unlock hp hlife ⟨rfl, rfl, rfl⟩ rfl rfl ?_ (hok p hp hheld)
          unfold Proc.Located
          rw [hpc]
          cases post with
          | true => exact fun hin => nomatch hin
          | false => rfl
        next => exact h.stay hp hlife ⟨rfl, rfl, rfl⟩ rfl rfl hplace
  next post hpc =>
    obtain rfl := Option.some.inj hstep
    unfold unlockAcceptMutex
    split
    next hheld => exact h.unlock hp hlife ⟨rfl, rfl, rfl⟩ rfl rfl rfl (hok p hp hheld)
    next hheld =>
      refine h.stay hp hlife ⟨rfl, rfl, rfl⟩ rfl rfl ?_
      rw [hpc] at hlocated
      cases post with
      | true => exact Bool.eq_false_iff.mpr fun hin => hheld (hlocated hin)
      | false => exact hlocated
  next hpc =>
    rw [hpc] at hlocated
    obtain rfl := Option.some.inj hstep
    exact h.stay hp hlife ⟨rfl, rfl, rfl⟩ rfl rfl hlocated
  next pid hpc =>
    apply hfork pid _ hstep
    simp [Proc.Located, forkedChild, hpc]
  next pid hpc =>
    apply hfork pid _ hstep
    simp [Proc.Located, forkedChild, hpc]
  next =>
    obtain rfl := Option.some.inj hstep
    exact h.exit hp hlife (hok.1 p hp) hok.2
  next => cases hstep

/-- **Every step** that meets the condition keeps the invariant. -/
theorem mutexStep_locked (s : Mutex) (event : MutexEvent) (t : Mutex) (h : Locked s)
    (hok : OwnUnlock s event) (hstep : mutexStep s event = some t) : Locked t := by
  cases event with
  | spawn pid =>
      simp only [mutexStep, Option.ite_none_right_eq_some, Option.some.injEq] at hstep
      obtain ⟨hunused, rfl⟩ := hstep
      simp only [Mutex.unusedPid, Bool.and_eq_true, bne_iff_ne] at hunused
      exact h.append rfl ⟨hunused.1, hunused.1⟩ rfl fun j hj => nomatch hj
  | run i event =>
      cases hp : s.procs[i]? with
      | none => simp [mutexStep, hp] at hstep
      | some p =>
          simp only [mutexStep, hp, Option.ite_none_right_eq_some] at hstep
          exact procStep_locked h hp hstep.1 hok hstep.2
  | reap i =>
      cases hp : s.procs[i]? with
      | none => simp [mutexStep, hp] at hstep
      | some p =>
          simp only [mutexStep, hp, Option.ite_none_right_eq_some, Option.some.injEq] at hstep
          obtain ⟨hlife, rfl⟩ := hstep
          exact h.reap hp hlife (hok p hp)

/-- Before the first worker. -/
theorem Locked.start : Locked Mutex.start := by
  have hinside : Mutex.start.inside = fun _ => none := by
    funext i
    rfl
  refine ⟨?_, ?_, ?_, ?_, ?_⟩
  · rw [hinside]
    exact LockWord.Sound.free
  · exact fun p hp => nomatch hp
  · exact fun i j p hp => nomatch hp
  · exact fun p hp => nomatch hp
  · exact fun p hp => nomatch hp

/-- **What the invariant is for.** -/
theorem Locked.safe {s : Mutex} (h : Locked s) : MutexSafe s := by
  refine ⟨?_, h.sound.own, ?_⟩
  · intro i j p q hp hq hplife hqlife hpin hqin
    have hi : s.inside i = some p.ngxPid := by
      rw [Mutex.inside_at hp]
      exact Proc.tag_inside hpin (by simp [hplife])
    have hj : s.inside j = some q.ngxPid := by
      rw [Mutex.inside_at hq]
      exact Proc.tag_inside hqin (by simp [hqlife])
    exact h.sound.exclusive hi hj
  · intro hword
    obtain ⟨i, tag, howner, hi⟩ := h.sound.taker hword
    obtain ⟨p, hp, htag⟩ := Option.bind_eq_some_iff.mp hi
    refine ⟨i, p, howner, hp, ?_⟩
    unfold Proc.tag at htag
    split at htag
    next hin =>
      simp only [Bool.and_eq_true, bne_iff_ne] at hin
      cases hlife : p.life with
      | alive => exact Or.inl rfl
      | zombie =>
          obtain ⟨hown, hreaps⟩ := h.dead p (List.mem_of_getElem? hp) hin.1 hlife
          right
          refine ⟨rfl, ?_⟩
          unfold Toxic.reap
          rw [if_pos hreaps]
          apply h.sound.release_word
          rw [Mutex.inside_at hp, ← hown]
          exact Proc.tag_inside hin.1 hin.2
      | reaped => exact absurd hlife hin.2
    next => cases htag

/-- The invariant holds in every state reached. -/
theorem locked_of_guarded {events : List MutexEvent} {t : Mutex}
    (hrun : GuardedRun mutexStep OwnUnlock Mutex.start events t) : Locked t := by
  apply hrun.invariant _ Locked.start
  exact fun s event t h hok hstep => mutexStep_locked s event t h hok hstep

/-- **The accept mutex is safe.**  In every run of any number of workers and of
toxic children of any depth, under every interleaving of their steps, whose
steps meet `OwnUnlock`: at most one process is inside, no unlock releases
another process's lock, and every lock is a live process's or freed by the
reaping of the dead one that took it. -/
theorem mutexSafe_of_guarded {events : List MutexEvent} {t : Mutex}
    (hrun : GuardedRun mutexStep OwnUnlock Mutex.start events t) : MutexSafe t := by
  exact (locked_of_guarded hrun).safe

/-- Worker 7 takes the lock, accepts a connection that leaves one free
connection object out of sixteen, unlocks and forks child 8, which then unlocks
without having locked. -/
def sampleMutexRun (between : List MutexEvent) : List MutexEvent :=
  [.spawn 7, .run 0 (.cycle true), .run 0 (.enable true), .run 0 (.accept 16 1), .run 0 .unlock,
    .run 0 (.fork 8), .run 1 .finish, .run 1 (.cycle true)] ++ between ++ [.run 1 .unlock]

/-- `mutexSafe_of_guarded` for a child that unlocks while the lock is free and
takes it afterwards; the worker takes it next and dies inside. -/
theorem mutexSafe_of_guarded_sample :
    ∃ t, GuardedRun mutexStep OwnUnlock Mutex.start
        (sampleMutexRun [] ++ [.run 1 .finish, .run 1 (.cycle true), .run 1 .unlock,
          .run 0 .finish, .run 0 (.cycle true), .run 0 .unlock, .run 0 .finish,
          .run 0 (.cycle true), .run 0 .exit, .run 1 .finish, .run 1 (.cycle true)]) t ∧
      t.lock = ⟨7, some 0, false⟩ ∧ MutexSafe t := by
  have hlock : (check mutexStep OwnUnlock Mutex.start
      (sampleMutexRun [] ++ [.run 1 .finish, .run 1 (.cycle true), .run 1 .unlock,
        .run 0 .finish, .run 0 (.cycle true), .run 0 .unlock, .run 0 .finish,
        .run 0 (.cycle true), .run 0 .exit, .run 1 .finish, .run 1 (.cycle true)])).map (·.lock)
      = some ⟨7, some 0, false⟩ := by decide +kernel
  obtain ⟨t, hcheck, ht⟩ := Option.map_eq_some_iff.mp hlock
  have hrun := guardedRun_iff_check.mpr hcheck
  exact ⟨t, hrun, ht, mutexSafe_of_guarded hrun⟩

/-- The child unlocks while its worker is inside, and another worker gets in. -/
theorem child_releases_worker :
    ∃ t, Run mutexStep Mutex.start
        (sampleMutexRun [.run 0 .finish, .run 0 (.cycle true), .run 0 .unlock, .run 0 .finish,
          .run 0 (.cycle true)] ++ [.spawn 9, .run 2 (.cycle true)]) t ∧
      t.lock = ⟨9, some 2, true⟩ ∧
      t.procs.map (fun p => (p.pid, p.life, p.inside))
        = [(7, .alive, true), (8, .alive, false), (9, .alive, true)] ∧
      ¬ MutexSafe t := by
  have hlock : (execute mutexStep Mutex.start
      (sampleMutexRun [.run 0 .finish, .run 0 (.cycle true), .run 0 .unlock, .run 0 .finish,
        .run 0 (.cycle true)] ++ [.spawn 9, .run 2 (.cycle true)])).map
          (fun t => (t.lock, t.procs.map (fun p => (p.pid, p.life, p.inside))))
      = some (⟨9, some 2, true⟩,
        [(7, .alive, true), (8, .alive, false), (9, .alive, true)]) := by decide +kernel
  obtain ⟨t, hexec, ht⟩ := Option.map_eq_some_iff.mp hlock
  obtain ⟨hword, hprocs⟩ := Prod.mk.inj ht
  refine ⟨t, run_iff_execute.mpr hexec, hword, hprocs, ?_⟩
  intro hsafe
  have hown := hsafe.own
  rw [hword] at hown
  cases hown

/-! ### Workers without toxic children -/

/-- No toxic request is handled. -/
def NoFork (_ : Mutex) : MutexEvent → Prop
  | .run _ (.fork _) => False
  | _ => True

/-- Every process has its own pid as `ngx_pid`. -/
structure Workers (s : Mutex) : Prop where
  spawned : ∀ p ∈ s.procs, p.parent = none ∧ p.ngxPid = p.pid
  distinct : ∀ (i j : Nat) (p q : Proc), s.procs[i]? = some p → s.procs[j]? = some q →
    p.life ≠ .reaped → q.life ≠ .reaped → p.pid = q.pid → i = j

/-- Only a fork adds a process; the other steps leave the pids and the parents. -/
theorem procStep_procs {s t : Mutex} {i : Nat} {p : Proc} {event : ProcEvent}
    (hp : s.procs[i]? = some p) (hfork : ∀ pid, event ≠ .fork pid)
    (hstep : procStep i p s event = some t) :
    ∃ p', t.procs = s.procs.set i p' ∧
      p'.pid = p.pid ∧ p'.ngxPid = p.ngxPid ∧ p'.parent = p.parent := by
  have hsame : s.procs = s.procs.set i p := by
    apply List.ext_getElem?
    intro j
    by_cases hji : j = i
    · subst hji
      rw [List.getElem?_set_self', hp]
      rfl
    · rw [List.getElem?_set_ne (Ne.symm hji)]
  unfold procStep at hstep
  split at hstep
  next =>
    obtain rfl := Option.some.inj hstep
    unfold processEvents trylockAcceptMutex
    repeat' split
    all_goals exact ⟨_, rfl, rfl, rfl, rfl⟩
  next =>
    obtain rfl := Option.some.inj hstep
    unfold enableAcceptEvents
    split
    · exact ⟨_, rfl, rfl, rfl, rfl⟩
    · exact ⟨_, rfl, rfl, rfl, rfl⟩
  next =>
    obtain rfl := Option.some.inj hstep
    exact ⟨_, rfl, rfl, rfl, rfl⟩
  next =>
    obtain rfl := Option.some.inj hstep
    unfold acceptFails
    split
    · exact ⟨p, hsame, rfl, rfl, rfl⟩
    split
    · exact ⟨_, rfl, rfl, rfl, rfl⟩
    · exact ⟨_, rfl, rfl, rfl, rfl⟩
  next =>
    obtain rfl := Option.some.inj hstep
    unfold unlockAcceptMutex
    split
    · exact ⟨_, rfl, rfl, rfl, rfl⟩
    · exact ⟨_, rfl, rfl, rfl, rfl⟩
  next =>
    obtain rfl := Option.some.inj hstep
    exact ⟨_, rfl, rfl, rfl, rfl⟩
  next pid _ => exact absurd rfl (hfork pid)
  next pid _ => exact absurd rfl (hfork pid)
  next =>
    obtain rfl := Option.some.inj hstep
    exact ⟨_, rfl, rfl, rfl, rfl⟩
  next => cases hstep

/-- A worker goes on, or is reaped. -/
theorem Workers.set {s t : Mutex} (h : Workers s) {i : Nat} {p p' : Proc}
    (hp : s.procs[i]? = some p) (hprocs : t.procs = s.procs.set i p') (hlife : p.life ≠ .reaped)
    (hsame : p'.pid = p.pid ∧ p'.ngxPid = p.ngxPid ∧ p'.parent = p.parent) : Workers t := by
  have hfrom : ∀ (j : Nat) (q : Proc), t.procs[j]? = some q →
      ∃ q' : Proc, s.procs[j]? = some q' ∧ q'.pid = q.pid ∧ (q.life ≠ .reaped → q'.life ≠ .reaped) := by
    intro j q hq
    rw [hprocs] at hq
    by_cases hji : j = i
    · subst hji
      rw [List.getElem?_set_self', hp] at hq
      obtain rfl := Option.some.inj hq
      exact ⟨p, hp, hsame.1.symm, fun _ => hlife⟩
    · rw [List.getElem?_set_ne (Ne.symm hji)] at hq
      exact ⟨q, hq, rfl, id⟩
  constructor
  · intro q hq
    rw [hprocs] at hq
    rcases List.mem_or_eq_of_mem_set hq with hq | rfl
    · exact h.spawned q hq
    · obtain ⟨hparent, hown⟩ := h.spawned p (List.mem_of_getElem? hp)
      rw [hsame.1, hsame.2.1, hsame.2.2]
      exact ⟨hparent, hown⟩
  · intro j k q r hq hr hqlife hrlife hpid
    obtain ⟨q', hq', hqpid, hqalive⟩ := hfrom j q hq
    obtain ⟨r', hr', hrpid, hralive⟩ := hfrom k r hr
    exact h.distinct j k q' r' hq' hr' (hqalive hqlife) (hralive hrlife)
      (hqpid.trans (hpid.trans hrpid.symm))

/-- A worker is spawned with a pid nobody has. -/
theorem Workers.append {s : Mutex} (h : Workers s) {pid : Nat} (hunused : s.unusedPid pid = true) :
    Workers { s with procs := s.procs ++ [spawnedWorker pid] } := by
  simp only [Mutex.unusedPid, Bool.and_eq_true, List.all_eq_true, Bool.or_eq_true, beq_iff_eq,
    bne_iff_ne] at hunused
  have hnew : ∀ (i : Nat) (p : Proc), (s.procs ++ [spawnedWorker pid])[i]? = some p →
      s.procs[i]? = some p ∨ (i = s.procs.length ∧ p = spawnedWorker pid) := by
    intro i p hp
    rw [List.getElem?_append] at hp
    split at hp
    next => exact Or.inl hp
    next hi =>
      right
      have hlt := (List.getElem?_eq_some_iff.mp hp).1
      refine ⟨?_, List.mem_singleton.mp (List.mem_of_getElem? hp)⟩
      simp only [List.length_singleton] at hlt
      omega
  have hother : ∀ (i : Nat) (p : Proc), s.procs[i]? = some p → p.life ≠ .reaped →
      p.pid ≠ pid := by
    intro i p hp hlife
    exact (hunused.2 p (List.mem_of_getElem? hp)).resolve_left hlife
  constructor
  · intro p hp
    rcases List.mem_append.mp hp with hp | hp
    · exact h.spawned p hp
    · obtain rfl := List.mem_singleton.mp hp
      exact ⟨rfl, rfl⟩
  · intro i j p q hp hq hplife hqlife hpid
    rcases hnew i p hp with hp | ⟨hi, rfl⟩
    · rcases hnew j q hq with hq | ⟨_, rfl⟩
      · exact h.distinct i j p q hp hq hplife hqlife hpid
      · exact absurd hpid (hother i p hp hplife)
    · rcases hnew j q hq with hq | ⟨hj, _⟩
      · exact absurd hpid.symm (hother j q hq hqlife)
      · rw [hi, hj]

/-- Among workers, nobody else inside has the `ngx_pid` of a process that is not
reaped. -/
theorem Workers.nobody {s : Mutex} (h : Workers s) {i : Nat} {p : Proc}
    (hp : s.procs[i]? = some p) (hlife : p.life ≠ .reaped) (houtside : p.inside = false) :
    s.nobody p.pid = true := by
  apply List.all_eq_true.mpr
  intro q hq
  rw [bne_iff_ne]
  intro htag
  unfold Proc.tag at htag
  split at htag
  next hin =>
    simp only [Bool.and_eq_true, bne_iff_ne] at hin
    obtain ⟨j, hj⟩ := List.mem_iff_getElem?.mp hq
    have hpid : q.pid = p.pid := (h.spawned q hq).2.symm.trans (Option.some.inj htag)
    have hji := h.distinct j i q p hj hp hin.2 hlife hpid
    rw [hji, hp] at hj
    obtain rfl := Option.some.inj hj
    rw [houtside] at hin
    cases hin.1
  next => cases htag

/-- A step without a fork keeps workers workers. -/
theorem Workers.step {s t : Mutex} (h : Workers s) {event : MutexEvent} (hfork : NoFork s event)
    (hstep : mutexStep s event = some t) : Workers t := by
  cases event with
  | spawn pid =>
      simp only [mutexStep, Option.ite_none_right_eq_some, Option.some.injEq] at hstep
      obtain ⟨hunused, rfl⟩ := hstep
      exact h.append hunused
  | run i event =>
      cases hp : s.procs[i]? with
      | none => simp [mutexStep, hp] at hstep
      | some p =>
          simp only [mutexStep, hp, Option.ite_none_right_eq_some] at hstep
          have hnot : ∀ pid, event ≠ .fork pid := by
            rintro pid rfl
            exact hfork
          obtain ⟨p', hprocs, hsame⟩ := procStep_procs hp hnot hstep.2
          exact h.set hp hprocs (by simp [hstep.1]) hsame
  | reap i =>
      cases hp : s.procs[i]? with
      | none => simp [mutexStep, hp] at hstep
      | some p =>
          simp only [mutexStep, hp, Option.ite_none_right_eq_some, Option.some.injEq] at hstep
          obtain ⟨hlife, rfl⟩ := hstep
          have hprocs : (Toxic.reap i p s).procs = s.procs.set i { p with life := .reaped } := by
            unfold Toxic.reap
            dsimp only
            split
            · rfl
            · rfl
          exact h.set hp hprocs (by simp [hlife]) ⟨rfl, rfl, rfl⟩

/-- Workers meet the condition. -/
theorem Workers.ownUnlock {s t : Mutex} (h : Workers s) {event : MutexEvent}
    (hstep : mutexStep s event = some t) : OwnUnlock s event := by
  have hown : ∀ (i : Nat) (p : Proc), s.procs[i]? = some p → p.life = .alive → p.inside = false →
      s.nobody p.ngxPid = true := by
    intro i p hp hlife houtside
    rw [(h.spawned p (List.mem_of_getElem? hp)).2]
    exact h.nobody hp (by simp [hlife]) houtside
  have halive : ∀ (i : Nat) (event : ProcEvent) (p : Proc),
      mutexStep s (.run i event) = some t → s.procs[i]? = some p → p.life = .alive := by
    intro i event p hstep hp
    simp only [mutexStep, hp, Option.ite_none_right_eq_some] at hstep
    exact hstep.1
  unfold OwnUnlock
  split
  next i => exact fun p hp _ houtside => hown i p hp (halive i _ p hstep hp) houtside
  next i => exact fun p hp _ houtside => hown i p hp (halive i _ p hstep hp) houtside
  next i =>
    constructor
    · intro p hp _
      obtain ⟨hparent, hown⟩ := h.spawned p (List.mem_of_getElem? hp)
      exact ⟨hown, by simp [Mutex.reaps, hparent]⟩
    · intro q hq _ _
      rw [(h.spawned q hq).1]
      simp
  next i =>
    intro p hp houtside _
    simp only [mutexStep, show s.procs[i]? = some p from hp, Option.ite_none_right_eq_some] at hstep
    exact h.nobody hp (by simp [hstep.1]) houtside
  next => trivial

/-- **Without a toxic child** the accept mutex is safe in every run. -/
theorem mutexSafe_of_workers {events : List MutexEvent} {t : Mutex}
    (hrun : GuardedRun mutexStep NoFork Mutex.start events t) : MutexSafe t := by
  have hstart : Workers Mutex.start := ⟨fun p hp => (nomatch hp), fun i j p q hp => (nomatch hp)⟩
  have hguarded : GuardedRun mutexStep OwnUnlock Mutex.start events t := by
    refine hrun.reguard ?_ ?_ hstart
    · exact fun s event t h hfork hstep => h.step hfork hstep
    · exact fun s event t h _ hstep => h.ownUnlock hstep
  exact (locked_of_guarded hguarded).safe

end Toxic
