import Mathlib.Data.List.Nodup
import Mathlib.Logic.Function.Basic
import ToxicNginx.InterestList
import ToxicNginx.SlotTable
import ToxicNginx.StepSystem

/-!
# One epoll set for a worker and its children

A worker creates its epoll instance before it serves requests, so that the
children of its toxic requests watch the same set, under the same addresses of
the connection objects.  A registration belongs to an open file and a number and
goes away by `EPOLL_CTL_DEL` or with the last descriptor of the file; a close in
one process leaves it as long as another process has the file.

* `EventProc`, `EpollState`, `epollStep` — the processes of a family, the set and
  the events each of them has still to look at;
* `epollAddEvent`, `epollDelEvent`, `toggleRound`, `readEvent`, `writeEvent` —
  the functions of the event modules;
* `EpollSafe` — an active read event is registered, and a handler runs for the
  file its object owns;
* `EpollOk` — the steps that keep apart what the processes share;
* `EpollInv`, `EpollInv.step` — the invariant, and that these steps keep it;
* `epollSafe_of_guarded` — the property in every such run;
* `toxicClose_unsafe`, `shared_epoll_unsafe` — what happens without.
-/

namespace Toxic

open StepSystem SlotTable InterestList

/-- A connection object: `fd` is `none` for `-1`; `instanceBit` is that of both
its events. -/
structure EventConn where
  fd : Option Nat
  instanceBit : Bool
  readActive : Bool
  writeActive : Bool
  listening : Bool
  deriving DecidableEq, Repr

/-- One of its events is active. -/
def EventConn.watched (conn : EventConn) : Bool := conn.readActive || conn.writeActive

/-- What the kernel hands back with an event: the address of the object with its
instance bit, and what is watched for. -/
structure EpollData where
  conn : Nat
  instanceBit : Bool
  input : Bool
  output : Bool
  deriving DecidableEq, Repr

/-- The epoll set: a registration is known by its open file and its number. -/
abbrev EpollSet := List ((Nat × Nat) × EpollData)

/-- An entry of `event_list` that is still to be looked at, and the open file that
has produced it; `readDone` says that its first half is done. -/
structure ListedEvent where
  conn : Nat
  instanceBit : Bool
  input : Bool
  output : Bool
  origin : Nat
  readDone : Bool
  deriving DecidableEq, Repr

/-- An event in `ngx_posted_accept_events` or `ngx_posted_events`. -/
structure PostedEvent where
  conn : Nat
  write : Bool
  accept : Bool
  origin : Nat
  deriving DecidableEq, Repr

/-- A process: the kernel's table from numbers to open files, the connection
objects, the free ones, `event_list`, what is posted, and the listening objects
that `ngx_enable_accept_events` (`true`) or `ngx_disable_accept_events` has still
to go through. -/
structure EventProc where
  alive : Bool
  table : List (Option Nat)
  conn : Nat → EventConn
  freeConnections : List Nat
  events : List ListedEvent
  posted : List PostedEvent
  toggling : Bool × List Nat

/-- A handler that was run: by which process, for which object, on an event of
which open file, and the file the object owned then. -/
structure HandlerRun where
  proc : Nat
  conn : Nat
  origin : Nat
  owner : Option Nat
  deriving DecidableEq, Repr

/-- The family: the processes in the order of their forks, the epoll set, the
number of open files so far, `connection_n`, the objects of `cycle->listening`,
and the handlers that were run. -/
structure EpollState where
  procs : List EventProc
  interest : EpollSet
  files : Nat
  connectionN : Nat
  listening : List Nat
  runs : List HandlerRun

/-- An event that `epoll_wait` returns: the registration, and whether there is
input, room for output, or an error. -/
structure Pick where
  file : Nat
  fd : Nat
  input : Bool
  output : Bool
  error : Bool
  deriving DecidableEq, Repr

/-- What a process does next. -/
inductive EpollAct
  /-- `ngx_event_accept` on the listening object `l`. -/
  | accept (p l : Nat)
  /-- `ngx_handle_read_event` or `ngx_handle_write_event` adds an event. -/
  | addEvent (p c : Nat) (write : Bool)
  | enableAccept (p : Nat)
  | disableAccept (p : Nat)
  /-- One round of the loop of these two. -/
  | toggle (p : Nat)
  /-- `ngx_close_connection`. -/
  | closeConnection (p c : Nat)
  /-- `close(r->connection->fd)` in `toxic_post_body_handler`. -/
  | toxicClose (p c : Nat)
  | fork (p : Nat)
  | exit (p : Nat)
  /-- `epoll_wait`. -/
  | wait (p : Nat) (picks : List Pick)
  /-- The two halves of the loop of `ngx_epoll_process_events`; `post` says
  whether `NGX_POST_EVENTS` is set. -/
  | readEvent (p : Nat) (post : Bool)
  | writeEvent (p : Nat) (post : Bool)
  /-- The next event in `ngx_event_process_posted`. -/
  | runPosted (p : Nat)
  deriving DecidableEq, Repr

/-- The open file that an object owns. -/
def EventProc.owner (proc : EventProc) (c : Nat) : Option Nat :=
  (proc.conn c).fd.bind (slot proc.table)

/-- An object of the process changes. -/
def EventProc.setConn (proc : EventProc) (c : Nat) (conn : EventConn) : EventProc :=
  { proc with conn := Function.update proc.conn c conn }

/-- The process is alive and in no loop over the listening objects. -/
def EventProc.idle (proc : EventProc) : Bool := proc.alive && proc.toggling.2.isEmpty

/-- `accept` and `ngx_get_connection` for the object `c`. -/
def EventProc.getConnection (proc : EventProc) (file c : Nat) (rest : List Nat) : EventProc :=
  { proc with
    table := alloc file proc.table
    conn := Function.update proc.conn c
      ⟨some (lowestFree proc.table), !(proc.conn c).instanceBit, false, false, false⟩
    freeConnections := rest }

/-- An event of an object becomes active or not. -/
def EventConn.setActive (conn : EventConn) (write active : Bool) : EventConn :=
  if write then { conn with writeActive := active } else { conn with readActive := active }

/-- `ngx_epoll_add_event`: the epoll set, `none` when `epoll_ctl` fails. -/
def epollAddEvent (proc : EventProc) (c : Nat) (write : Bool) (interest : EpollSet) :
    Option EpollSet :=
  let conn := proc.conn c
  match conn.fd, proc.owner c with
  | some fd, some file =>
      -- the other event of the object
      let e := if write then conn.readActive else conn.writeActive
      let data : EpollData := ⟨c, conn.instanceBit, !write || e, write || e⟩
      if e then ctlMod (file, fd) data interest else ctlAdd (file, fd) data interest
  | _, _ => none

/-- `ngx_epoll_del_event` without `NGX_CLOSE_EVENT`. -/
def epollDelEvent (proc : EventProc) (c : Nat) (write : Bool) (interest : EpollSet) :
    Option EpollSet :=
  let conn := proc.conn c
  match conn.fd, proc.owner c with
  | some fd, some file =>
      let e := if write then conn.readActive else conn.writeActive
      if e then ctlMod (file, fd) ⟨c, conn.instanceBit, write, !write⟩ interest
      else ctlDel (file, fd) interest
  | _, _ => none

/-- A process changes. -/
def EpollState.setProc (s : EpollState) (p : Nat) (proc : EventProc) : EpollState :=
  { s with procs := s.procs.set p proc }

/-- Some process has the open file. -/
def EpollState.held (s : EpollState) (file : Nat) : Bool :=
  s.procs.any fun proc => proc.table.any (· == some file)

/-- The kernel drops the registrations of the files that no process has. -/
def EpollState.dropUnheld (s : EpollState) : EpollState :=
  { s with interest := retain (fun key => s.held key.1) s.interest }

/-- A round of `ngx_enable_accept_events` or `ngx_disable_accept_events`; both
return when `epoll_ctl` fails. -/
def toggleRound (s : EpollState) (p : Nat) (proc : EventProc) : Option EpollState :=
  match proc.toggling with
  | (_, []) => none
  | (enable, c :: rest) =>
      let next := { proc with toggling := (enable, rest) }
      if (proc.conn c).readActive = enable then some (s.setProc p next)
      else
        let interest :=
          if enable then epollAddEvent proc c false s.interest
          else epollDelEvent proc c false s.interest
        match interest with
        | none => some (s.setProc p { proc with toggling := (enable, []) })
        | some interest =>
            some { s.setProc p (next.setConn c ((proc.conn c).setActive false enable)) with
              interest := interest }

/-- `ngx_close_connection`, for an object with the number `fd`. -/
def EventProc.closeConnection (proc : EventProc) (c fd : Nat) : EventProc :=
  { proc with
    table := release fd proc.table
    conn := Function.update proc.conn c
      { proc.conn c with fd := none, readActive := false, writeActive := false }
    freeConnections := c :: proc.freeConnections
    posted := proc.posted.filter fun e => e.conn ≠ c }

/-- A handler is run, or its event is posted unless it is already. -/
def EpollState.handle (s : EpollState) (p : Nat) (proc : EventProc) (c : Nat) (write post : Bool)
    (origin : Nat) : EpollState :=
  if post then
    if proc.posted.any fun e => e.conn == c && e.write == write then s.setProc p proc
    else
      s.setProc p { proc with
        posted := ⟨c, write, !write && (proc.conn c).listening, origin⟩ :: proc.posted }
  else { s.setProc p proc with runs := s.runs ++ [⟨p, c, origin, proc.owner c⟩] }

/-- The stale event from a file descriptor that was just closed in this
iteration. -/
def EventProc.stale (proc : EventProc) (e : ListedEvent) : Bool :=
  (proc.conn e.conn).fd == none || (proc.conn e.conn).instanceBit != e.instanceBit

/-- The first half of the loop of `ngx_epoll_process_events`. -/
def readEvent (s : EpollState) (p : Nat) (proc : EventProc) (post : Bool) : Option EpollState :=
  match proc.events with
  | [] => none
  | e :: rest =>
      if e.readDone then none
      else if proc.stale e then some (s.setProc p { proc with events := rest })
      else
        let next := { proc with events := { e with readDone := true } :: rest }
        if e.input && (proc.conn e.conn).readActive then
          some (s.handle p next e.conn false post e.origin)
        else some (s.setProc p next)

/-- The second half. -/
def writeEvent (s : EpollState) (p : Nat) (proc : EventProc) (post : Bool) : Option EpollState :=
  match proc.events with
  | [] => none
  | e :: rest =>
      if !e.readDone then none
      else
        let next := { proc with events := rest }
        if e.output && (proc.conn e.conn).writeActive && !proc.stale e then
          some (s.handle p next e.conn true post e.origin)
        else some (s.setProc p next)

/-- The event `epoll_wait` returns for a registration, with the flags that are
added when there is an error alone. -/
def EpollSet.listed (interest : EpollSet) (pick : Pick) : Option ListedEvent :=
  (interest.find? fun e => e.1 == (pick.file, pick.fd)).bind fun e =>
    if pick.input && !e.2.input || pick.output && !e.2.output then none
    else
      let alone := pick.error && !pick.input && !pick.output
      some ⟨e.2.conn, e.2.instanceBit, pick.input || alone, pick.output || alone, pick.file, false⟩

/-- What is run next: the accept events come first. -/
def EventProc.nextPosted (proc : EventProc) : Option PostedEvent :=
  (proc.posted.find? (·.accept)).or proc.posted.head?

/-- One step. -/
def epollStep (s : EpollState) : EpollAct → Option EpollState
  | .accept p l => do
      let proc ← s.procs[p]?
      if proc.idle && (proc.conn l).listening then
        match proc.freeConnections with
        | [] => some s -- the new socket is closed again
        | c :: rest =>
            some { s.setProc p (proc.getConnection s.files c rest) with files := s.files + 1 }
      else none
  | .addEvent p c write => do
      let proc ← s.procs[p]?
      let active := if write then (proc.conn c).writeActive else (proc.conn c).readActive
      if proc.idle && (proc.conn c).fd.isSome && !(proc.conn c).listening && !active then
        match epollAddEvent proc c write s.interest with
        | none => some s
        | some interest =>
            some { s.setProc p (proc.setConn c ((proc.conn c).setActive write true)) with
              interest := interest }
      else none
  | .enableAccept p => do
      let proc ← s.procs[p]?
      if proc.idle then some (s.setProc p { proc with toggling := (true, s.listening) }) else none
  | .disableAccept p => do
      let proc ← s.procs[p]?
      if proc.idle then some (s.setProc p { proc with toggling := (false, s.listening) }) else none
  | .toggle p => do
      let proc ← s.procs[p]?
      toggleRound s p proc
  | .closeConnection p c => do
      let proc ← s.procs[p]?
      if proc.idle && !(proc.conn c).listening then
        match (proc.conn c).fd with
        | none => some s
        | some fd => some (s.setProc p (proc.closeConnection c fd)).dropUnheld
      else none
  | .toxicClose p c => do
      let proc ← s.procs[p]?
      if proc.idle && !(proc.conn c).listening then
        match (proc.conn c).fd with
        | none => none
        | some fd => some (s.setProc p { proc with table := release fd proc.table }).dropUnheld
      else none
  | .fork p => do
      let proc ← s.procs[p]?
      if proc.idle then some { s with procs := s.procs ++ [proc] } else none
  | .exit p => do
      let proc ← s.procs[p]?
      if proc.idle then
        some (s.setProc p
          ⟨false, [], fun _ => ⟨none, false, false, false, false⟩, [], [], [], (false, [])⟩).dropUnheld
      else none
  | .wait p picks => do
      let proc ← s.procs[p]?
      if proc.idle && proc.events.isEmpty && proc.posted.isEmpty &&
          (picks.map fun pick => (pick.file, pick.fd)).Nodup then
        let events ← picks.mapM (EpollSet.listed s.interest)
        some (s.setProc p { proc with events := events })
      else none
  | .readEvent p post => do
      let proc ← s.procs[p]?
      if proc.idle then readEvent s p proc post else none
  | .writeEvent p post => do
      let proc ← s.procs[p]?
      if proc.idle then writeEvent s p proc post else none
  | .runPosted p => do
      let proc ← s.procs[p]?
      if proc.idle && proc.events.isEmpty then
        let e ← proc.nextPosted
        some (s.handle p { proc with posted := proc.posted.erase e } e.conn e.write false e.origin)
      else none

/-- The number of an object is registered for the file it owns. -/
def EventProc.RegisteredIn (proc : EventProc) (interest : EpollSet) (c : Nat) : Prop :=
  ∃ fd file, (proc.conn c).fd = some fd ∧ proc.owner c = some file ∧
    Registered interest (file, fd)

/-- What must hold of a family in every state: an active read event of an object
is registered, and every handler was run for an object that owned the file the
event came from. -/
structure EpollSafe (s : EpollState) : Prop where
  registered : ∀ proc ∈ s.procs, ∀ c, (proc.conn c).readActive = true →
    proc.RegisteredIn s.interest c
  handled : ∀ run ∈ s.runs, run.owner = some run.origin

/-- The address and the instance bit of the object `c`, which are given to the
kernel, stand for the file of the object wherever they are found: in the set, in
the rest of `event_list`, and in the other processes. -/
def TagFree (s : EpollState) (proc : EventProc) (c : Nat) : Prop :=
  ∀ file ∈ proc.owner c,
    (∀ e ∈ s.interest, e.2.conn = c → e.2.instanceBit = (proc.conn c).instanceBit →
      e.1.1 = file) ∧
    (∀ e ∈ proc.events, e.conn = c → e.instanceBit = (proc.conn c).instanceBit →
      e.origin = file) ∧
    ∀ other ∈ s.procs, (other.conn c).watched = true →
      (other.conn c).instanceBit = (proc.conn c).instanceBit → other.owner c = some file

/-- No other object that listens or has an active event, in the same process, has
the number of the object `c`. -/
def OwnNumber (n : Nat) (proc : EventProc) (c : Nat) : Prop :=
  ∀ d < n, d ≠ c → ((proc.conn d).listening || (proc.conn d).watched) = true →
    (proc.conn d).fd ≠ (proc.conn c).fd

/-- The object `d` of a process has an active event under the registration of the
object `c` of another one. -/
def EventProc.Shares (other : EventProc) (d : Nat) (proc : EventProc) (c : Nat) : Prop :=
  (other.conn d).watched = true ∧ other.owner d = proc.owner c ∧
    (other.conn d).fd = (proc.conn c).fd

instance (other : EventProc) (d : Nat) (proc : EventProc) (c : Nat) :
    Decidable (other.Shares d proc c) := inferInstanceAs (Decidable (_ ∧ _))

/-- No other object, in any process, has an active event under the registration of
the object `c`. -/
def LastWatcher (s : EpollState) (p : Nat) (proc : EventProc) (c : Nat) : Prop :=
  ∀ q < s.procs.length, ∀ other ∈ s.procs[q]?, ∀ d < s.connectionN,
    other.Shares d proc c → (q, d) = (p, c)

/-- A round that registers a listening object, or takes its registration away. -/
def ToggleOk (s : EpollState) (p : Nat) (proc : EventProc) : Prop :=
  ∀ c ∈ proc.toggling.2.head?,
    if proc.toggling.1 then (proc.conn c).readActive = false → TagFree s proc c
    else (proc.conn c).readActive = true → LastWatcher s p proc c

/-- The steps that keep the processes apart: an event is added when its tag is
free; accept events are disabled when nobody else has them active; a number that
is closed is no other object's, and `toxic_post_body_handler` closes none with an
active event. -/
def EpollOk (s : EpollState) : EpollAct → Prop
  | .addEvent p c _ => ∀ proc ∈ s.procs[p]?, TagFree s proc c
  | .toggle p => ∀ proc ∈ s.procs[p]?, ToggleOk s p proc
  | .closeConnection p c => ∀ proc ∈ s.procs[p]?, OwnNumber s.connectionN proc c
  | .toxicClose p c => ∀ proc ∈ s.procs[p]?,
      OwnNumber s.connectionN proc c ∧ (proc.conn c).watched = false
  | _ => True

instance (s : EpollState) (proc : EventProc) (c : Nat) : Decidable (TagFree s proc c) := by
  unfold TagFree
  infer_instance

instance (n : Nat) (proc : EventProc) (c : Nat) : Decidable (OwnNumber n proc c) := by
  unfold OwnNumber
  infer_instance

instance (s : EpollState) (p : Nat) (proc : EventProc) (c : Nat) :
    Decidable (LastWatcher s p proc c) := by
  unfold LastWatcher
  infer_instance

instance (s : EpollState) (p : Nat) (proc : EventProc) : Decidable (ToggleOk s p proc) := by
  unfold ToggleOk
  infer_instance

instance (s : EpollState) (a : EpollAct) : Decidable (EpollOk s a) := by
  cases a <;> unfold EpollOk <;> infer_instance

/-- The family when a worker enters its cycle: one listening object for each number
from 0 on, which nothing watches yet, and the other objects free. -/
def EpollState.start (listeners connections : Nat) : EpollState where
  procs := [{
    alive := true
    table := (List.range listeners).map some
    conn := fun c =>
      if c < listeners then ⟨some c, false, false, false, true⟩
      else ⟨none, true, false, false, false⟩
    freeConnections := (List.range connections).map (listeners + ·)
    events := []
    posted := []
    toggling := (false, []) }]
  interest := []
  files := listeners
  connectionN := listeners + connections
  listening := List.range listeners
  runs := []

/-- The invariant of one process beside the set. -/
structure ProcInv (interest : EpollSet) (n : Nat) (listening : List Nat) (proc : EventProc) :
    Prop where
  bounded : ∀ c, (proc.conn c).fd.isSome = true → c < n
  free : ∀ c ∈ proc.freeConnections, c < n ∧ (proc.conn c).fd = none
  nodup : proc.freeConnections.Nodup
  listens : ∀ c, (proc.conn c).listening = true →
    (proc.conn c).writeActive = false ∧ (proc.owner c).isSome = true
  roots : proc.alive = true → ∀ c ∈ listening, (proc.conn c).listening = true
  toggles : ∀ c ∈ proc.toggling.2, (proc.conn c).listening = true
  watched : ∀ c, (proc.conn c).watched = true → proc.RegisteredIn interest c
  tags : ∀ e ∈ interest, (proc.conn e.2.conn).watched = true →
    (proc.conn e.2.conn).instanceBit = e.2.instanceBit → proc.owner e.2.conn = some e.1.1
  events : ∀ e ∈ proc.events, (proc.conn e.conn).watched = true →
    (proc.conn e.conn).instanceBit = e.instanceBit → proc.owner e.conn = some e.origin
  posted : ∀ e ∈ proc.posted, proc.owner e.conn = some e.origin ∧
    ((proc.conn e.conn).listening || (proc.conn e.conn).watched) = true

/-- The invariant of the family. -/
structure EpollInv (s : EpollState) : Prop where
  procs : ∀ proc ∈ s.procs, ProcInv s.interest s.connectionN s.listening proc
  runs : ∀ run ∈ s.runs, run.owner = some run.origin

/-- The invariant is what is asked for. -/
theorem EpollInv.safe {s : EpollState} (h : EpollInv s) : EpollSafe s where
  registered := by
    intro proc hproc c hactive
    exact (h.procs proc hproc).watched c (by simp [EventConn.watched, hactive])
  handled := h.runs

/-- The invariant holds when the worker enters its cycle. -/
theorem epollInv_start (listeners connections : Nat) :
    EpollInv (EpollState.start listeners connections) := by
  refine ⟨fun proc hproc => ?_, by simp [EpollState.start]⟩
  obtain rfl := List.mem_singleton.mp hproc
  have hlisten : ∀ c, (if c < listeners then (⟨some c, false, false, false, true⟩ : EventConn)
      else ⟨none, true, false, false, false⟩).watched = false := by
    intro c
    split
    next => rfl
    next => rfl
  constructor
  · intro c hc
    dsimp only at hc
    split at hc
    next hlt => exact Nat.lt_of_lt_of_le hlt (Nat.le_add_right _ _)
    next => cases hc
  · intro c hc
    obtain ⟨i, hi, rfl⟩ := List.mem_map.mp hc
    have hlt := List.mem_range.mp hi
    have hnot : ¬ listeners + i < listeners := by omega
    dsimp only
    rw [if_neg hnot]
    exact ⟨Nat.add_lt_add_left hlt _, rfl⟩
  · exact List.Nodup.map (fun a b h => Nat.add_left_cancel h) List.nodup_range
  · intro c hc
    dsimp only at hc
    split at hc
    next hlt =>
      have hslot : slot ((List.range listeners).map some) c = some c := by
        unfold slot
        rw [List.getElem?_map, List.getElem?_range hlt]
        rfl
      unfold EventProc.owner
      dsimp only
      rw [if_pos hlt]
      exact ⟨rfl, by rw [Option.bind_some, hslot]; rfl⟩
    next => cases hc
  · intro _ c hc
    have hlt := List.mem_range.mp hc
    dsimp only
    rw [if_pos hlt]
  · intro c hc
    cases hc
  · intro c hc
    rw [hlisten c] at hc
    cases hc
  · intro e he
    cases he
  · intro e he
    cases he
  · intro e he
    cases he

/-- What an object owns. -/
theorem owner_eq_some {proc : EventProc} {c file : Nat} :
    proc.owner c = some file ↔
      ∃ fd, (proc.conn c).fd = some fd ∧ slot proc.table fd = some file :=
  Option.bind_eq_some_iff

/-- The processes after one has changed. -/
theorem mem_setProc {s : EpollState} {p : Nat} {next other : EventProc}
    (h : other ∈ (s.setProc p next).procs) :
    other = next ∨ ∃ q, q ≠ p ∧ s.procs[q]? = some other := by
  obtain ⟨q, hq⟩ := List.mem_iff_getElem?.mp h
  unfold EpollState.setProc at hq
  by_cases heq : p = q
  · subst heq
    rw [List.getElem?_set_self'] at hq
    obtain ⟨_, _, rfl⟩ := Option.map_eq_some_iff.mp hq
    exact Or.inl rfl
  · rw [List.getElem?_set_ne heq] at hq
    exact Or.inr ⟨q, Ne.symm heq, hq⟩

/-- A process that does not change, beside another set: its own registrations are
still there, and what is new is registered for the right file. -/
theorem ProcInv.beside {interest m : EpollSet} {n : Nat} {listening : List Nat} {proc : EventProc}
    (h : ProcInv interest n listening proc)
    (hkept : ∀ c, (proc.conn c).watched = true → proc.RegisteredIn interest c →
      proc.RegisteredIn m c)
    (hnew : ∀ e ∈ m, e ∈ interest ∨ ((proc.conn e.2.conn).watched = true →
      (proc.conn e.2.conn).instanceBit = e.2.instanceBit →
        proc.owner e.2.conn = some e.1.1)) :
    ProcInv m n listening proc where
  bounded := h.bounded
  free := h.free
  nodup := h.nodup
  listens := h.listens
  roots := h.roots
  toggles := h.toggles
  watched := fun c hc => hkept c hc (h.watched c hc)
  tags := by
    intro e he hwatched hbit
    rcases hnew e he with hold | hown
    · exact h.tags e hold hwatched hbit
    · exact hown hwatched hbit
  events := h.events
  posted := h.posted

/-- A process changes, and the set with it. -/
theorem EpollInv.setProc {s : EpollState} (h : EpollInv s) {p : Nat} {next : EventProc}
    {m : EpollSet} (hnext : ProcInv m s.connectionN s.listening next)
    (hothers : ∀ q other, q ≠ p → s.procs[q]? = some other →
      ProcInv m s.connectionN s.listening other) :
    EpollInv { s.setProc p next with interest := m } where
  procs := by
    intro other hother
    rcases mem_setProc hother with rfl | ⟨q, hq, hmem⟩
    · exact hnext
    · exact hothers q other hq hmem
  runs := h.runs

/-- A process changes alone. -/
theorem EpollInv.local {s : EpollState} (h : EpollInv s) {p : Nat} {next : EventProc}
    (hnext : ProcInv s.interest s.connectionN s.listening next) : EpollInv (s.setProc p next) :=
  h.setProc hnext fun _ other _ hother => h.procs other (List.mem_of_getElem? hother)

/-- **The kernel drops only what nobody has.** -/
theorem EpollInv.dropUnheld {s : EpollState} (h : EpollInv s) : EpollInv s.dropUnheld where
  procs := by
    intro proc hproc
    refine (h.procs proc hproc).beside ?_ fun e he => Or.inl (List.mem_filter.mp he).1
    rintro c - ⟨fd, file, hfd, howner, hregistered⟩
    have hkept : s.held file = true → Registered s.dropUnheld.interest (file, fd) := fun hheld =>
      (registered_retain (p := fun key : Nat × Nat => s.held key.1)).mpr ⟨hregistered, hheld⟩
    refine ⟨fd, file, hfd, howner, hkept ?_⟩
    obtain ⟨fd', -, hslot⟩ := owner_eq_some.mp howner
    unfold EpollState.held
    refine List.any_eq_true.mpr ⟨proc, hproc, List.any_eq_true.mpr ⟨some file, ?_, by simp⟩⟩
    exact List.mem_of_getElem? (Option.join_eq_some_iff.mp hslot)
  runs := h.runs

@[simp] theorem setActive_fd (conn : EventConn) (write active : Bool) :
    (conn.setActive write active).fd = conn.fd := by
  cases write <;> rfl

@[simp] theorem setActive_instanceBit (conn : EventConn) (write active : Bool) :
    (conn.setActive write active).instanceBit = conn.instanceBit := by
  cases write <;> rfl

@[simp] theorem setActive_listening (conn : EventConn) (write active : Bool) :
    (conn.setActive write active).listening = conn.listening := by
  cases write <;> rfl

/-- Activating an event changes no number. -/
theorem conn_setActive (proc : EventProc) (c d : Nat) (write active : Bool) :
    (((proc.setConn c ((proc.conn c).setActive write active)).conn d).fd = (proc.conn d).fd) ∧
      ((proc.setConn c ((proc.conn c).setActive write active)).conn d).instanceBit
        = (proc.conn d).instanceBit ∧
      ((proc.setConn c ((proc.conn c).setActive write active)).conn d).listening
        = (proc.conn d).listening := by
  unfold EventProc.setConn
  dsimp only
  by_cases hd : d = c
  · subst hd
    rw [Function.update_self]
    exact ⟨setActive_fd _ _ _, setActive_instanceBit _ _ _, setActive_listening _ _ _⟩
  · rw [Function.update_of_ne hd]
    exact ⟨rfl, rfl, rfl⟩

/-- Nor what an object owns. -/
theorem owner_setActive (proc : EventProc) (c d : Nat) (write active : Bool) :
    (proc.setConn c ((proc.conn c).setActive write active)).owner d = proc.owner d := by
  have hfd := (conn_setActive proc c d write active).1
  unfold EventProc.owner
  rw [hfd]
  rfl

/-- What an addition does to the set. -/
theorem epollAddEvent_spec {proc : EventProc} {c : Nat} {write : Bool} {interest m : EpollSet}
    (h : epollAddEvent proc c write interest = some m) :
    ∃ fd file, (proc.conn c).fd = some fd ∧ proc.owner c = some file ∧
      Registered m (file, fd) ∧ (∀ key, Registered interest key → Registered m key) ∧
      ∀ e ∈ m, e ∈ interest ∨ e.1 = (file, fd) ∧ e.2.conn = c ∧
        e.2.instanceBit = (proc.conn c).instanceBit := by
  unfold epollAddEvent at h
  cases hfd : (proc.conn c).fd with
  | none => simp [hfd] at h
  | some fd =>
      cases howner : proc.owner c with
      | none => simp [howner] at h
      | some file =>
          refine ⟨fd, file, rfl, rfl, ?_⟩
          simp only [hfd, howner] at h
          generalize (if write = true then (proc.conn c).readActive
            else (proc.conn c).writeActive) = other at h
          cases other with
          | true =>
              rw [if_pos rfl] at h
              refine ⟨(registered_mod h).mpr (registered_of_mod h),
                fun key => (registered_mod h).mpr, fun e he => ?_⟩
              rcases mem_mod h he with rfl | hold
              · exact Or.inr ⟨rfl, rfl, rfl⟩
              · exact Or.inl hold
          | false =>
              rw [if_neg Bool.false_ne_true] at h
              refine ⟨(registered_add h).mpr (Or.inl rfl),
                fun key hkey => (registered_add h).mpr (Or.inr hkey), fun e he => ?_⟩
              rcases mem_add h he with rfl | hold
              · exact Or.inr ⟨rfl, rfl, rfl⟩
              · exact Or.inl hold

/-- What a removal does to the set, where the other event is not active. -/
theorem epollDelEvent_spec {proc : EventProc} {c : Nat} {interest m : EpollSet}
    (h : epollDelEvent proc c false interest = some m)
    (hother : (proc.conn c).writeActive = false) :
    ∃ fd file, (proc.conn c).fd = some fd ∧ proc.owner c = some file ∧
      (∀ key, Registered m key ↔ Registered interest key ∧ key ≠ (file, fd)) ∧
      ∀ e ∈ m, e ∈ interest := by
  unfold epollDelEvent at h
  cases hfd : (proc.conn c).fd with
  | none => simp [hfd] at h
  | some fd =>
      cases howner : proc.owner c with
      | none => simp [howner] at h
      | some file =>
          simp only [hfd, howner, hother, Bool.false_eq_true, if_false] at h
          exact ⟨fd, file, rfl, rfl, fun key => registered_del h, fun e he => mem_del h he⟩

/-- An object after one of its events has become active or not, and the others. -/
theorem setActive_cases (proc : EventProc) (c d : Nat) (write active : Bool) :
    d = c ∧ (proc.setConn c ((proc.conn c).setActive write active)).conn d
        = (proc.conn c).setActive write active ∨
      d ≠ c ∧ (proc.setConn c ((proc.conn c).setActive write active)).conn d = proc.conn d := by
  by_cases hd : d = c
  · subst hd
    exact Or.inl ⟨rfl, Function.update_self _ _ _⟩
  · exact Or.inr ⟨hd, Function.update_of_ne hd _ _⟩

/-- **An event becomes active or not**, beside another set: what is left to show is
that the active ones are registered and no tag is mistaken. -/
theorem ProcInv.setActive {interest m : EpollSet} {n : Nat} {listening : List Nat}
    {proc : EventProc} (h : ProcInv interest n listening proc) {c : Nat} {write active : Bool}
    (hlisten : (proc.conn c).listening = true →
      ((proc.conn c).setActive write active).writeActive = false)
    (hlive : ((proc.conn c).listening || ((proc.conn c).setActive write active).watched) = true)
    (hwatched : ∀ d, ((proc.setConn c ((proc.conn c).setActive write active)).conn d).watched
      = true → proc.RegisteredIn m d)
    (htags : ∀ e ∈ m,
      ((proc.setConn c ((proc.conn c).setActive write active)).conn e.2.conn).watched = true →
        (proc.conn e.2.conn).instanceBit = e.2.instanceBit →
          proc.owner e.2.conn = some e.1.1)
    (hevents : ∀ e ∈ proc.events,
      ((proc.setConn c ((proc.conn c).setActive write active)).conn e.conn).watched = true →
        (proc.conn e.conn).instanceBit = e.instanceBit →
          proc.owner e.conn = some e.origin) :
    ProcInv m n listening (proc.setConn c ((proc.conn c).setActive write active)) := by
  have hconn := fun d => conn_setActive proc c d write active
  have howners := fun d => owner_setActive proc c d write active
  constructor
  · intro d hd
    rw [(hconn d).1] at hd
    exact h.bounded d hd
  · intro d hd
    rw [(hconn d).1]
    exact h.free d hd
  · exact h.nodup
  · intro d hd
    rw [(hconn d).2.2] at hd
    rw [howners]
    obtain ⟨hinactive, hsome⟩ := h.listens d hd
    rcases setActive_cases proc c d write active with ⟨rfl, hself⟩ | ⟨-, hsame⟩
    · rw [hself]
      exact ⟨hlisten hd, hsome⟩
    · rw [hsame]
      exact ⟨hinactive, hsome⟩
  · intro halive d hd
    rw [(hconn d).2.2]
    exact h.roots halive d hd
  · intro d hd
    rw [(hconn d).2.2]
    exact h.toggles d hd
  · intro d hd
    obtain ⟨fd, file, hfd, howner, hkey⟩ := hwatched d hd
    exact ⟨fd, file, (hconn d).1.trans hfd, (howners d).trans howner, hkey⟩
  · intro e he hw hbit
    rw [(hconn e.2.conn).2.1] at hbit
    rw [howners]
    exact htags e he hw hbit
  · intro e he hw hbit
    rw [(hconn e.conn).2.1] at hbit
    rw [howners]
    exact hevents e he hw hbit
  · intro e he
    obtain ⟨hown, hbefore⟩ := h.posted e he
    rw [howners, (hconn e.conn).2.2]
    refine ⟨hown, ?_⟩
    rcases setActive_cases proc c e.conn write active with ⟨hc, hself⟩ | ⟨-, hsame⟩
    · rw [hself, hc]
      exact hlive
    · rw [hsame]
      exact hbefore

/-- **An event is added**: the process that adds it. -/
theorem ProcInv.add {s : EpollState} {proc : EventProc} {n : Nat} {listening : List Nat}
    (h : ProcInv s.interest n listening proc) {c : Nat} {write : Bool} {m : EpollSet}
    (hadd : epollAddEvent proc c write s.interest = some m) (htag : TagFree s proc c)
    (hwrite : (proc.conn c).listening = true → write = false) :
    ProcInv m n listening (proc.setConn c ((proc.conn c).setActive write true)) := by
  obtain ⟨fd, file, hfd, howner, hregistered, hkept, hmem⟩ := epollAddEvent_spec hadd
  obtain ⟨htags, hevents, -⟩ := htag file howner
  refine h.setActive ?_ ?_ (fun d hd => ?_) (fun e he hwatched hbit => ?_)
    fun e he hwatched hbit => ?_
  · intro hlisten
    rw [hwrite hlisten]
    exact (h.listens c hlisten).1
  · rw [Bool.or_eq_true]
    refine Or.inr ?_
    unfold EventConn.watched EventConn.setActive
    cases write with
    | true => simp
    | false => simp
  · rcases setActive_cases proc c d write true with ⟨rfl, -⟩ | ⟨-, hsame⟩
    · exact ⟨fd, file, hfd, howner, hregistered⟩
    · rw [hsame] at hd
      obtain ⟨fd', file', hfd', howner', hregistered'⟩ := h.watched d hd
      exact ⟨fd', file', hfd', howner', hkept _ hregistered'⟩
  · rcases hmem e he with hold | ⟨hkey, hc, -⟩
    · rcases setActive_cases proc c e.2.conn write true with ⟨hc, -⟩ | ⟨-, hsame⟩
      · rw [hc] at hbit ⊢
        rw [howner, htags e hold hc hbit.symm]
      · rw [hsame] at hwatched
        exact h.tags e hold hwatched hbit
    · rw [hc, howner, hkey]
  · rcases setActive_cases proc c e.conn write true with ⟨hc, -⟩ | ⟨-, hsame⟩
    · rw [hc] at hbit ⊢
      rw [howner, hevents e he hc hbit.symm]
    · rw [hsame] at hwatched
      exact h.events e he hwatched hbit

/-- **An event is added**: the processes beside it. -/
theorem ProcInv.addBeside {s : EpollState} {proc other : EventProc} {n : Nat}
    {listening : List Nat} (h : ProcInv s.interest n listening other) {c : Nat} {write : Bool}
    {m : EpollSet} (hadd : epollAddEvent proc c write s.interest = some m)
    (htag : TagFree s proc c) (hother : other ∈ s.procs) : ProcInv m n listening other := by
  obtain ⟨fd, file, -, howner, -, hkept, hmem⟩ := epollAddEvent_spec hadd
  obtain ⟨-, -, hothers⟩ := htag file howner
  refine h.beside ?_ fun e he => ?_
  · rintro d - ⟨fd', file', hfd', howner', hregistered⟩
    exact ⟨fd', file', hfd', howner', hkept _ hregistered⟩
  · rcases hmem e he with hold | ⟨hkey, hc, hbit⟩
    · exact Or.inl hold
    · refine Or.inr fun hwatched hsame => ?_
      rw [hc] at hwatched hsame ⊢
      rw [hbit] at hsame
      rw [hothers other hother hwatched hsame, hkey]

/-- A registration that is not taken away. -/
theorem registeredIn_del {proc other : EventProc} {c d fd file : Nat} {interest m : EpollSet}
    (hfd : (proc.conn c).fd = some fd) (howner : proc.owner c = some file)
    (hkeys : ∀ key, Registered m key ↔ Registered interest key ∧ key ≠ (file, fd))
    (hwatched : (other.conn d).watched = true) (hnot : ¬ other.Shares d proc c)
    (hregistered : other.RegisteredIn interest d) : other.RegisteredIn m d := by
  obtain ⟨fd', file', hfd', howner', hkey⟩ := hregistered
  refine ⟨fd', file', hfd', howner', (hkeys _).mpr ⟨hkey, fun heq => hnot ?_⟩⟩
  obtain ⟨rfl, rfl⟩ := Prod.mk.inj heq
  exact ⟨hwatched, howner'.trans howner.symm, hfd'.trans hfd.symm⟩

/-- **Accept events are disabled**: the process that does it. -/
theorem ProcInv.del {interest m : EpollSet} {n : Nat} {listening : List Nat} {proc : EventProc}
    (h : ProcInv interest n listening proc) {c : Nat} (hlisten : (proc.conn c).listening = true)
    (hdel : epollDelEvent proc c false interest = some m)
    (hlast : ∀ d < n, d ≠ c → ¬ proc.Shares d proc c) :
    ProcInv m n listening (proc.setConn c ((proc.conn c).setActive false false)) := by
  have hinactive := (h.listens c hlisten).1
  obtain ⟨fd, file, hfd, howner, hkeys, hmem⟩ := epollDelEvent_spec hdel hinactive
  -- the object itself is not watched any more
  have hother : ∀ d, ((proc.setConn c ((proc.conn c).setActive false false)).conn d).watched
      = true → d ≠ c ∧ (proc.conn d).watched = true := by
    intro d hd
    rcases setActive_cases proc c d false false with ⟨-, hself⟩ | ⟨hne, hsame⟩
    · rw [hself] at hd
      simp [EventConn.watched, EventConn.setActive, hinactive] at hd
    · rw [hsame] at hd
      exact ⟨hne, hd⟩
  refine h.setActive (fun _ => hinactive) (by rw [hlisten, Bool.true_or]) (fun d hd => ?_)
    (fun e he hwatched hbit => ?_) fun e he hwatched hbit => ?_
  · obtain ⟨hne, hd⟩ := hother d hd
    have hregistered := h.watched d hd
    obtain ⟨fd', _, hfd', _⟩ := hregistered
    have hlt := h.bounded d (by rw [hfd', Option.isSome_some])
    exact registeredIn_del hfd howner hkeys hd (hlast d hlt hne) (h.watched d hd)
  · exact h.tags e (hmem e he) (hother _ hwatched).2 hbit
  · exact h.events e he (hother _ hwatched).2 hbit

/-- **Accept events are disabled**: the processes beside it. -/
theorem ProcInv.delBeside {interest m : EpollSet} {n : Nat} {listening : List Nat}
    {proc other : EventProc} (h : ProcInv interest n listening other) {c : Nat}
    (hinactive : (proc.conn c).writeActive = false)
    (hdel : epollDelEvent proc c false interest = some m)
    (hlast : ∀ d < n, ¬ other.Shares d proc c) : ProcInv m n listening other := by
  obtain ⟨fd, file, hfd, howner, hkeys, hmem⟩ := epollDelEvent_spec hdel hinactive
  refine h.beside (fun d hd hregistered => ?_) fun e he => Or.inl (hmem e he)
  obtain ⟨fd', _, hfd', _⟩ := h.watched d hd
  have hlt := h.bounded d (by rw [hfd', Option.isSome_some])
  exact registeredIn_del hfd howner hkeys hd (hlast d hlt) hregistered

/-- The loop over the listening objects goes on. -/
theorem ProcInv.toggle {interest : EpollSet} {n : Nat} {listening : List Nat} {proc : EventProc}
    (h : ProcInv interest n listening proc) (enable : Bool) {todo : List Nat}
    (htodo : ∀ c ∈ todo, (proc.conn c).listening = true) :
    ProcInv interest n listening { proc with toggling := (enable, todo) } :=
  { h with toggles := htodo }

/-- **A round of the loop** keeps the invariant. -/
theorem EpollInv.toggleRound {s t : EpollState} (h : EpollInv s) {p : Nat} {proc : EventProc}
    (hp : s.procs[p]? = some proc) (hok : ToggleOk s p proc)
    (hstep : toggleRound s p proc = some t) : EpollInv t := by
  have hproc := h.procs proc (List.mem_of_getElem? hp)
  have hplt : p < s.procs.length := (List.getElem?_eq_some_iff.mp hp).1
  unfold Toxic.toggleRound at hstep
  unfold ToggleOk at hok
  split at hstep
  next => cases hstep
  next enable c rest htoggling =>
    rw [htoggling] at hok
    have hlistens : ∀ d ∈ c :: rest, (proc.conn d).listening = true := by
      intro d hd
      exact hproc.toggles d (by rw [htoggling]; exact hd)
    have hc := hlistens c List.mem_cons_self
    have hrest : ∀ d ∈ rest, (proc.conn d).listening = true :=
      fun d hd => hlistens d (List.mem_cons_of_mem _ hd)
    have hkind := hok c rfl
    dsimp only at hkind hstep
    split at hstep
    next =>
      obtain rfl := Option.some.inj hstep
      exact h.local (hproc.toggle enable hrest)
    next hactive =>
      cases enable with
      | true =>
          rw [if_pos rfl] at hkind hstep
          have htag := hkind (by simpa using hactive)
          cases hadd : epollAddEvent proc c false s.interest with
          | none =>
              rw [hadd] at hstep
              obtain rfl := Option.some.inj hstep
              exact h.local (hproc.toggle true (by simp))
          | some m =>
              rw [hadd] at hstep
              obtain rfl := Option.some.inj hstep
              have hnext := hproc.add hadd htag fun _ => rfl
              refine h.setProc (hnext.toggle true ?_) fun q other _ hother => ?_
              · intro d hd
                rw [(conn_setActive proc c d false true).2.2]
                exact hrest d hd
              · have hmem := List.mem_of_getElem? hother
                exact (h.procs other hmem).addBeside hadd htag hmem
      | false =>
          rw [if_neg Bool.false_ne_true] at hkind hstep
          have hlast := hkind (by simpa using hactive)
          cases hdel : epollDelEvent proc c false s.interest with
          | none =>
              rw [hdel] at hstep
              obtain rfl := Option.some.inj hstep
              exact h.local (hproc.toggle false (by simp))
          | some m =>
              rw [hdel] at hstep
              obtain rfl := Option.some.inj hstep
              have hnext := hproc.del hc hdel fun d hlt hne hshares =>
                hne (Prod.mk.inj (hlast p hplt proc hp d hlt hshares)).2
              refine h.setProc (hnext.toggle false ?_) fun q other hq hother => ?_
              · intro d hd
                rw [(conn_setActive proc c d false false).2.2]
                exact hrest d hd
              · have hqlt : q < s.procs.length := (List.getElem?_eq_some_iff.mp hother).1
                refine (h.procs other (List.mem_of_getElem? hother)).delBeside
                  (hproc.listens c hc).1 hdel fun d hlt hshares => ?_
                exact hq (Prod.mk.inj (hlast q hqlt other hother d hlt hshares)).1

/-- A free object is not in use. -/
theorem ProcInv.unused {interest : EpollSet} {n : Nat} {listening : List Nat} {proc : EventProc}
    (h : ProcInv interest n listening proc) {c : Nat} (hnone : (proc.conn c).fd = none) :
    ((proc.conn c).listening || (proc.conn c).watched) = false := by
  have howner : proc.owner c = none := by
    unfold EventProc.owner
    rw [hnone]
    rfl
  by_contra hlive
  rw [Bool.not_eq_false, Bool.or_eq_true] at hlive
  rcases hlive with hlisten | hwatched
  · have hsome := (h.listens c hlisten).2
    rw [howner] at hsome
    cases hsome
  · obtain ⟨fd, _, hfd, _⟩ := h.watched c hwatched
    rw [hnone] at hfd
    cases hfd

/-- **One object is taken into use or out of it**; the others own what they owned. -/
theorem ProcInv.except {interest : EpollSet} {n : Nat} {listening : List Nat}
    {proc next : EventProc} (h : ProcInv interest n listening proc) {c : Nat} (hlt : c < n)
    (hlisten : (proc.conn c).listening = false)
    (hidle : ((next.conn c).listening || (next.conn c).watched) = false)
    (hsame : ∀ d, d ≠ c → next.conn d = proc.conn d)
    (howner : ∀ d file, d ≠ c → proc.owner d = some file → next.owner d = some file)
    (hfree : ∀ d ∈ next.freeConnections, d < n ∧ (next.conn d).fd = none)
    (hnodup : next.freeConnections.Nodup) (halive : next.alive = proc.alive)
    (hevents : next.events = proc.events) (htoggling : next.toggling = proc.toggling)
    (hposted : ∀ e ∈ next.posted, e ∈ proc.posted ∧ e.conn ≠ c) :
    ProcInv interest n listening next := by
  have hlistenNe : ∀ d, (proc.conn d).listening = true → d ≠ c := by
    rintro d hd rfl
    rw [hlisten] at hd
    cases hd
  have huse : ∀ d, ((next.conn d).listening || (next.conn d).watched) = true → d ≠ c := by
    rintro d hd rfl
    rw [hidle] at hd
    cases hd
  have hwatchedNe : ∀ d, (next.conn d).watched = true → d ≠ c ∧ (proc.conn d).watched = true := by
    intro d hd
    have hne := huse d (by rw [hd, Bool.or_true])
    exact ⟨hne, hsame d hne ▸ hd⟩
  constructor
  · intro d hd
    by_cases hdc : d = c
    · exact hdc ▸ hlt
    · rw [hsame d hdc] at hd
      exact h.bounded d hd
  · exact hfree
  · exact hnodup
  · intro d hd
    have hdc := huse d (by rw [hd, Bool.true_or])
    rw [hsame d hdc] at hd ⊢
    obtain ⟨hinactive, hsome⟩ := h.listens d hd
    obtain ⟨file, hown⟩ := Option.isSome_iff_exists.mp hsome
    rw [howner d file hdc hown]
    exact ⟨hinactive, rfl⟩
  · intro hrun d hd
    have hd' := h.roots (halive ▸ hrun) d hd
    rw [hsame d (hlistenNe d hd')]
    exact hd'
  · intro d hd
    have hd' := h.toggles d (htoggling ▸ hd)
    rw [hsame d (hlistenNe d hd')]
    exact hd'
  · intro d hd
    obtain ⟨hdc, hwatched⟩ := hwatchedNe d hd
    obtain ⟨fd, file, hfd, hown, hkey⟩ := h.watched d hwatched
    exact ⟨fd, file, by rw [hsame d hdc]; exact hfd, howner d file hdc hown, hkey⟩
  · intro e he hw hbit
    obtain ⟨hdc, hwatched⟩ := hwatchedNe _ hw
    rw [hsame _ hdc] at hbit
    exact howner _ _ hdc (h.tags e he hwatched hbit)
  · intro e he hw hbit
    obtain ⟨hdc, hwatched⟩ := hwatchedNe _ hw
    rw [hsame _ hdc] at hbit
    exact howner _ _ hdc (h.events e (hevents ▸ he) hwatched hbit)
  · intro e he
    obtain ⟨he, hdc⟩ := hposted e he
    obtain ⟨hown, hlive⟩ := h.posted e he
    rw [hsame _ hdc]
    exact ⟨howner _ _ hdc hown, hlive⟩

/-- **A connection is accepted.** -/
theorem ProcInv.getConnection {interest : EpollSet} {n : Nat} {listening : List Nat}
    {proc : EventProc} (h : ProcInv interest n listening proc) {c : Nat} {rest : List Nat}
    (hfree : proc.freeConnections = c :: rest) (file : Nat) :
    ProcInv interest n listening (proc.getConnection file c rest) := by
  obtain ⟨hlt, hnone⟩ := h.free c (by rw [hfree]; exact List.mem_cons_self)
  have hnodup := h.nodup
  rw [hfree, List.nodup_cons] at hnodup
  have hself : (proc.getConnection file c rest).conn c
      = ⟨some (lowestFree proc.table), !(proc.conn c).instanceBit, false, false, false⟩ :=
    Function.update_self _ _ _
  have hsame : ∀ d, d ≠ c → (proc.getConnection file c rest).conn d = proc.conn d :=
    fun d hd => Function.update_of_ne hd _ _
  have hunused := h.unused hnone
  refine h.except hlt (Bool.or_eq_false_iff.mp hunused).1 (by rw [hself]; rfl) hsame
    (fun d file' hd hown => ?_) (fun d hd => ?_) hnodup.2 rfl rfl rfl fun e he => ⟨he, ?_⟩
  · -- a number in use is not the new one
    obtain ⟨fd, hfd, hslot⟩ := owner_eq_some.mp hown
    exact owner_eq_some.mpr ⟨fd, by rw [hsame d hd]; exact hfd, slot_alloc_of_some hslot⟩
  · have hdc : d ≠ c := fun heq => hnodup.1 (heq ▸ hd)
    rw [hsame d hdc]
    exact h.free d (by rw [hfree]; exact List.mem_cons_of_mem _ hd)
  · intro heq
    have hlive := (h.posted e he).2
    rw [heq, hunused] at hlive
    cases hlive

/-- **A number is closed** that no object in use has. -/
theorem ProcInv.release {interest : EpollSet} {n : Nat} {listening : List Nat}
    {proc : EventProc} (h : ProcInv interest n listening proc) {fd : Nat}
    (hfree : ∀ d, ((proc.conn d).listening || (proc.conn d).watched) = true →
      (proc.conn d).fd ≠ some fd) :
    ProcInv interest n listening { proc with table := release fd proc.table } := by
  have howner : ∀ d file, ((proc.conn d).listening || (proc.conn d).watched) = true →
      proc.owner d = some file →
        EventProc.owner { proc with table := SlotTable.release fd proc.table } d = some file := by
    intro d file hlive hown
    obtain ⟨fd', hfd', hslot⟩ := owner_eq_some.mp hown
    refine owner_eq_some.mpr ⟨fd', hfd', ?_⟩
    have hne : fd' ≠ fd := by
      rintro rfl
      exact hfree d hlive hfd'
    rw [slot_release, if_neg hne]
    exact hslot
  have hwatched : ∀ {d}, (proc.conn d).watched = true →
      ((proc.conn d).listening || (proc.conn d).watched) = true := by
    intro d hd
    rw [hd, Bool.or_true]
  refine { h with listens := ?_, watched := ?_, tags := ?_, events := ?_, posted := ?_ }
  · intro d hd
    obtain ⟨hinactive, hsome⟩ := h.listens d hd
    obtain ⟨file, hown⟩ := Option.isSome_iff_exists.mp hsome
    exact ⟨hinactive, by rw [howner d file (by rw [hd, Bool.true_or]) hown]; rfl⟩
  · intro d hd
    obtain ⟨fd', file, hfd', hown, hkey⟩ := h.watched d hd
    exact ⟨fd', file, hfd', howner d file (hwatched hd) hown, hkey⟩
  · intro e he hw hbit
    exact howner _ _ (hwatched hw) (h.tags e he hw hbit)
  · intro e he hw hbit
    exact howner _ _ (hwatched hw) (h.events e he hw hbit)
  · intro e he
    obtain ⟨hown, hlive⟩ := h.posted e he
    exact ⟨howner _ _ hlive hown, hlive⟩

/-- **A connection object is freed**: it has no active event any more, and nothing
is posted for it. -/
theorem ProcInv.freed {interest : EpollSet} {n : Nat} {listening : List Nat}
    {proc : EventProc} (h : ProcInv interest n listening proc) {c fd : Nat}
    (hfd : (proc.conn c).fd = some fd) (hlisten : (proc.conn c).listening = false) :
    ProcInv interest n listening { proc with
      conn := Function.update proc.conn c
        { proc.conn c with fd := none, readActive := false, writeActive := false }
      freeConnections := c :: proc.freeConnections
      posted := proc.posted.filter fun e => e.conn ≠ c } := by
  have hsome : (proc.conn c).fd.isSome = true := by rw [hfd, Option.isSome_some]
  have hself : Function.update proc.conn c
      { proc.conn c with fd := none, readActive := false, writeActive := false } c
        = { proc.conn c with fd := none, readActive := false, writeActive := false } :=
    Function.update_self _ _ _
  have hsame : ∀ d, d ≠ c → Function.update proc.conn c
      { proc.conn c with fd := none, readActive := false, writeActive := false } d
        = proc.conn d := fun d hd => Function.update_of_ne hd _ _
  have hnot : c ∉ proc.freeConnections := by
    intro hc
    have hnone := (h.free c hc).2
    rw [hfd] at hnone
    cases hnone
  refine h.except (h.bounded c hsome) hlisten ?_ hsame (fun d file hd hown => ?_)
    (fun d hd => ?_) (List.nodup_cons.mpr ⟨hnot, h.nodup⟩) rfl rfl rfl fun e he => ?_
  · dsimp only
    rw [hself, hlisten]
    rfl
  · unfold EventProc.owner
    dsimp only
    rw [hsame d hd]
    exact hown
  · dsimp only
    by_cases hdc : d = c
    · rw [hdc, hself]
      exact ⟨h.bounded c hsome, rfl⟩
    · rw [hsame d hdc]
      exact h.free d ((List.mem_cons.mp hd).resolve_left hdc)
  · obtain ⟨he, hdc⟩ := List.mem_filter.mp he
    exact ⟨he, of_decide_eq_true hdc⟩

/-- The other objects in use have other numbers. -/
theorem OwnNumber.apart {interest : EpollSet} {n : Nat} {listening : List Nat} {proc : EventProc}
    (h : ProcInv interest n listening proc) {c fd : Nat} (hown : OwnNumber n proc c)
    (hfd : (proc.conn c).fd = some fd) {d : Nat} (hd : d ≠ c)
    (hlive : ((proc.conn d).listening || (proc.conn d).watched) = true) :
    (proc.conn d).fd ≠ some fd := by
  intro heq
  have hlt := h.bounded d (by rw [heq, Option.isSome_some])
  exact hown d hlt hd hlive (heq.trans hfd.symm)

/-- **A connection is closed.** -/
theorem ProcInv.close {interest : EpollSet} {n : Nat} {listening : List Nat} {proc : EventProc}
    (h : ProcInv interest n listening proc) {c fd : Nat} (hfd : (proc.conn c).fd = some fd)
    (hlisten : (proc.conn c).listening = false) (hown : OwnNumber n proc c) :
    ProcInv interest n listening (proc.closeConnection c fd) := by
  refine (h.freed hfd hlisten).release fun d hd => ?_
  dsimp only at hd ⊢
  by_cases hdc : d = c
  · rw [hdc, Function.update_self, hlisten] at hd
    cases hd
  · rw [Function.update_of_ne hdc] at hd ⊢
    exact hown.apart h hfd hdc hd

/-- **A handler is run or its event posted**, for an object in use that owns the file
the event came from. -/
theorem EpollInv.handle {s : EpollState} (h : EpollInv s) {p : Nat} {next : EventProc}
    (hnext : ProcInv s.interest s.connectionN s.listening next) {c origin : Nat}
    (write post : Bool) (howner : next.owner c = some origin)
    (hlive : ((next.conn c).listening || (next.conn c).watched) = true) :
    EpollInv (s.handle p next c write post origin) := by
  unfold EpollState.handle
  split
  next =>
    split
    next => exact h.local hnext
    next =>
      refine h.local { hnext with posted := fun e he => ?_ }
      rcases List.mem_cons.mp he with rfl | he
      · exact ⟨howner, hlive⟩
      · exact hnext.posted e he
  next =>
    refine ⟨(h.local hnext).procs, fun run hrun => ?_⟩
    rcases List.mem_append.mp hrun with hold | hnew
    · exact h.runs run hold
    · obtain rfl := List.mem_singleton.mp hnew
      exact howner

/-- Less of `event_list` is left. -/
theorem ProcInv.listed {interest : EpollSet} {n : Nat} {listening : List Nat} {proc : EventProc}
    (h : ProcInv interest n listening proc) (events : List ListedEvent)
    (hevents : ∀ e ∈ events, (proc.conn e.conn).watched = true →
      (proc.conn e.conn).instanceBit = e.instanceBit → proc.owner e.conn = some e.origin) :
    ProcInv interest n listening { proc with events := events } :=
  { h with events := hevents }

/-- An event that is not stale, for an active event of its object, comes from the
file of the object. -/
theorem ProcInv.owner_of_event {interest : EpollSet} {n : Nat} {listening : List Nat}
    {proc : EventProc} (h : ProcInv interest n listening proc) {e : ListedEvent}
    (he : e ∈ proc.events) (hstale : proc.stale e = false)
    (hwatched : (proc.conn e.conn).watched = true) : proc.owner e.conn = some e.origin := by
  unfold EventProc.stale at hstale
  rw [Bool.or_eq_false_iff, bne_eq_false_iff_eq] at hstale
  exact h.events e he hwatched hstale.2

/-- **The first half of the loop** keeps the invariant. -/
theorem EpollInv.readEvent {s t : EpollState} (h : EpollInv s) {p : Nat} {proc : EventProc}
    (hp : s.procs[p]? = some proc) {post : Bool} (hstep : readEvent s p proc post = some t) :
    EpollInv t := by
  have hproc := h.procs proc (List.mem_of_getElem? hp)
  unfold Toxic.readEvent at hstep
  split at hstep
  next => cases hstep
  next e rest hevents =>
    have hall := hproc.events
    rw [hevents] at hall
    have hrest : ∀ e' ∈ rest, _ := fun e' he' => hall e' (List.mem_cons_of_mem e he')
    split at hstep
    next => cases hstep
    next =>
      split at hstep
      next =>
        obtain rfl := Option.some.inj hstep
        exact h.local (hproc.listed rest hrest)
      next hstale =>
        have hnext := hproc.listed ({ e with readDone := true } :: rest)
          (List.forall_mem_cons.mpr ⟨hall e List.mem_cons_self, hrest⟩)
        split at hstep
        next hactive =>
          obtain rfl := Option.some.inj hstep
          rw [Bool.and_eq_true] at hactive
          have hwatched : (proc.conn e.conn).watched = true := by
            rw [EventConn.watched, hactive.2, Bool.true_or]
          refine h.handle hnext false post ?_ (by rw [hwatched, Bool.or_true])
          exact hproc.owner_of_event (by rw [hevents]; exact List.mem_cons_self)
            (by simpa using hstale) hwatched
        next =>
          obtain rfl := Option.some.inj hstep
          exact h.local hnext

/-- **The second half.** -/
theorem EpollInv.writeEvent {s t : EpollState} (h : EpollInv s) {p : Nat} {proc : EventProc}
    (hp : s.procs[p]? = some proc) {post : Bool} (hstep : writeEvent s p proc post = some t) :
    EpollInv t := by
  have hproc := h.procs proc (List.mem_of_getElem? hp)
  unfold Toxic.writeEvent at hstep
  split at hstep
  next => cases hstep
  next e rest hevents =>
    have hall := hproc.events
    rw [hevents] at hall
    have hnext := hproc.listed rest
      fun e' he' => hall e' (List.mem_cons_of_mem e he')
    split at hstep
    next => cases hstep
    next =>
      split at hstep
      next hactive =>
        obtain rfl := Option.some.inj hstep
        rw [Bool.and_eq_true, Bool.and_eq_true, Bool.not_eq_true'] at hactive
        have hwatched : (proc.conn e.conn).watched = true := by
          rw [EventConn.watched, hactive.1.2, Bool.or_true]
        refine h.handle hnext true post ?_ (by rw [hwatched, Bool.or_true])
        exact hproc.owner_of_event (by rw [hevents]; exact List.mem_cons_self) hactive.2 hwatched
      next =>
        obtain rfl := Option.some.inj hstep
        exact h.local hnext

/-- An event that `epoll_wait` returns has the tag of its registration. -/
theorem listed_spec {interest : EpollSet} {pick : Pick} {e : ListedEvent}
    (h : interest.listed pick = some e) :
    ∃ r ∈ interest, e.conn = r.2.conn ∧ e.instanceBit = r.2.instanceBit ∧ e.origin = r.1.1 := by
  obtain ⟨r, hr, h⟩ := Option.bind_eq_some_iff.mp h
  have hkey := List.find?_some hr
  rw [beq_iff_eq] at hkey
  split at h
  next => cases h
  next =>
    obtain rfl := Option.some.inj h
    exact ⟨r, List.mem_of_find?_eq_some hr, rfl, rfl, by rw [hkey]⟩

/-- Each event stands for one that was picked. -/
theorem mem_mapM_listed {interest : EpollSet} {picks : List Pick} {events : List ListedEvent}
    (h : picks.mapM (EpollSet.listed interest) = some events) :
    ∀ e ∈ events, ∃ pick ∈ picks, interest.listed pick = some e := by
  induction picks generalizing events with
  | nil =>
      obtain rfl := Option.some.inj h
      intro e he
      cases he
  | cons pick picks ih =>
      rw [List.mapM_cons] at h
      obtain ⟨first, hfirst, h⟩ := Option.bind_eq_some_iff.mp h
      obtain ⟨rest, hrest, h⟩ := Option.bind_eq_some_iff.mp h
      obtain rfl := Option.some.inj h
      intro e he
      rcases List.mem_cons.mp he with rfl | he
      · exact ⟨pick, List.mem_cons_self, hfirst⟩
      · obtain ⟨pick', hpick', hlisted⟩ := ih hrest e he
        exact ⟨pick', List.mem_cons_of_mem _ hpick', hlisted⟩

/-- The next posted event is one of those posted. -/
theorem mem_nextPosted {proc : EventProc} {e : PostedEvent} (h : proc.nextPosted = some e) :
    e ∈ proc.posted := by
  unfold EventProc.nextPosted at h
  rcases Option.or_eq_some_iff.mp h with hfirst | ⟨-, hhead⟩
  · exact List.mem_of_find?_eq_some hfirst
  · exact List.mem_of_head? hhead

/-- **One step** keeps the invariant, when it keeps the processes apart. -/
theorem EpollInv.step {s t : EpollState} {a : EpollAct} (h : EpollInv s) (hok : EpollOk s a)
    (hstep : epollStep s a = some t) : EpollInv t := by
  cases a with
  | accept p l =>
      obtain ⟨proc, hp, hstep⟩ := Option.bind_eq_some_iff.mp hstep
      have hproc := h.procs proc (List.mem_of_getElem? hp)
      split at hstep
      next =>
        split at hstep
        next =>
          obtain rfl := Option.some.inj hstep
          exact h
        next c rest hfree =>
          obtain rfl := Option.some.inj hstep
          have hnext := h.local (p := p) (hproc.getConnection hfree s.files)
          exact ⟨hnext.procs, hnext.runs⟩
      next => cases hstep
  | addEvent p c write =>
      obtain ⟨proc, hp, hstep⟩ := Option.bind_eq_some_iff.mp hstep
      have hmem := List.mem_of_getElem? hp
      have hproc := h.procs proc hmem
      have htag := hok proc hp
      dsimp only at hstep
      generalize (if write = true then (proc.conn c).writeActive
        else (proc.conn c).readActive) = active at hstep
      split at hstep
      next hidle =>
        simp only [Bool.and_eq_true, Bool.not_eq_true'] at hidle
        split at hstep
        next =>
          obtain rfl := Option.some.inj hstep
          exact h
        next m hadd =>
          obtain rfl := Option.some.inj hstep
          refine h.setProc (hproc.add hadd htag fun hlisten => ?_) fun q other _ hother => ?_
          · rw [hidle.1.2] at hlisten
            cases hlisten
          · have hmem' := List.mem_of_getElem? hother
            exact (h.procs other hmem').addBeside hadd htag hmem'
      next => cases hstep
  | enableAccept p =>
      obtain ⟨proc, hp, hstep⟩ := Option.bind_eq_some_iff.mp hstep
      have hproc := h.procs proc (List.mem_of_getElem? hp)
      split at hstep
      next hidle =>
        obtain rfl := Option.some.inj hstep
        exact h.local (hproc.toggle true (hproc.roots (Bool.and_eq_true_iff.mp hidle).1))
      next => cases hstep
  | disableAccept p =>
      obtain ⟨proc, hp, hstep⟩ := Option.bind_eq_some_iff.mp hstep
      have hproc := h.procs proc (List.mem_of_getElem? hp)
      split at hstep
      next hidle =>
        obtain rfl := Option.some.inj hstep
        exact h.local (hproc.toggle false (hproc.roots (Bool.and_eq_true_iff.mp hidle).1))
      next => cases hstep
  | toggle p =>
      obtain ⟨proc, hp, hstep⟩ := Option.bind_eq_some_iff.mp hstep
      exact h.toggleRound hp (hok proc hp) hstep
  | closeConnection p c =>
      obtain ⟨proc, hp, hstep⟩ := Option.bind_eq_some_iff.mp hstep
      have hproc := h.procs proc (List.mem_of_getElem? hp)
      split at hstep
      next hidle =>
        rw [Bool.and_eq_true, Bool.not_eq_true'] at hidle
        split at hstep
        next =>
          obtain rfl := Option.some.inj hstep
          exact h
        next fd hfd =>
          obtain rfl := Option.some.inj hstep
          exact (h.local (hproc.close hfd hidle.2 (hok proc hp))).dropUnheld
      next => cases hstep
  | toxicClose p c =>
      obtain ⟨proc, hp, hstep⟩ := Option.bind_eq_some_iff.mp hstep
      have hproc := h.procs proc (List.mem_of_getElem? hp)
      obtain ⟨hown, hquiet⟩ := hok proc hp
      split at hstep
      next hidle =>
        rw [Bool.and_eq_true, Bool.not_eq_true'] at hidle
        split at hstep
        next => cases hstep
        next fd hfd =>
          obtain rfl := Option.some.inj hstep
          refine (h.local (hproc.release fun d hlive => ?_)).dropUnheld
          have hd : d ≠ c := by
            rintro rfl
            rw [hidle.2, hquiet] at hlive
            cases hlive
          exact hown.apart hproc hfd hd hlive
      next => cases hstep
  | fork p =>
      obtain ⟨proc, hp, hstep⟩ := Option.bind_eq_some_iff.mp hstep
      have hproc := h.procs proc (List.mem_of_getElem? hp)
      split at hstep
      next =>
        obtain rfl := Option.some.inj hstep
        refine ⟨fun other hother => ?_, h.runs⟩
        rcases List.mem_append.mp hother with hold | hnew
        · exact h.procs other hold
        · exact List.mem_singleton.mp hnew ▸ hproc
      next => cases hstep
  | exit p =>
      obtain ⟨proc, hp, hstep⟩ := Option.bind_eq_some_iff.mp hstep
      split at hstep
      next =>
        obtain rfl := Option.some.inj hstep
        refine (h.local ?_).dropUnheld
        constructor <;> simp [EventConn.watched]
      next => cases hstep
  | wait p picks =>
      obtain ⟨proc, hp, hstep⟩ := Option.bind_eq_some_iff.mp hstep
      have hproc := h.procs proc (List.mem_of_getElem? hp)
      split at hstep
      next =>
        obtain ⟨events, hevents, hstep⟩ := Option.bind_eq_some_iff.mp hstep
        obtain rfl := Option.some.inj hstep
        refine h.local (hproc.listed events fun e he hwatched hbit => ?_)
        obtain ⟨pick, -, hlisted⟩ := mem_mapM_listed hevents e he
        obtain ⟨r, hr, hc, hb, horigin⟩ := listed_spec hlisted
        rw [hc] at hwatched hbit ⊢
        rw [hb] at hbit
        rw [horigin]
        exact hproc.tags r hr hwatched hbit
      next => cases hstep
  | readEvent p post =>
      obtain ⟨proc, hp, hstep⟩ := Option.bind_eq_some_iff.mp hstep
      split at hstep
      next => exact h.readEvent hp hstep
      next => cases hstep
  | writeEvent p post =>
      obtain ⟨proc, hp, hstep⟩ := Option.bind_eq_some_iff.mp hstep
      split at hstep
      next => exact h.writeEvent hp hstep
      next => cases hstep
  | runPosted p =>
      obtain ⟨proc, hp, hstep⟩ := Option.bind_eq_some_iff.mp hstep
      have hproc := h.procs proc (List.mem_of_getElem? hp)
      split at hstep
      next =>
        obtain ⟨e, he, hstep⟩ := Option.bind_eq_some_iff.mp hstep
        obtain rfl := Option.some.inj hstep
        have hnext : ProcInv s.interest s.connectionN s.listening
            { proc with posted := proc.posted.erase e } :=
          { hproc with posted := fun e' he' => hproc.posted e' (List.mem_of_mem_erase he') }
        obtain ⟨hown, hlive⟩ := hproc.posted e (mem_nextPosted he)
        exact h.handle hnext e.write false hown hlive
      next => cases hstep

/-- **A shared epoll set is safe** — in every process an active read event is
registered, and a handler runs only for the file its object owns — in every run of
a worker and its children each step of which keeps them apart. -/
theorem epollSafe_of_guarded {listeners connections : Nat} {t : EpollState} {acts : List EpollAct}
    (h : GuardedRun epollStep EpollOk (EpollState.start listeners connections) acts t) :
    EpollSafe t := by
  have hinv := h.invariant (fun s a t hs hok hstep => hs.step hok hstep)
    (epollInv_start listeners connections)
  exact hinv.safe

/-- A worker that accepts a connection and forks, and a child that serves it, closes
it and ends. -/
theorem epollSafe_sample : ∃ t,
    check epollStep EpollOk (EpollState.start 1 2)
      [.enableAccept 0, .toggle 0, .wait 0 [⟨0, 0, true, false, false⟩], .readEvent 0 false,
        .accept 0 0, .addEvent 0 1 false, .writeEvent 0 false, .fork 0,
        .wait 1 [⟨1, 1, true, false, false⟩], .readEvent 1 true, .writeEvent 1 false,
        .runPosted 1, .closeConnection 1 1, .exit 1] = some t ∧ EpollSafe t := by
  have hsome : (check epollStep EpollOk (EpollState.start 1 2)
      [.enableAccept 0, .toggle 0, .wait 0 [⟨0, 0, true, false, false⟩], .readEvent 0 false,
        .accept 0 0, .addEvent 0 1 false, .writeEvent 0 false, .fork 0,
        .wait 1 [⟨1, 1, true, false, false⟩], .readEvent 1 true, .writeEvent 1 false,
        .runPosted 1, .closeConnection 1 1, .exit 1]).isSome = true := by decide +kernel
  obtain ⟨t, ht⟩ := Option.isSome_iff_exists.mp hsome
  exact ⟨t, ht, epollSafe_of_guarded (guardedRun_iff_check.mpr ht)⟩

/-- The parent of a request whose connection is watched for input: the number of its
object is closed, and the event stays active. -/
theorem toxicClose_unsafe {s t : EpollState} {p c : Nat} {proc : EventProc}
    (hp : s.procs[p]? = some proc) (hactive : (proc.conn c).readActive = true)
    (hstep : epollStep s (.toxicClose p c) = some t) : ¬ EpollSafe t := by
  obtain ⟨proc', hp', hstep⟩ := Option.bind_eq_some_iff.mp hstep
  obtain rfl := Option.some.inj (hp.symm.trans hp')
  have hplt : p < s.procs.length := (List.getElem?_eq_some_iff.mp hp).1
  split at hstep
  next =>
    split at hstep
    next => cases hstep
    next fd hfd =>
      obtain rfl := Option.some.inj hstep
      intro hsafe
      have hmem : { proc with table := release fd proc.table } ∈
          (s.setProc p { proc with table := release fd proc.table }).procs :=
        List.mem_of_getElem? (List.getElem?_set_self hplt)
      obtain ⟨fd', file, hfd', howner, -⟩ := hsafe.registered _ hmem c hactive
      obtain ⟨fd'', hfd'', hslot⟩ := owner_eq_some.mp howner
      obtain rfl := Option.some.inj (hfd.symm.trans hfd'')
      rw [slot_release, if_pos rfl] at hslot
      cases hslot
  next => cases hstep

/-- A child that disables its accept events takes the registration of its parent
away; and an event of a connection that a child has accepted runs a handler of its
parent for another one, which stands at the same address. -/
theorem shared_epoll_unsafe :
    (∃ t, Run epollStep (EpollState.start 1 2)
      [.enableAccept 0, .toggle 0, .fork 0, .disableAccept 1, .toggle 1] t ∧
        ¬ ∀ proc ∈ t.procs, ∀ c, (proc.conn c).readActive = true →
          proc.RegisteredIn t.interest c) ∧
    (∃ t, Run epollStep (EpollState.start 1 2)
      [.fork 0, .accept 1 0, .addEvent 1 1 false, .accept 0 0, .addEvent 0 1 false,
        .wait 0 [⟨1, 1, true, false, false⟩], .readEvent 0 false] t ∧
        ¬ ∀ run ∈ t.runs, run.owner = some run.origin) := by
  constructor
  · have hlost : (execute epollStep (EpollState.start 1 2)
        [.enableAccept 0, .toggle 0, .fork 0, .disableAccept 1, .toggle 1]).any (fun t =>
          t.interest.isEmpty && t.procs.any fun proc => (proc.conn 0).readActive) = true := by
      decide +kernel
    obtain ⟨t, ht, hstate⟩ := (Option.any_eq_true _ _).mp hlost
    rw [Bool.and_eq_true] at hstate
    obtain ⟨proc, hproc, hactive⟩ := List.any_eq_true.mp hstate.2
    refine ⟨t, run_iff_execute.mpr ht, fun hall => ?_⟩
    obtain ⟨fd, file, -, -, hregistered⟩ := hall proc hproc 0 hactive
    rw [List.isEmpty_iff.mp hstate.1] at hregistered
    cases hregistered
  · have hwrong : (execute epollStep (EpollState.start 1 2)
        [.fork 0, .accept 1 0, .addEvent 1 1 false, .accept 0 0, .addEvent 0 1 false,
          .wait 0 [⟨1, 1, true, false, false⟩], .readEvent 0 false]).any (fun t =>
            t.runs == [⟨0, 1, 1, some 2⟩]) = true := by
      decide +kernel
    obtain ⟨t, ht, hstate⟩ := (Option.any_eq_true _ _).mp hwrong
    refine ⟨t, run_iff_execute.mpr ht, fun hall => ?_⟩
    rw [beq_iff_eq] at hstate
    have howner := hall ⟨0, 1, 1, some 2⟩ (by rw [hstate]; exact List.mem_singleton.mpr rfl)
    cases howner

end Toxic
