import ToxicNginx.SharedInbox
import ToxicNginx.StepSystem

/-!
# Commands of the master on the channel of a worker

The master writes commands to `ngx_processes[i].channel[0]` and takes a worker
for exiting as soon as the write succeeds.  The worker reads them in
`ngx_channel_handler`, and closes its end when a read fails.  A toxic child is
made by a bare `fork` in the worker and goes on in the event loop, with the
descriptor of the channel and its place in the epoll set.

* `ProcessTree`, `treeStep` — the master, any number of workers and their toxic
  children, one slot or one message at a time;
* `signalWorker`, `passOpenChannel`, `passCloseChannel`, `channelHandler` — the
  functions of the source;
* `WorkerView`, `WorkerView.act` — what the commands are for: a worker that leaves,
  ends or opens its logs anew, and what it knows of the others;
* `CommandsKept` — what was written to a worker's channel was read by the worker,
  in order, and has had its effect there, or waits for a worker that hears it;
* `CommandOk` — the steps that lose no command; `treeStep_kept`, and
  `commandOk_of_kept` for the other direction;
* `commandsKept_iff_guarded` — the property holds in exactly the runs of such
  steps.
-/

namespace Toxic

open StepSystem SharedInbox

/-- The commands of `ngx_channel_t`, with what they carry. -/
inductive ChannelCommand
  | quit
  | terminate
  | reopen
  | openChannel (pid slot fd : Nat)
  | closeChannel (pid slot : Nat)
  deriving DecidableEq, Repr

/-- The signals that `ngx_signal_worker_processes` is called with. -/
inductive MasterSignal
  | shutdown
  | terminate
  | reopen
  /-- `SIGKILL`, or one that no command stands for. -/
  | other
  deriving DecidableEq, Repr

/-- `ch.command` for a signal, `none` for 0. -/
def MasterSignal.command : MasterSignal → Option ChannelCommand
  | .shutdown => some .quit
  | .terminate => some .terminate
  | .reopen => some .reopen
  | .other => none

/-- `ngx_process_t` of the master: `none` is -1 for `pid`, and for `channel`
when the channel is closed. -/
structure ProcessSlot where
  pid : Option Nat
  channel : Option Nat
  exiting : Bool
  exited : Bool
  respawn : Bool
  justSpawn : Bool
  deriving DecidableEq, Repr

/-- What changes the flags of a process. -/
inductive ChannelAct
  | command (c : ChannelCommand)
  | signal (signo : MasterSignal)
  | cycle
  deriving DecidableEq, Repr

/-- A worker or a toxic child: the channel it reads, and whether its connection is
open; the flags of `ngx_process_cycle.c`; its copy of `ngx_processes`, as pids and
write ends of channels.  `first` and `log` are a record of the copy it began with
and of what it has done since. -/
structure ChannelProc where
  channel : Nat
  listening : Bool
  quit : Bool
  terminate : Bool
  reopen : Bool
  exiting : Bool
  peers : List (Option Nat × Option Nat)
  alive : Bool
  first : List (Option Nat × Option Nat)
  log : List ChannelAct
  deriving DecidableEq, Repr

/-- A socket pair of `ngx_spawn_process` and the worker it was made for; `watched`
says that it is in the epoll set, which the worker shares with its children. -/
structure WorkerChannel where
  owner : Nat
  watched : Bool
  inbox : Inbox Nat ChannelCommand
  deriving DecidableEq, Repr

/-- `ngx_processes` of the master, the processes in the order of their creation
(the place is the pid), and the channels. -/
structure ProcessTree where
  slots : List ProcessSlot
  procs : List ChannelProc
  channels : List WorkerChannel
  deriving DecidableEq, Repr

/-- How `ngx_spawn_process` is called: for a slot whose process has exited, or
for a new one with the flags of the type. -/
inductive SpawnKind
  | again
  | fresh (respawn justSpawn : Bool)
  deriving DecidableEq, Repr

/-- What a process does. -/
inductive ChannelProcEvent
  /-- A turn of the loop of `ngx_channel_handler`. -/
  | read
  /-- `ngx_read_channel` returns `NGX_ERROR`: `recvmsg` has failed or, with `taken`,
  it has read a message whose descriptor is missing. -/
  | readFails (taken : Bool)
  /-- The flags are looked at behind `ngx_process_events_and_timers`. -/
  | cycle
  /-- The handler of a toxic request forks. -/
  | fork
  | exit
  deriving DecidableEq, Repr

/-- What happens next.  The loops of the master are taken one slot at a time,
since the workers run in between; `sent` says whether a write succeeds, and
`found` whether `kill` finds the process. -/
inductive TreeEvent
  | spawn (slot : Nat) (kind : SpawnKind)
  | passOpen (i slot : Nat) (sent : Bool)
  | signal (i : Nat) (signo : MasterSignal) (sent found : Bool)
  /-- `waitpid` returns the pid of a process that has exited. -/
  | waitpid (pid : Nat)
  | reap (i : Nat)
  | passClose (n slot : Nat) (sent : Bool)
  | run (pid : Nat) (event : ChannelProcEvent)
  deriving DecidableEq, Repr

/-- `ngx_write_channel` that succeeds. -/
def ProcessTree.writeChannel (c : Nat) (command : ChannelCommand) (s : ProcessTree) : ProcessTree :=
  { s with channels := s.channels.modify c fun ch => { ch with inbox := ch.inbox.write command } }

/-- `ngx_processes[i]` is changed. -/
def ProcessTree.modifySlot (i : Nat) (f : ProcessSlot → ProcessSlot) (s : ProcessTree) :
    ProcessTree :=
  { s with slots := s.slots.modify i f }

/-- Process `pid` is changed. -/
def ProcessTree.modifyProc (pid : Nat) (f : ChannelProc → ChannelProc) (s : ProcessTree) :
    ProcessTree :=
  { s with procs := s.procs.modify pid f }

/-- An entry of the copy of `ngx_processes` in a worker is changed. -/
def ChannelProc.setPeer (slot : Nat) (f : Option Nat × Option Nat → Option Nat × Option Nat)
    (p : ChannelProc) : ChannelProc :=
  { p with
    peers := (p.peers ++ List.replicate (slot + 1 - p.peers.length) (none, none)).modify slot f }

/-- A worker behind `fork` in `ngx_spawn_process`, which reads channel `c`; its pid
is not yet in `ngx_processes`. -/
def spawnedProc (c slot : Nat) (slots : List ProcessSlot) : ChannelProc :=
  let p : ChannelProc :=
    ⟨c, true, false, false, false, false, slots.map fun e => (e.pid, e.channel), true, [], []⟩
  let p := p.setPeer slot fun e => (e.1, some c)
  { p with first := p.peers }

/-- `ngx_spawn_process`. -/
def spawnProcess (slot : Nat) (kind : SpawnKind) (s : ProcessTree) : Option ProcessTree :=
  let pid := s.procs.length
  let c := s.channels.length
  let started (slots : List ProcessSlot) : ProcessTree :=
    ⟨slots, s.procs ++ [spawnedProc c slot s.slots], s.channels ++ [⟨pid, true, .empty⟩]⟩
  match kind, s.slots[slot]? with
  | .again, some e =>
      if e.exited ∧ e.respawn ∧ !e.exiting then
        some (started (s.slots.set slot { e with pid := some pid, channel := some c, exited := false }))
      else none
  | .again, none => none
  | .fresh respawn justSpawn, some e =>
      if e.pid = none then
        some (started (s.slots.set slot ⟨some pid, some c, false, false, respawn, justSpawn⟩))
      else none
  | .fresh respawn justSpawn, none =>
      if slot = s.slots.length then
        some (started (s.slots ++ [⟨some pid, some c, false, false, respawn, justSpawn⟩]))
      else none

/-- `ngx_pass_open_channel` for `ngx_processes[i]`, when `slot` was started. -/
def passOpenChannel (i slot : Nat) (sent : Bool) (s : ProcessTree) : Option ProcessTree :=
  match s.slots[i]?, s.slots[slot]? with
  | some e, some new =>
      if i = slot then some s
      else
        match e.pid, e.channel, new.pid, new.channel with
        | some _, some c, some pid, some fd =>
            some (if sent then s.writeChannel c (.openChannel pid slot fd) else s)
        | _, _, _, _ => some s
  | _, _ => none

/-- `ngx_signal_handler` in a worker. -/
def ChannelProc.signal (signo : MasterSignal) (p : ChannelProc) : ChannelProc :=
  let p := { p with log := p.log ++ [.signal signo] }
  match signo with
  | .shutdown => { p with quit := true }
  | .terminate => { p with terminate := true }
  | .reopen => { p with reopen := true }
  | .other => p

/-- `kill(ngx_processes[i].pid, signo)`, when the process is found or not. -/
def killWorker (i : Nat) (e : ProcessSlot) (pid : Nat) (signo : MasterSignal) (found : Bool)
    (s : ProcessTree) : ProcessTree :=
  if found then
    let killed := s.modifyProc pid (ChannelProc.signal signo)
    if signo = .reopen then killed
    else killed.modifySlot i fun _ => { e with exiting := true }
  else s.modifySlot i fun _ => { e with exited := true, exiting := false }

/-- `ngx_signal_worker_processes` for `ngx_processes[i]`. -/
def signalWorker (i : Nat) (signo : MasterSignal) (sent found : Bool) (s : ProcessTree) :
    Option ProcessTree :=
  match s.slots[i]? with
  | none => none
  | some e =>
      match e.pid with
      | none => some s
      | some pid =>
          if e.justSpawn then some (s.modifySlot i fun _ => { e with justSpawn := false })
          else if e.exiting ∧ signo = .shutdown then some s
          else
            match signo.command, e.channel, sent with
            | some command, some c, true =>
                if signo = .reopen then some (s.writeChannel c command)
                else some ((s.writeChannel c command).modifySlot i fun _ => { e with exiting := true })
            | _, _, _ => some (killWorker i e pid signo found s)

/-- `ngx_process_get_status`. -/
def waitpidWorker (pid : Nat) (s : ProcessTree) : Option ProcessTree :=
  match s.procs[pid]? with
  | some p =>
      if p.alive then none
      else
        some { s with
          slots := s.slots.map fun e => if e.pid = some pid then { e with exited := true } else e }
  | none => none

/-- `ngx_reap_children` for `ngx_processes[i]`, less the messages to the others
and the new process. -/
def reapWorker (i : Nat) (s : ProcessTree) : Option ProcessTree :=
  match s.slots[i]? with
  | some e =>
      if e.exited then
        some (s.modifySlot i fun _ =>
          if e.respawn ∧ !e.exiting then { e with channel := none }
          else { e with channel := none, pid := none })
      else none
  | none => none

/-- The inner loop of `ngx_reap_children` for `ngx_processes[n]`, when the
process in `slot` has exited. -/
def passCloseChannel (n slot : Nat) (sent : Bool) (s : ProcessTree) : Option ProcessTree :=
  match s.slots[n]?, s.slots[slot]? with
  | some e, some closed =>
      if e.exited then some s
      else
        match e.pid, e.channel with
        | some _, some c =>
            some (if sent then s.writeChannel c (.closeChannel (closed.pid.getD 0) slot) else s)
        | _, _ => some s
  | _, _ => none

/-- The switch of `ngx_channel_handler`. -/
def ChannelProc.apply (p : ChannelProc) (command : ChannelCommand) : ChannelProc :=
  let p := { p with log := p.log ++ [ChannelAct.command command] }
  match command with
  | .quit => { p with quit := true }
  | .terminate => { p with terminate := true }
  | .reopen => { p with reopen := true }
  | .openChannel pid slot fd => p.setPeer slot fun _ => (some pid, some fd)
  | .closeChannel _ slot => p.setPeer slot fun e => (e.1, none)

/-- A turn of the loop of `ngx_channel_handler` in process `pid`. -/
def channelHandler (pid : Nat) (p : ChannelProc) (s : ProcessTree) : ProcessTree :=
  match s.channels[p.channel]? with
  | some ch =>
      match ch.inbox.read pid with
      | some (command, inbox) =>
          { s with
            channels := s.channels.set p.channel { ch with inbox := inbox }
            procs := s.procs.set pid (p.apply command) }
      | none => s
  | none => s

/-- What a failed read leaves in the channel: with `taken`, an `openChannel` is gone. -/
def failedInbox (pid : Nat) (taken : Bool) (inbox : Inbox Nat ChannelCommand) :
    Option (Inbox Nat ChannelCommand) :=
  if taken then
    match inbox.read pid with
    | some (.openChannel _ _ _, rest) => some rest
    | _ => none
  else some inbox

/-- The branch `n == NGX_ERROR` of `ngx_channel_handler`: `ngx_del_conn` takes the
channel out of the epoll set, and the connection is closed. -/
def channelFails (pid : Nat) (p : ChannelProc) (taken : Bool) (s : ProcessTree) :
    Option ProcessTree :=
  match s.channels[p.channel]? with
  | some ch =>
      (failedInbox pid taken ch.inbox).map fun inbox =>
        { s with
          channels := s.channels.set p.channel { ch with inbox := inbox, watched := false }
          procs := s.procs.set pid { p with listening := false } }
  | none => none

/-- `ngx_worker_process_cycle` behind `ngx_process_events_and_timers`. -/
def workerCycle (p : ChannelProc) : ChannelProc :=
  if p.terminate then { p with alive := false }
  else
    { p with
      quit := false, exiting := p.exiting || p.quit, reopen := false, log := p.log ++ [.cycle] }

/-- A step of process `pid`. -/
def channelProcStep (pid : Nat) (p : ChannelProc) (s : ProcessTree) :
    ChannelProcEvent → Option ProcessTree
  | .read => if p.listening then some (channelHandler pid p s) else none
  | .readFails taken => if p.listening then channelFails pid p taken s else none
  | .cycle => some { s with procs := s.procs.set pid (workerCycle p) }
  | .fork => some { s with procs := s.procs ++ [p] }
  | .exit => some { s with procs := s.procs.set pid { p with alive := false } }

/-- One step of the system. -/
def treeStep (s : ProcessTree) : TreeEvent → Option ProcessTree
  | .spawn slot kind => spawnProcess slot kind s
  | .passOpen i slot sent => passOpenChannel i slot sent s
  | .signal i signo sent found => signalWorker i signo sent found s
  | .waitpid pid => waitpidWorker pid s
  | .reap i => reapWorker i s
  | .passClose n slot sent => passCloseChannel n slot sent s
  | .run pid event =>
      match s.procs[pid]? with
      | some p => if p.alive then channelProcStep pid p s event else none
      | none => none

/-- The master before it spawns the first worker. -/
def ProcessTree.start : ProcessTree := ⟨[], [], []⟩

/-- Process `pid` runs. -/
def ProcessTree.alive (s : ProcessTree) (pid : Nat) : Bool := (s.procs[pid]?).any (·.alive)

/-- Process `pid` has not closed the connection of its channel. -/
def ProcessTree.listens (s : ProcessTree) (pid : Nat) : Bool := (s.procs[pid]?).any (·.listening)

/-- The worker of a channel will hear of what is written there. -/
def ProcessTree.hears (s : ProcessTree) (ch : WorkerChannel) : Prop :=
  s.alive ch.owner = true ∧ s.listens ch.owner = true ∧ ch.watched = true

instance (s : ProcessTree) (ch : WorkerChannel) : Decidable (s.hears ch) :=
  inferInstanceAs (Decidable (_ ∧ _))

/-- What a worker has been brought to: it leaves when its connections are done, it
ends at once, it will open its logs anew, and it knows these processes and
channels. -/
structure WorkerView where
  leaving : Bool
  ending : Bool
  reopening : Bool
  table : Nat → Option Nat × Option Nat

/-- What a command is for. -/
def WorkerView.hear (v : WorkerView) : ChannelCommand → WorkerView
  | .quit => { v with leaving := true }
  | .terminate => { v with ending := true }
  | .reopen => { v with reopening := true }
  | .openChannel pid slot fd =>
      { v with table := Function.update v.table slot (some pid, some fd) }
  | .closeChannel _ slot => { v with table := Function.update v.table slot ((v.table slot).1, none) }

/-- A signal is for the same as its command; the logs are opened in a cycle. -/
def WorkerView.act (v : WorkerView) : ChannelAct → WorkerView
  | .command c => v.hear c
  | .signal signo => signo.command.elim v v.hear
  | .cycle => { v with reopening := false }

/-- A worker that has begun. -/
def WorkerView.begun (peers : List (Option Nat × Option Nat)) : WorkerView :=
  ⟨false, false, false, fun i => peers.getD i (none, none)⟩

/-- The flags and the table of a process. -/
def ChannelProc.view (p : ChannelProc) : WorkerView :=
  ⟨p.quit || p.exiting, p.terminate, p.reopen, fun i => p.peers.getD i (none, none)⟩

/-- A process is in the state that its record says. -/
def ChannelProc.Accounted (p : ChannelProc) : Prop :=
  p.view = p.log.foldl WorkerView.act (.begun p.first)

/-- The commands that a process has applied. -/
def ChannelProc.applied (p : ChannelProc) : List ChannelCommand :=
  p.log.filterMap fun
    | .command c => some c
    | _ => none

/-- Every command that was written to the channel of a worker was read by this
worker, once and in order, and has had its effect there, or waits for the worker,
which hears of it. -/
structure CommandsKept (s : ProcessTree) : Prop where
  own : ∀ ch ∈ s.channels, ch.inbox.written = ch.inbox.takenBy ch.owner ++ ch.inbox.pending
  heard : ∀ ch ∈ s.channels, ch.inbox.pending ≠ [] → s.hears ch
  applied : ∀ ch ∈ s.channels, ∀ p, s.procs[ch.owner]? = some p →
    p.applied = ch.inbox.takenBy ch.owner ∧ p.Accounted

/-! ## What a step does to the channels -/

/-- The channel that a step writes to. -/
def writtenChannel (s : ProcessTree) : TreeEvent → Option WorkerChannel
  | .passOpen i slot sent =>
      match s.slots[i]?, s.slots[slot]? with
      | some e, some new =>
          if i ≠ slot ∧ e.pid.isSome ∧ new.pid.isSome ∧ new.channel.isSome ∧ sent then
            e.channel.bind fun c => s.channels[c]?
          else none
      | _, _ => none
  | .signal i signo sent _ =>
      match s.slots[i]? with
      | some e =>
          if e.pid.isSome ∧ !e.justSpawn ∧ ¬ (e.exiting ∧ signo = .shutdown) ∧
              signo.command.isSome ∧ sent then
            e.channel.bind fun c => s.channels[c]?
          else none
      | none => none
  | .passClose n slot sent =>
      match s.slots[n]?, s.slots[slot]? with
      | some e, some _ =>
          if !e.exited ∧ e.pid.isSome ∧ sent then e.channel.bind fun c => s.channels[c]? else none
      | _, _ => none
  | _ => none

/-- The process that ends in a step. -/
def dyingProc (s : ProcessTree) : TreeEvent → Option Nat
  | .run pid .exit => some pid
  | .run pid .cycle =>
      match s.procs[pid]? with
      | some p => if p.terminate then some pid else none
      | none => none
  | _ => none

/-- A process, and the channel it reads. -/
def channelOf (s : ProcessTree) (pid : Nat) : Option (Nat × WorkerChannel) :=
  match s.procs[pid]? with
  | some p => (s.channels[p.channel]?).map fun ch => (pid, ch)
  | none => none

/-- The process that reads in a step, and the channel it reads. -/
def readChannel (s : ProcessTree) : TreeEvent → Option (Nat × WorkerChannel)
  | .run pid .read => channelOf s pid
  | _ => none

/-- The process whose read fails in a step, and the channel it closes. -/
def failedChannel (s : ProcessTree) : TreeEvent → Option (Nat × WorkerChannel)
  | .run pid (.readFails _) => channelOf s pid
  | _ => none

/-- The steps that lose no command: the master writes to a worker that hears of it,
no process ends with commands in the channel that was made for it, a process
that was not started for a channel finds it empty, and a read that fails finds it
empty too. -/
def CommandOk (s : ProcessTree) (a : TreeEvent) : Prop :=
  (∀ ch ∈ writtenChannel s a, s.hears ch) ∧
    (∀ pid ∈ dyingProc s a, ∀ ch ∈ s.channels, ch.owner = pid → ch.inbox.pending = []) ∧
    (∀ e ∈ readChannel s a, e.2.inbox.pending ≠ [] → e.2.owner = e.1) ∧
    ∀ e ∈ failedChannel s a, e.2.inbox.pending = []

instance (s : ProcessTree) (a : TreeEvent) : Decidable (CommandOk s a) :=
  inferInstanceAs (Decidable (_ ∧ _))

/-- What a step does to the processes that were there. -/
inductive ProcEffect
  | nothing
  | ends (pid : Nat)
  /-- Process `pid` closes its channel. -/
  | closes (pid : Nat)
  /-- Process `pid` applies a command. -/
  | applies (pid : Nat) (command : ChannelCommand)
  deriving DecidableEq

/-- What process `q` applies. -/
def ProcEffect.appliedBy (q : Nat) : ProcEffect → List ChannelCommand
  | .applies pid command => if pid = q then [command] else []
  | _ => []

/-- A process as a step leaves it. -/
structure ProcKept (q : Nat) (e : ProcEffect) (p p' : ChannelProc) : Prop where
  channel : p'.channel = p.channel
  alive : p'.alive = (p.alive && decide (e ≠ .ends q))
  listening : p'.listening = (p.listening && decide (e ≠ .closes q))
  applied : p'.applied = p.applied ++ e.appliedBy q
  accounted : p.Accounted → p'.Accounted

/-- The processes are still there, and read the same channels. -/
def ProcsKept (s : ProcessTree) (e : ProcEffect) (t : ProcessTree) : Prop :=
  ∀ q p, s.procs[q]? = some p → ∃ p', t.procs[q]? = some p' ∧ ProcKept q e p p'

/-- What a step does to the channels. -/
inductive ChannelsChange (s : ProcessTree) (a : TreeEvent) (t : ProcessTree) : ProcEffect → Prop
  | same (hchannels : t.channels = s.channels) (hwrite : writtenChannel s a = none)
      (hdying : dyingProc s a = none) (hread : ∀ e ∈ readChannel s a, e.2.inbox.pending = [])
      (hfail : failedChannel s a = none) : ChannelsChange s a t .nothing
  | ends (pid : Nat) (hchannels : t.channels = s.channels) (hwrite : writtenChannel s a = none)
      (hdying : dyingProc s a = some pid) (hread : readChannel s a = none)
      (hfail : failedChannel s a = none) : ChannelsChange s a t (.ends pid)
  | write (c : Nat) (ch : WorkerChannel) (command : ChannelCommand)
      (hc : s.channels[c]? = some ch) (hwrite : writtenChannel s a = some ch)
      (hdying : dyingProc s a = none) (hread : readChannel s a = none)
      (hfail : failedChannel s a = none)
      (hchannels : t.channels = s.channels.set c { ch with inbox := ch.inbox.write command }) :
      ChannelsChange s a t .nothing
  | read (c pid : Nat) (ch : WorkerChannel) (command : ChannelCommand)
      (inbox : Inbox Nat ChannelCommand) (hc : s.channels[c]? = some ch)
      (hread : readChannel s a = some (pid, ch)) (hwrite : writtenChannel s a = none)
      (hdying : dyingProc s a = none) (hfail : failedChannel s a = none)
      (htaken : ch.inbox.read pid = some (command, inbox))
      (hchannels : t.channels = s.channels.set c { ch with inbox := inbox }) :
      ChannelsChange s a t (.applies pid command)
  | fail (c pid : Nat) (ch : WorkerChannel) (inbox : Inbox Nat ChannelCommand)
      (hc : s.channels[c]? = some ch) (hfail : failedChannel s a = some (pid, ch))
      (hp : ∃ p, s.procs[pid]? = some p ∧ p.channel = c)
      (hwrite : writtenChannel s a = none) (hdying : dyingProc s a = none)
      (hread : readChannel s a = none)
      (hinbox : inbox = ch.inbox ∨ ∃ command, ch.inbox.read pid = some (command, inbox))
      (hchannels : t.channels = s.channels.set c { ch with inbox := inbox, watched := false }) :
      ChannelsChange s a t (.closes pid)
  | spawn (p : ChannelProc) (hwrite : writtenChannel s a = none) (hread : readChannel s a = none)
      (hdying : dyingProc s a = none) (hfail : failedChannel s a = none)
      (hp : t.procs = s.procs ++ [p]) (hchannel : p.channel = s.channels.length)
      (hrun : p.alive = true ∧ p.listening = true) (happlied : p.applied = [])
      (haccounted : p.Accounted)
      (hchannels : t.channels = s.channels ++ [⟨s.procs.length, true, .empty⟩]) :
      ChannelsChange s a t .nothing

/-! ### The state of a process and its record -/

/-- One more act behind a record. -/
theorem ChannelProc.Accounted.act {p p' : ChannelProc} (h : p.Accounted) {a : ChannelAct}
    (hview : p'.view = p.view.act a) (hlog : p'.log = p.log ++ [a]) (hfirst : p'.first = p.first) :
    p'.Accounted := by
  unfold ChannelProc.Accounted at h ⊢
  rw [hview, hlog, hfirst, List.foldl_append, ← h]
  rfl

/-- The entry of a table behind a change of one place. -/
theorem setPeer_table (p : ChannelProc) (slot : Nat)
    (f : Option Nat × Option Nat → Option Nat × Option Nat) (i : Nat) :
    (p.setPeer slot f).peers.getD i (none, none)
      = if i = slot then f (p.peers.getD slot (none, none)) else p.peers.getD i (none, none) := by
  have hpad : ∀ k, (p.peers ++ List.replicate (slot + 1 - p.peers.length) (none, none)).getD k
      (none, none) = p.peers.getD k (none, none) := by
    intro k
    rw [List.getD_eq_getElem?_getD, List.getD_eq_getElem?_getD, List.getElem?_append]
    split
    · rfl
    · rw [List.getElem?_replicate, List.getElem?_eq_none (by omega)]
      split <;> rfl
  have hlen : slot < (p.peers ++ List.replicate (slot + 1 - p.peers.length)
      ((none, none) : Option Nat × Option Nat)).length := by
    rw [List.length_append, List.length_replicate]
    omega
  unfold ChannelProc.setPeer
  by_cases hi : i = slot
  · subst hi
    rw [if_pos rfl, ← hpad i]
    simp [List.getD_eq_getElem?_getD, List.getElem?_eq_getElem hlen]
  · rw [if_neg hi, ← hpad i]
    simp [List.getD_eq_getElem?_getD, Ne.symm hi]

/-- **A command has the effect that it is for.** -/
theorem apply_view (p : ChannelProc) (command : ChannelCommand) :
    (p.apply command).view = p.view.hear command := by
  cases command with
  | openChannel pid slot fd =>
      simp only [ChannelProc.view, WorkerView.hear, ChannelProc.apply]
      congr 1
      funext i
      simp only [setPeer_table, Function.update_apply]
  | closeChannel pid slot =>
      simp only [ChannelProc.view, WorkerView.hear, ChannelProc.apply]
      congr 1
      funext i
      simp only [setPeer_table, Function.update_apply]
  | quit => simp [ChannelProc.view, WorkerView.hear, ChannelProc.apply]
  | terminate => rfl
  | reopen => rfl

theorem apply_log (p : ChannelProc) (command : ChannelCommand) :
    (p.apply command).log = p.log ++ [.command command] ∧ (p.apply command).first = p.first ∧
      (p.apply command).channel = p.channel ∧ (p.apply command).alive = p.alive ∧
      (p.apply command).listening = p.listening := by
  cases command <;> exact ⟨rfl, rfl, rfl, rfl, rfl⟩

/-- A process that applies a command. -/
theorem apply_kept (q : Nat) (p : ChannelProc) (command : ChannelCommand) :
    ProcKept q (.applies q command) p (p.apply command) := by
  obtain ⟨hlog, hfirst, hchannel, halive, hlistening⟩ := apply_log p command
  refine ⟨hchannel, by simp [halive], by simp [hlistening], ?_, fun h => ?_⟩
  · simp [ChannelProc.applied, hlog, ProcEffect.appliedBy]
  · exact h.act (a := .command command) (apply_view p command) hlog hfirst

/-- A process that gets a signal. -/
theorem signal_kept (q : Nat) (p : ChannelProc) (signo : MasterSignal) :
    ProcKept q .nothing p (p.signal signo) := by
  have hlog : (p.signal signo).log = p.log ++ [.signal signo] := by cases signo <;> rfl
  refine ⟨by cases signo <;> rfl, by cases signo <;> simp [ChannelProc.signal],
    by cases signo <;> simp [ChannelProc.signal], ?_, fun h => ?_⟩
  · simp [ChannelProc.applied, hlog, ProcEffect.appliedBy]
  · refine h.act ?_ hlog (by cases signo <;> rfl)
    cases signo <;> simp [ChannelProc.view, ChannelProc.signal, WorkerView.act, WorkerView.hear,
      MasterSignal.command]

/-- A turn of the worker's loop. -/
theorem workerCycle_kept (q : Nat) (p : ChannelProc) :
    ProcKept q (if p.terminate then .ends q else .nothing) p (workerCycle p) := by
  unfold workerCycle
  split
  · exact ⟨rfl, by simp, by simp, by simp [ChannelProc.applied, ProcEffect.appliedBy], id⟩
  · refine ⟨rfl, by simp, by simp, by simp [ChannelProc.applied, ProcEffect.appliedBy], fun h => ?_⟩
    refine h.act ?_ rfl rfl
    simp [ChannelProc.view, WorkerView.act, Bool.or_comm]

theorem procKept_self (q : Nat) {e : ProcEffect} (p : ChannelProc) (hends : e ≠ .ends q)
    (hcloses : e ≠ .closes q) (happlied : e.appliedBy q = []) : ProcKept q e p p :=
  ⟨rfl, by simp [hends], by simp [hcloses], by simp [happlied], id⟩

/-- Processes that are not touched are kept. -/
theorem procsKept_of_eq {s t : ProcessTree} (h : t.procs = s.procs) : ProcsKept s .nothing t :=
  fun q p hp => ⟨p, h ▸ hp, procKept_self q p (by simp) (by simp) rfl⟩

/-- Processes in front of a new one are kept. -/
theorem procsKept_append {s t : ProcessTree} {p : ChannelProc} (h : t.procs = s.procs ++ [p]) :
    ProcsKept s .nothing t := by
  intro q p' hp
  have hlt := (List.getElem?_eq_some_iff.mp hp).1
  exact ⟨p', by rw [h, List.getElem?_append_left hlt, hp], procKept_self q p' (by simp) (by simp) rfl⟩

/-- A process gets a signal. -/
theorem procsKept_signal {s t : ProcessTree} {pid : Nat} {signo : MasterSignal}
    (h : t.procs = s.procs.modify pid (ChannelProc.signal signo)) : ProcsKept s .nothing t := by
  intro q p hp
  rw [h, List.getElem?_modify, hp]
  by_cases hq : pid = q
  · exact ⟨p.signal signo, by simp [hq], signal_kept q p signo⟩
  · exact ⟨p, by simp [hq], procKept_self q p (by simp) (by simp) rfl⟩

/-- Processes are kept by a step of one of them. -/
theorem procsKept_set {s t : ProcessTree} {pid : Nat} {p p' : ChannelProc} {e : ProcEffect}
    (hp : s.procs[pid]? = some p) (h : t.procs = s.procs.set pid p') (hkept : ProcKept pid e p p')
    (hother : ∀ q, q ≠ pid → e ≠ .ends q ∧ e ≠ .closes q ∧ e.appliedBy q = []) :
    ProcsKept s e t := by
  intro q r hr
  have hlt := (List.getElem?_eq_some_iff.mp hp).1
  by_cases hq : q = pid
  · subst hq
    obtain rfl := Option.some.inj (hp.symm.trans hr)
    exact ⟨p', by rw [h, List.getElem?_set_self hlt], hkept⟩
  · obtain ⟨hends, hcloses, happlied⟩ := hother q hq
    exact ⟨r, by rw [h, List.getElem?_set_ne (Ne.symm hq), hr],
      procKept_self q r hends hcloses happlied⟩

/-- Writing to a channel is a change of this channel. -/
theorem channels_writeChannel {s : ProcessTree} {c : Nat} {ch : WorkerChannel}
    (hc : s.channels[c]? = some ch) (command : ChannelCommand) :
    (s.writeChannel c command).channels
      = s.channels.set c { ch with inbox := ch.inbox.write command } := by
  obtain ⟨hlt, rfl⟩ := List.getElem?_eq_some_iff.mp hc
  simp [ProcessTree.writeChannel, List.modify_eq_set_getElem?, hlt]

/-- A write is the change of a channel, or of nothing when there is none. -/
theorem channelsChange_write {s t : ProcessTree} {a : TreeEvent} {c : Nat}
    {command : ChannelCommand} (hwrite : writtenChannel s a = s.channels[c]?)
    (hdying : dyingProc s a = none) (hread : readChannel s a = none)
    (hfail : failedChannel s a = none)
    (hchannels : t.channels = (s.writeChannel c command).channels) :
    ChannelsChange s a t .nothing := by
  cases hc : s.channels[c]? with
  | none =>
      refine .same ?_ (hwrite.trans hc) hdying (by simp [hread]) hfail
      rw [hchannels]
      exact List.modify_eq_self (List.getElem?_eq_none_iff.mp hc)
  | some ch =>
      exact .write c ch command hc (hwrite.trans hc) hdying hread hfail
        (hchannels.trans (channels_writeChannel hc command))

/-- What `ngx_pass_open_channel` does. -/
theorem passOpenChannel_cases {i slot : Nat} {sent : Bool} {s t : ProcessTree}
    (h : passOpenChannel i slot sent s = some t) :
    (t = s ∧ writtenChannel s (.passOpen i slot sent) = none) ∨
      ∃ c command, t = s.writeChannel c command ∧
        writtenChannel s (.passOpen i slot sent) = s.channels[c]? := by
  unfold passOpenChannel at h
  unfold writtenChannel
  split at h
  case h_1 e new he hnew =>
    simp only [he, hnew]
    split at h
    case isTrue hsame =>
      obtain rfl := Option.some.inj h
      exact Or.inl ⟨rfl, by simp [hsame]⟩
    case isFalse hother =>
      split at h
      case h_1 epid c pid fd hpid hchannel hnewpid hfd =>
        obtain rfl := Option.some.inj h
        cases sent with
        | true => exact Or.inr ⟨c, _, rfl, by simp [hother, hpid, hchannel, hnewpid, hfd]⟩
        | false => exact Or.inl ⟨rfl, by simp⟩
      case h_2 hnone =>
        obtain rfl := Option.some.inj h
        refine Or.inl ⟨rfl, ?_⟩
        split
        case isTrue hall =>
          obtain ⟨-, hpid, hnewpid, hfd, -⟩ := hall
          obtain ⟨epid, hpid⟩ := Option.isSome_iff_exists.mp hpid
          obtain ⟨pid, hnewpid⟩ := Option.isSome_iff_exists.mp hnewpid
          obtain ⟨fd, hfd⟩ := Option.isSome_iff_exists.mp hfd
          cases hchannel : e.channel with
          | none => rfl
          | some c => exact absurd hfd (hnone epid c pid fd hpid hchannel hnewpid)
        case isFalse => rfl
  case h_2 => cases h

/-- What the inner loop of `ngx_reap_children` does. -/
theorem passCloseChannel_cases {n slot : Nat} {sent : Bool} {s t : ProcessTree}
    (h : passCloseChannel n slot sent s = some t) :
    (t = s ∧ writtenChannel s (.passClose n slot sent) = none) ∨
      ∃ c command, t = s.writeChannel c command ∧
        writtenChannel s (.passClose n slot sent) = s.channels[c]? := by
  unfold passCloseChannel at h
  unfold writtenChannel
  split at h
  case h_1 e closed he hclosed =>
    simp only [he, hclosed]
    split at h
    case isTrue hexited =>
      obtain rfl := Option.some.inj h
      exact Or.inl ⟨rfl, by simp [hexited]⟩
    case isFalse hexited =>
      split at h
      case h_1 pid c hpid hchannel =>
        obtain rfl := Option.some.inj h
        cases sent with
        | true => exact Or.inr ⟨c, _, rfl, by simp [hexited, hpid, hchannel]⟩
        | false => exact Or.inl ⟨rfl, by simp⟩
      case h_2 hnone =>
        obtain rfl := Option.some.inj h
        refine Or.inl ⟨rfl, ?_⟩
        split
        case isTrue hall =>
          obtain ⟨-, hpid, -⟩ := hall
          obtain ⟨pid, hpid⟩ := Option.isSome_iff_exists.mp hpid
          cases hchannel : e.channel with
          | none => rfl
          | some c => exact absurd hchannel (hnone pid c hpid)
        case isFalse => rfl
  case h_2 => cases h

/-- `kill` leaves the channels alone, and every process where it is. -/
theorem killWorker_kept (i : Nat) (e : ProcessSlot) (pid : Nat) (signo : MasterSignal)
    (found : Bool) (s : ProcessTree) :
    (killWorker i e pid signo found s).channels = s.channels ∧
      ProcsKept s .nothing (killWorker i e pid signo found s) := by
  unfold killWorker
  split
  · simp only
    split
    · exact ⟨rfl, procsKept_signal rfl⟩
    · exact ⟨rfl, procsKept_signal rfl⟩
  · exact ⟨rfl, procsKept_of_eq rfl⟩

/-- What `ngx_signal_worker_processes` does. -/
theorem signalWorker_cases {i : Nat} {signo : MasterSignal} {sent found : Bool} {s t : ProcessTree}
    (h : signalWorker i signo sent found s = some t) :
    ProcsKept s .nothing t ∧
      ((t.channels = s.channels ∧ writtenChannel s (.signal i signo sent found) = none) ∨
        ∃ c command, t.channels = (s.writeChannel c command).channels ∧
          writtenChannel s (.signal i signo sent found) = s.channels[c]?) := by
  unfold signalWorker at h
  unfold writtenChannel
  split at h
  case h_1 => cases h
  case h_2 e he =>
    simp only [he]
    split at h
    case h_1 hpid =>
      obtain rfl := Option.some.inj h
      exact ⟨procsKept_of_eq rfl, Or.inl ⟨rfl, by simp [hpid]⟩⟩
    case h_2 pid hpid =>
      split at h
      case isTrue hjust =>
        obtain rfl := Option.some.inj h
        exact ⟨procsKept_of_eq rfl, Or.inl ⟨rfl, by simp [hjust]⟩⟩
      case isFalse hjust =>
        split at h
        case isTrue hexiting =>
          obtain rfl := Option.some.inj h
          exact ⟨procsKept_of_eq rfl, Or.inl ⟨rfl, by simp [hexiting]⟩⟩
        case isFalse hexiting =>
          split at h
          case h_1 _ command c hcommand hchannel =>
            have hwritten : (if e.pid.isSome ∧ !e.justSpawn ∧ ¬ (e.exiting ∧ signo = .shutdown) ∧
                signo.command.isSome ∧ true then e.channel.bind fun c => s.channels[c]? else none)
                = s.channels[c]? := by
              rw [if_pos (by simp [hpid, hjust, hcommand, hexiting]), hchannel, Option.bind_some]
            split at h
            · obtain rfl := Option.some.inj h
              exact ⟨procsKept_of_eq rfl, Or.inr ⟨c, command, rfl, hwritten⟩⟩
            · obtain rfl := Option.some.inj h
              exact ⟨procsKept_of_eq rfl, Or.inr ⟨c, command, rfl, hwritten⟩⟩
          case h_2 hnone =>
            obtain rfl := Option.some.inj h
            obtain ⟨hchannels, hprocs⟩ := killWorker_kept i e pid signo found s
            refine ⟨hprocs, Or.inl ⟨hchannels, ?_⟩⟩
            split
            case isTrue hall =>
              obtain ⟨-, -, -, hcommand, hsent⟩ := hall
              obtain ⟨command, hcommand⟩ := Option.isSome_iff_exists.mp hcommand
              cases hchannel : e.channel with
              | none => rfl
              | some c => exact absurd hsent (hnone command c hcommand hchannel)
            case isFalse => rfl

/-- What `ngx_spawn_process` does. -/
theorem spawnProcess_cases {slot : Nat} {kind : SpawnKind} {s t : ProcessTree}
    (h : spawnProcess slot kind s = some t) :
    ∃ slots, t = ⟨slots, s.procs ++ [spawnedProc s.channels.length slot s.slots],
      s.channels ++ [⟨s.procs.length, true, .empty⟩]⟩ := by
  simp only [spawnProcess] at h
  split at h
  case h_2 => cases h
  all_goals
    split at h
    · obtain rfl := Option.some.inj h
      exact ⟨_, rfl⟩
    · cases h

/-- What a turn of the loop of `ngx_channel_handler` does. -/
theorem channelHandler_cases {pid : Nat} {p : ChannelProc} {s : ProcessTree}
    (hp : s.procs[pid]? = some p) :
    ∃ e, ProcsKept s e (channelHandler pid p s) ∧
      ChannelsChange s (.run pid .read) (channelHandler pid p s) e := by
  have hreads : readChannel s (.run pid .read) = (s.channels[p.channel]?).map fun ch => (pid, ch) := by
    simp only [readChannel, channelOf, hp]
  unfold channelHandler
  split
  case h_1 ch hch =>
    rw [hch, Option.map_some] at hreads
    split
    case h_1 command inbox hread =>
      refine ⟨.applies pid command, procsKept_set hp rfl (apply_kept pid p command) ?_, ?_⟩
      · exact fun q hq => ⟨by simp, by simp, by simp [ProcEffect.appliedBy, Ne.symm hq]⟩
      · exact .read p.channel pid ch command inbox hch hreads rfl rfl rfl hread rfl
    case h_2 hread =>
      refine ⟨.nothing, procsKept_of_eq rfl, .same rfl rfl rfl ?_ rfl⟩
      intro e he
      obtain rfl := Option.some.inj (hreads.symm.trans he)
      cases hpending : ch.inbox.pending with
      | nil => rfl
      | cons m rest => simp [Inbox.read, hpending] at hread
  case h_2 hch =>
    rw [hch] at hreads
    exact ⟨.nothing, procsKept_of_eq rfl, .same rfl rfl rfl (by simp [hreads]) rfl⟩

/-- What a failed read leaves. -/
theorem failedInbox_cases {pid : Nat} {taken : Bool} {inbox rest : Inbox Nat ChannelCommand}
    (h : failedInbox pid taken inbox = some rest) :
    rest = inbox ∨ ∃ command, inbox.read pid = some (command, rest) := by
  unfold failedInbox at h
  split at h
  · split at h
    case h_1 hread =>
      obtain rfl := Option.some.inj h
      exact Or.inr ⟨_, hread⟩
    case h_2 => cases h
  · exact Or.inl (Option.some.inj h).symm

/-- What the error branch of `ngx_channel_handler` does. -/
theorem channelFails_cases {pid : Nat} {p : ChannelProc} {taken : Bool} {s t : ProcessTree}
    (hp : s.procs[pid]? = some p) (h : channelFails pid p taken s = some t) :
    ProcsKept s (.closes pid) t ∧ ChannelsChange s (.run pid (.readFails taken)) t (.closes pid) := by
  unfold channelFails at h
  split at h
  case h_2 => cases h
  case h_1 ch hch =>
    obtain ⟨inbox, hinbox, rfl⟩ := Option.map_eq_some_iff.mp h
    have hfails : failedChannel s (.run pid (.readFails taken)) = some (pid, ch) := by
      simp only [failedChannel, channelOf, hp, hch, Option.map_some]
    refine ⟨procsKept_set hp rfl ⟨rfl, by simp, by simp, ?_, id⟩ ?_, ?_⟩
    · simp [ChannelProc.applied, ProcEffect.appliedBy]
    · exact fun q hq => ⟨by simp, by simp [Ne.symm hq], rfl⟩
    · exact .fail p.channel pid ch inbox hch hfails ⟨p, hp, rfl⟩ rfl rfl rfl (failedInbox_cases hinbox) rfl

/-- A worker that has just been started. -/
theorem spawnedProc_accounted (c slot : Nat) (slots : List ProcessSlot) :
    (spawnedProc c slot slots).Accounted := rfl

/-- **What a step can do**, to the processes and to the channels. -/
theorem treeStep_cases {s t : ProcessTree} {a : TreeEvent} (h : treeStep s a = some t) :
    ∃ e, ProcsKept s e t ∧ ChannelsChange s a t e := by
  cases a with
  | spawn slot kind =>
      obtain ⟨slots, rfl⟩ := spawnProcess_cases h
      exact ⟨.nothing, procsKept_append rfl, .spawn _ rfl rfl rfl rfl rfl rfl ⟨rfl, rfl⟩ rfl
        (spawnedProc_accounted _ _ _) rfl⟩
  | passOpen i slot sent =>
      rcases passOpenChannel_cases h with ⟨rfl, hnone⟩ | ⟨c, command, rfl, hwrite⟩
      · exact ⟨.nothing, procsKept_of_eq rfl, .same rfl hnone rfl (by simp [readChannel]) rfl⟩
      · exact ⟨.nothing, procsKept_of_eq rfl, channelsChange_write hwrite rfl rfl rfl rfl⟩
  | signal i signo sent found =>
      obtain ⟨hprocs, ⟨hchannels, hnone⟩ | ⟨c, command, hchannels, hwrite⟩⟩ := signalWorker_cases h
      · exact ⟨.nothing, hprocs, .same hchannels hnone rfl (by simp [readChannel]) rfl⟩
      · exact ⟨.nothing, hprocs, channelsChange_write hwrite rfl rfl rfl hchannels⟩
  | waitpid pid =>
      simp only [treeStep, waitpidWorker] at h
      split at h
      · split at h
        · cases h
        · obtain rfl := Option.some.inj h
          exact ⟨.nothing, procsKept_of_eq rfl, .same rfl rfl rfl (by simp [readChannel]) rfl⟩
      · cases h
  | reap i =>
      simp only [treeStep, reapWorker] at h
      split at h
      · split at h
        · obtain rfl := Option.some.inj h
          exact ⟨.nothing, procsKept_of_eq rfl, .same rfl rfl rfl (by simp [readChannel]) rfl⟩
        · cases h
      · cases h
  | passClose n slot sent =>
      rcases passCloseChannel_cases h with ⟨rfl, hnone⟩ | ⟨c, command, rfl, hwrite⟩
      · exact ⟨.nothing, procsKept_of_eq rfl, .same rfl hnone rfl (by simp [readChannel]) rfl⟩
      · exact ⟨.nothing, procsKept_of_eq rfl, channelsChange_write hwrite rfl rfl rfl rfl⟩
  | run pid event =>
      simp only [treeStep] at h
      split at h
      case h_2 => cases h
      case h_1 p hp =>
        split at h
        case isFalse => cases h
        case isTrue halive =>
          cases event with
          | read =>
              simp only [channelProcStep] at h
              split at h
              · obtain rfl := Option.some.inj h
                exact channelHandler_cases hp
              · cases h
          | readFails taken =>
              simp only [channelProcStep] at h
              split at h
              · exact ⟨_, channelFails_cases hp h⟩
              · cases h
          | fork =>
              obtain rfl := Option.some.inj h
              exact ⟨.nothing, procsKept_append rfl, .same rfl rfl rfl (by simp [readChannel]) rfl⟩
          | exit =>
              obtain rfl := Option.some.inj h
              refine ⟨.ends pid, procsKept_set hp rfl ⟨rfl, by simp, by simp, ?_, id⟩ ?_,
                .ends pid rfl rfl rfl rfl rfl⟩
              · simp [ChannelProc.applied, ProcEffect.appliedBy]
              · exact fun q hq => ⟨by simp [Ne.symm hq], by simp, rfl⟩
          | cycle =>
              obtain rfl := Option.some.inj h
              have hkept := workerCycle_kept pid p
              cases hterminate : p.terminate <;> rw [hterminate] at hkept
              · have hdying : dyingProc s (.run pid .cycle) = none := by
                  simp [dyingProc, hp, hterminate]
                exact ⟨.nothing, procsKept_set hp rfl hkept fun q hq => ⟨by simp, by simp, rfl⟩,
                  .same rfl rfl hdying (by simp [readChannel]) rfl⟩
              · have hdying : dyingProc s (.run pid .cycle) = some pid := by
                  simp [dyingProc, hp, hterminate]
                exact ⟨.ends pid, procsKept_set hp rfl hkept fun q hq =>
                  ⟨by simp [Ne.symm hq], by simp, rfl⟩, .ends pid rfl rfl hdying rfl rfl⟩

/-! ## Commands that are lost, and those that are not -/

/-- What holds in every run: each channel is read by the process it was made
for, which is in the state that its record says, and loses nothing by itself. -/
structure TreeSound (s : ProcessTree) : Prop where
  reads : ∀ (c : Nat) (ch : WorkerChannel), s.channels[c]? = some ch →
    ∃ p, s.procs[ch.owner]? = some p ∧ p.channel = c ∧ p.Accounted
  conserved : ∀ ch ∈ s.channels, ch.inbox.Conserved

/-- There is nothing before the first worker. -/
theorem treeSound_start : TreeSound .start :=
  ⟨fun c ch h => by simp [ProcessTree.start] at h, fun ch h => by simp [ProcessTree.start] at h⟩

/-- There is nothing to keep before the first worker. -/
theorem commandsKept_start : CommandsKept .start :=
  ⟨fun ch h => by simp [ProcessTree.start] at h, fun ch h => by simp [ProcessTree.start] at h,
    fun ch h => by simp [ProcessTree.start] at h⟩

/-- No process was started for two channels. -/
theorem TreeSound.owner_ne {s : ProcessTree} (hs : TreeSound s) {c k : Nat} {ch x : WorkerChannel}
    (hc : s.channels[c]? = some ch) (hk : s.channels[k]? = some x) (hne : k ≠ c) :
    x.owner ≠ ch.owner := by
  intro howner
  obtain ⟨p, hp, rfl, -⟩ := hs.reads c ch hc
  obtain ⟨p', hp', rfl, -⟩ := hs.reads k x hk
  rw [howner] at hp'
  obtain rfl := Option.some.inj (hp.symm.trans hp')
  exact hne rfl

/-- The owner of a channel, in front of a step and behind it. -/
theorem TreeSound.owner {s t : ProcessTree} {e : ProcEffect} (hs : TreeSound s)
    (h : ProcsKept s e t) {c : Nat} {ch : WorkerChannel} (hc : s.channels[c]? = some ch) :
    ∃ p p', s.procs[ch.owner]? = some p ∧ t.procs[ch.owner]? = some p' ∧ p.channel = c ∧
      ProcKept ch.owner e p p' := by
  obtain ⟨p, hp, hchannel, -⟩ := hs.reads c ch hc
  obtain ⟨p', hp', hkept⟩ := h ch.owner p hp
  exact ⟨p, p', hp, hp', hchannel, hkept⟩

/-- The owner of a channel is still there and reads it. -/
theorem ProcsKept.reads {s t : ProcessTree} {e : ProcEffect} (h : ProcsKept s e t)
    {q c : Nat} (hs : ∃ p, s.procs[q]? = some p ∧ p.channel = c ∧ p.Accounted) :
    ∃ p, t.procs[q]? = some p ∧ p.channel = c ∧ p.Accounted := by
  obtain ⟨p, hp, hchannel, haccounted⟩ := hs
  obtain ⟨p', hp', hkept⟩ := h q p hp
  exact ⟨p', hp', hkept.channel.trans hchannel, hkept.accounted haccounted⟩

/-- A process that was there runs if it did, and does not end. -/
theorem ProcsKept.alive {s t : ProcessTree} {e : ProcEffect} (h : ProcsKept s e t)
    {q : Nat} {p : ChannelProc} (hp : s.procs[q]? = some p) :
    t.alive q = (s.alive q && decide (e ≠ .ends q)) := by
  obtain ⟨p', hp', hkept⟩ := h q p hp
  simp only [ProcessTree.alive, hp, hp', Option.any_some, hkept.alive]

/-- A process that was there listens if it did, and does not close its channel. -/
theorem ProcsKept.listens {s t : ProcessTree} {e : ProcEffect} (h : ProcsKept s e t)
    {q : Nat} {p : ChannelProc} (hp : s.procs[q]? = some p) :
    t.listens q = (s.listens q && decide (e ≠ .closes q)) := by
  obtain ⟨p', hp', hkept⟩ := h q p hp
  simp only [ProcessTree.listens, hp, hp', Option.any_some, hkept.listening]

/-- The worker of a channel hears of it behind a step exactly if it did, and neither
ends nor closes the channel. -/
theorem TreeSound.hears_iff {s t : ProcessTree} {e : ProcEffect} (hs : TreeSound s)
    (h : ProcsKept s e t) {c : Nat} {ch ch' : WorkerChannel} (hc : s.channels[c]? = some ch)
    (howner : ch'.owner = ch.owner) (hwatched : ch'.watched = ch.watched) :
    t.hears ch' ↔ s.hears ch ∧ e ≠ .ends ch.owner ∧ e ≠ .closes ch.owner := by
  obtain ⟨p, hp, -, -⟩ := hs.reads c ch hc
  unfold ProcessTree.hears
  rw [howner, hwatched, h.alive hp, h.listens hp]
  simp only [Bool.and_eq_true, decide_eq_true_eq]
  constructor
  · rintro ⟨⟨halive, hends⟩, ⟨hlistens, hcloses⟩, hw⟩
    exact ⟨⟨halive, hlistens, hw⟩, hends, hcloses⟩
  · rintro ⟨⟨halive, hlistens, hw⟩, hends, hcloses⟩
    exact ⟨⟨halive, hends⟩, ⟨hlistens, hcloses⟩, hw⟩

/-- A channel of a changed list is the changed one or was there. -/
theorem getElem?_set_cases {channels : List WorkerChannel} {c k : Nat} {ch x : WorkerChannel}
    (h : (channels.set c ch)[k]? = some x) : (k = c ∧ x = ch) ∨ channels[k]? = some x := by
  rw [List.getElem?_set] at h
  split at h
  case isTrue hk =>
    split at h
    · exact Or.inl ⟨hk.symm, (Option.some.inj h).symm⟩
    · cases h
  case isFalse => exact Or.inr h

/-- A channel of a longer list was there or is the new one. -/
theorem getElem?_append_one {channels : List WorkerChannel} {k : Nat} {ch x : WorkerChannel}
    (h : (channels ++ [ch])[k]? = some x) :
    channels[k]? = some x ∨ (k = channels.length ∧ x = ch) := by
  rcases Nat.lt_trichotomy k channels.length with hlt | rfl | hgt
  · rw [List.getElem?_append_left hlt] at h
    exact Or.inl h
  · rw [List.getElem?_concat_length] at h
    exact Or.inr ⟨rfl, (Option.some.inj h).symm⟩
  · rw [List.getElem?_eq_none (by simp only [List.length_append, List.length_singleton]; omega)] at h
    cases h

/-- What holds of every channel and of a new one holds when that takes a place. -/
theorem forall_mem_set {α : Type} {P : α → Prop} {l : List α} {i : Nat} {a : α}
    (hall : ∀ x ∈ l, P x) (ha : P a) : ∀ x ∈ l.set i a, P x := by
  intro x hx
  rcases List.mem_or_eq_of_mem_set hx with hold | rfl
  · exact hall x hold
  · exact ha

/-- What one more message taken adds to what a reader has taken. -/
theorem takenBy_read {pid : Nat} {command : ChannelCommand} {i j : Inbox Nat ChannelCommand}
    (h : i.read pid = some (command, j)) (q : Nat) :
    j.takenBy q = i.takenBy q ++ if pid = q then [command] else [] := by
  obtain ⟨rest, -, rfl⟩ := Inbox.read_eq_some_iff.mp h
  unfold Inbox.takenBy
  rw [List.filter_append, List.map_append]
  by_cases hq : pid = q <;> simp [hq]

/-- **Step lemma.**  Every step keeps the channels sound. -/
theorem TreeSound.step {s t : ProcessTree} {a : TreeEvent} (hs : TreeSound s)
    (h : treeStep s a = some t) : TreeSound t := by
  obtain ⟨e, hprocs, hchange⟩ := treeStep_cases h
  -- a channel that is changed keeps its reader
  have hreads : ∀ {c : Nat} {ch ch' : WorkerChannel}, s.channels[c]? = some ch →
      ch'.owner = ch.owner → ∀ (k : Nat) (x : WorkerChannel),
        (s.channels.set c ch')[k]? = some x →
          ∃ p, t.procs[x.owner]? = some p ∧ p.channel = k ∧ p.Accounted := by
    intro c ch ch' hc howner k x hx
    rcases getElem?_set_cases hx with ⟨rfl, rfl⟩ | hold
    · rw [howner]
      exact hprocs.reads (hs.reads k ch hc)
    · exact hprocs.reads (hs.reads k x hold)
  cases hchange with
  | same hchannels | ends _ hchannels =>
      exact ⟨fun c ch hc => hprocs.reads (hs.reads c ch (hchannels ▸ hc)),
        fun ch hch => hs.conserved ch (hchannels ▸ hch)⟩
  | write c ch command hc hwrite hdying hread hfail hchannels =>
      have hmem := List.mem_of_getElem? hc
      constructor
      · rw [hchannels]
        exact hreads hc rfl
      · rw [hchannels]
        exact forall_mem_set hs.conserved ((hs.conserved ch hmem).write command)
  | read c pid ch command inbox hc hread hwrite hdying hfail htaken hchannels =>
      have hmem := List.mem_of_getElem? hc
      constructor
      · rw [hchannels]
        exact hreads hc rfl
      · rw [hchannels]
        exact forall_mem_set hs.conserved ((hs.conserved ch hmem).read htaken)
  | fail c pid ch inbox hc hfail hp hwrite hdying hread hinbox hchannels =>
      have hmem := List.mem_of_getElem? hc
      constructor
      · rw [hchannels]
        exact hreads hc rfl
      · rw [hchannels]
        refine forall_mem_set hs.conserved ?_
        rcases hinbox with rfl | ⟨command, htaken⟩
        · exact hs.conserved ch hmem
        · exact (hs.conserved ch hmem).read htaken
  | spawn p hwrite hread hdying hfail hp hchannel hrun happlied haccounted hchannels =>
      constructor
      · intro k x hx
        rw [hchannels] at hx
        rcases getElem?_append_one hx with hold | ⟨rfl, rfl⟩
        · exact hprocs.reads (hs.reads k x hold)
        · exact ⟨p, by rw [hp]; exact List.getElem?_concat_length, hchannel, haccounted⟩
      · rw [hchannels]
        exact List.forall_mem_append.mpr
          ⟨hs.conserved, List.forall_mem_singleton.mpr Inbox.conserved_empty⟩

/-- What a worker has applied, behind a step that takes nothing from its channel. -/
theorem CommandsKept.applied_same {s t : ProcessTree} {e : ProcEffect} (hkept : CommandsKept s)
    (hs : TreeSound s) (hprocs : ProcsKept s e t) {c : Nat} {ch ch' : WorkerChannel}
    (hc : s.channels[c]? = some ch) (howner : ch'.owner = ch.owner)
    (htaken : ch'.inbox.takenBy ch.owner = ch.inbox.takenBy ch.owner)
    (happlied : e.appliedBy ch.owner = []) :
    ∀ p, t.procs[ch'.owner]? = some p →
      p.applied = ch'.inbox.takenBy ch'.owner ∧ p.Accounted := by
  intro r hr
  obtain ⟨p, p', hp, hp', -, hproc⟩ := hs.owner hprocs hc
  rw [howner] at hr ⊢
  obtain rfl := Option.some.inj (hp'.symm.trans hr)
  obtain ⟨hold, haccounted⟩ := hkept.applied ch (List.mem_of_getElem? hc) p hp
  refine ⟨?_, hproc.accounted haccounted⟩
  rw [hproc.applied, happlied, List.append_nil, hold, htaken]

/-- **Step lemma.**  A step that the guard allows loses no command. -/
theorem treeStep_kept {s t : ProcessTree} {a : TreeEvent} (hs : TreeSound s)
    (hkept : CommandsKept s) (hok : CommandOk s a) (h : treeStep s a = some t) :
    CommandsKept t := by
  obtain ⟨e, hprocs, hchange⟩ := treeStep_cases h
  obtain ⟨hwriteOk, hdyingOk, hreadOk, hfailOk⟩ := hok
  -- a worker with commands in its channel goes on, and listens
  have hheard : ∀ ch ∈ s.channels, ch.inbox.pending ≠ [] → t.hears ch := by
    intro ch hch hpending
    obtain ⟨k, hk⟩ := List.getElem?_of_mem hch
    refine (hs.hears_iff hprocs hk rfl rfl).mpr ⟨hkept.heard ch hch hpending, ?_, ?_⟩
    · rintro rfl
      cases hchange with
      | ends _ _ _ hdying => exact hpending (hdyingOk ch.owner hdying ch hch rfl)
    · rintro rfl
      cases hchange with
      | fail c pid ch' inbox hc hfail hp =>
          obtain ⟨p, hp, rfl⟩ := hp
          obtain ⟨p', hp', rfl, -⟩ := hs.reads k ch hk
          obtain rfl := Option.some.inj (hp.symm.trans hp')
          obtain rfl := Option.some.inj (hc.symm.trans hk)
          exact hpending (hfailOk _ hfail)
  have hsame : ∀ ch ∈ s.channels, (∀ q, e.appliedBy q = []) → ∀ p, t.procs[ch.owner]? = some p →
      p.applied = ch.inbox.takenBy ch.owner ∧ p.Accounted := by
    intro ch hch happlied
    obtain ⟨k, hk⟩ := List.getElem?_of_mem hch
    exact hkept.applied_same hs hprocs hk rfl rfl (happlied _)
  cases hchange with
  | same hchannels | ends _ hchannels =>
      exact ⟨fun ch hch => hkept.own ch (hchannels ▸ hch),
        fun ch hch => hheard ch (hchannels ▸ hch),
        fun ch hch => hsame ch (hchannels ▸ hch) fun q => rfl⟩
  | write c ch command hc hwrite hdying hread hfail hchannels =>
      have hmem := List.mem_of_getElem? hc
      refine ⟨?_, ?_, ?_⟩ <;> rw [hchannels]
      · exact forall_mem_set hkept.own (Inbox.only_write (hkept.own ch hmem) command)
      · refine forall_mem_set hheard fun _ => ?_
        exact (hs.hears_iff hprocs hc rfl rfl).mpr
          ⟨hwriteOk ch hwrite, ProcEffect.noConfusion, ProcEffect.noConfusion⟩
      · exact forall_mem_set (fun x hx => hsame x hx fun q => rfl)
          (hkept.applied_same hs hprocs hc rfl rfl rfl)
  | read c pid ch command inbox hc hread hwrite hdying hfail htaken hchannels =>
      have hmem := List.mem_of_getElem? hc
      obtain ⟨rest, hpending, hinbox⟩ := Inbox.read_eq_some_iff.mp htaken
      have hne : ch.inbox.pending ≠ [] := by
        rw [hpending]
        exact List.cons_ne_nil _ _
      obtain rfl : ch.owner = pid := hreadOk (pid, ch) hread hne
      refine ⟨?_, ?_, ?_⟩
      · rw [hchannels]
        refine forall_mem_set hkept.own ?_
        have honly := ((hs.conserved ch hmem).only_iff ch.owner).mp (hkept.own ch hmem)
        refine (((hs.conserved ch hmem).read htaken).only_iff ch.owner).mpr ?_
        intro e he
        rw [hinbox] at he
        rcases List.mem_append.mp he with hold | hnew
        · exact honly e hold
        · obtain rfl := List.mem_singleton.mp hnew
          rfl
      · rw [hchannels]
        exact forall_mem_set hheard fun _ => (hs.hears_iff hprocs hc rfl rfl).mpr
          ⟨hkept.heard ch hmem hne, ProcEffect.noConfusion, ProcEffect.noConfusion⟩
      · intro x hx
        obtain ⟨k, hk⟩ := List.getElem?_of_mem hx
        rw [hchannels, List.getElem?_set] at hk
        split at hk
        · -- the worker has read its own channel
          obtain ⟨-, hk⟩ := Option.ite_none_right_eq_some.mp hk
          obtain rfl := Option.some.inj hk
          intro r hr
          obtain ⟨p, p', hp, hp', -, hproc⟩ := hs.owner hprocs hc
          obtain rfl := Option.some.inj (hp'.symm.trans hr)
          obtain ⟨hold, haccounted⟩ := hkept.applied ch hmem p hp
          refine ⟨?_, hproc.accounted haccounted⟩
          rw [hproc.applied, hold]
          exact (takenBy_read htaken ch.owner).symm
        · rename_i hne
          have howner := hs.owner_ne hc hk (Ne.symm hne)
          exact hkept.applied_same hs hprocs hk rfl rfl (if_neg (Ne.symm howner))
  | fail c pid ch inbox hc hfail hp hwrite hdying hread hinbox hchannels =>
      have hmem := List.mem_of_getElem? hc
      have hempty : ch.inbox.pending = [] := hfailOk (pid, ch) hfail
      obtain rfl : inbox = ch.inbox := by
        rcases hinbox with rfl | ⟨command, htaken⟩
        · rfl
        · obtain ⟨rest, hpending, -⟩ := Inbox.read_eq_some_iff.mp htaken
          rw [hempty] at hpending
          cases hpending
      refine ⟨?_, ?_, ?_⟩ <;> rw [hchannels]
      · exact forall_mem_set hkept.own (hkept.own ch hmem)
      · exact forall_mem_set hheard fun hpending => absurd hempty hpending
      · exact forall_mem_set (fun x hx => hsame x hx fun q => rfl)
          (hkept.applied_same hs hprocs hc rfl rfl rfl)
  | spawn p hwrite hread hdying hfail hp hchannel hrun happlied haccounted hchannels =>
      refine ⟨?_, ?_, ?_⟩ <;> rw [hchannels]
      · exact List.forall_mem_append.mpr ⟨hkept.own, List.forall_mem_singleton.mpr rfl⟩
      · exact List.forall_mem_append.mpr
          ⟨hheard, List.forall_mem_singleton.mpr fun hpending => absurd rfl hpending⟩
      · refine List.forall_mem_append.mpr
          ⟨fun ch hch => hsame ch hch fun q => rfl, List.forall_mem_singleton.mpr fun r hr => ?_⟩
        rw [hp] at hr
        obtain rfl := Option.some.inj (List.getElem?_concat_length.symm.trans hr)
        exact ⟨happlied, haccounted⟩

/-- A step that loses no command is one that the guard allows. -/
theorem commandOk_of_kept {s t : ProcessTree} {a : TreeEvent} (hs : TreeSound s)
    (hbefore : CommandsKept s) (h : treeStep s a = some t) (hkept : CommandsKept t) :
    CommandOk s a := by
  obtain ⟨e, hprocs, hchange⟩ := treeStep_cases h
  refine ⟨fun ch hch => ?_, fun pid hpid ch hch howner => ?_, fun e he hpending => ?_,
    fun e he => ?_⟩
  · cases hchange with
    | write c ch' command hc hwrite hdying hread hfail hchannels =>
        obtain rfl := Option.some.inj (hwrite.symm.trans hch)
        have hlt := (List.getElem?_eq_some_iff.mp hc).1
        have hmem : { ch' with inbox := ch'.inbox.write command } ∈ t.channels := by
          rw [hchannels]
          exact List.mem_set hlt _
        have hhears := hkept.heard _ hmem (by simp [Inbox.write])
        exact ((hs.hears_iff hprocs hc rfl rfl).mp hhears).1
    | same _ hwrite | ends _ _ hwrite | read _ _ _ _ _ _ _ hwrite | fail _ _ _ _ _ _ _ hwrite
    | spawn _ hwrite => simp [hwrite] at hch
  · cases hchange with
    | ends pid' hchannels hwrite hdying hread =>
        obtain rfl := Option.some.inj (hdying.symm.trans hpid)
        by_contra hpending
        obtain ⟨c, hc⟩ := List.getElem?_of_mem hch
        have hhears := hkept.heard ch (hchannels ▸ hch) hpending
        have hends := ((hs.hears_iff hprocs hc rfl rfl).mp hhears).2.1
        exact hends (by rw [howner])
    | same _ _ hdying | write _ _ _ _ _ hdying | read _ _ _ _ _ _ _ _ hdying
    | fail _ _ _ _ _ _ _ _ hdying | spawn _ _ _ hdying => simp [hdying] at hpid
  · cases hchange with
    | read c pid ch command inbox hc hread hwrite hdying hfail htaken hchannels =>
        obtain rfl := Option.some.inj (hread.symm.trans he)
        have hlt := (List.getElem?_eq_some_iff.mp hc).1
        have hmem : { ch with inbox := inbox } ∈ t.channels := by
          rw [hchannels]
          exact List.mem_set hlt _
        obtain ⟨rest, -, hinbox⟩ := Inbox.read_eq_some_iff.mp htaken
        have hsound := (hs.conserved ch (List.mem_of_getElem? hc)).read htaken
        have honly := (hsound.only_iff ch.owner).mp (hkept.own _ hmem)
        exact (honly (pid, command) (by rw [hinbox]; simp)).symm
    | same _ _ _ hread => exact absurd (hread e he) hpending
    | ends _ _ _ _ hread | write _ _ _ _ _ _ hread | fail _ _ _ _ _ _ _ _ _ hread
    | spawn _ _ hread => simp [hread] at he
  · cases hchange with
    | fail c pid ch inbox hc hfail hp hwrite hdying hread hinbox hchannels =>
        obtain rfl := Option.some.inj (hfail.symm.trans he)
        have hlt := (List.getElem?_eq_some_iff.mp hc).1
        have hmem : { ch with inbox := inbox, watched := false } ∈ t.channels := by
          rw [hchannels]
          exact List.mem_set hlt _
        by_contra hpending
        rcases hinbox with rfl | ⟨command, htaken⟩
        · -- the command waits in a channel that nobody watches
          exact Bool.false_ne_true (hkept.heard _ hmem hpending).2.2
        · -- the command has been taken and not applied
          obtain ⟨rest, -, hinbox⟩ := Inbox.read_eq_some_iff.mp htaken
          have hsound := (hs.conserved ch (List.mem_of_getElem? hc)).read htaken
          have honly := (hsound.only_iff ch.owner).mp (hkept.own _ hmem)
          have howner : pid = ch.owner := honly (pid, command) (by rw [hinbox]; simp)
          obtain ⟨p, p', hp, hp', -, hproc⟩ := hs.owner hprocs hc
          have hold := (hbefore.applied ch (List.mem_of_getElem? hc) p hp).1
          have hnew : p'.applied = inbox.takenBy ch.owner := (hkept.applied _ hmem p' hp').1
          rw [hproc.applied, takenBy_read htaken, hold, if_pos howner] at hnew
          simp [ProcEffect.appliedBy] at hnew
    | same _ _ _ _ hfail | ends _ _ _ _ _ hfail | write _ _ _ _ _ _ _ hfail
    | read _ _ _ _ _ _ _ _ _ hfail | spawn _ _ _ _ hfail => simp [hfail] at he

/-- **Exactly the guarded runs lose no command.**  In every run of a master, its
workers and their toxic children, all commands are received and applied by the
workers they were written for, in every state on the way, exactly when every step
is one that the guard allows. -/
theorem commandsKept_iff_guarded (as : List TreeEvent) (t : ProcessTree) :
    GuardedRun treeStep CommandOk .start as t ↔
      Run treeStep .start as t ∧
        ∀ front back m, as = front ++ back → Run treeStep .start front m → CommandsKept m := by
  refine guardedRun_iff_everywhere (fun s a m (hs : TreeSound s) h => hs.step h)
    (fun s a m hs hkept h => ?_) treeSound_start commandsKept_start
  exact ⟨commandOk_of_kept hs hkept h, fun hok => treeStep_kept hs hkept hok h⟩

/-- What waits in the channel of a worker is for the worker to read: the step is
there, the guard allows it, and the worker takes and applies the first command. -/
theorem owner_reads {s : ProcessTree} (hs : TreeSound s) (hkept : CommandsKept s)
    {ch : WorkerChannel} (hch : ch ∈ s.channels) {command : ChannelCommand}
    {rest : List ChannelCommand} (hpending : ch.inbox.pending = command :: rest) :
    ∃ p t, s.procs[ch.owner]? = some p ∧ treeStep s (.run ch.owner .read) = some t ∧
      CommandOk s (.run ch.owner .read) ∧ t.procs[ch.owner]? = some (p.apply command) ∧
      ∃ ch' ∈ t.channels, ch'.owner = ch.owner ∧ ch'.inbox.pending = rest := by
  obtain ⟨c, hc⟩ := List.getElem?_of_mem hch
  obtain ⟨p, hp, rfl, -⟩ := hs.reads c ch hc
  have hlt := (List.getElem?_eq_some_iff.mp hc).1
  have hlt' := (List.getElem?_eq_some_iff.mp hp).1
  obtain ⟨halive, hlistens, -⟩ := hkept.heard ch hch (by rw [hpending]; exact List.cons_ne_nil _ _)
  simp only [ProcessTree.alive, ProcessTree.listens, hp, Option.any_some] at halive hlistens
  have hread : ch.inbox.read ch.owner = some (command,
      { ch.inbox with pending := rest, taken := ch.inbox.taken ++ [(ch.owner, command)] }) :=
    Inbox.read_eq_some_iff.mpr ⟨rest, hpending, rfl⟩
  have hstep : treeStep s (.run ch.owner .read) = some (channelHandler ch.owner p s) := by
    simp only [treeStep, hp, halive, hlistens, if_true, channelProcStep]
  refine ⟨p, _, hp, hstep, ⟨by simp [writtenChannel], by simp [dyingProc], ?_,
    by simp [failedChannel]⟩, ?_, ?_⟩
  · intro e he hne
    simp only [readChannel, channelOf, hp, hc, Option.map_some, Option.mem_some_iff] at he
    rw [← he]
  · simp only [channelHandler, hc, hread]
    exact List.getElem?_set_self hlt'
  · simp only [channelHandler, hc, hread]
    exact ⟨_, List.mem_set hlt _, rfl, rfl⟩

/-- A worker with its quit command taken by a toxic child. -/
def swallowedQuit : ProcessTree where
  slots := [⟨some 0, some 0, true, false, true, false⟩]
  procs := [⟨0, true, false, false, false, false, [(none, some 0)], true, [(none, some 0)], []⟩,
    ⟨0, true, true, false, false, false, [(none, some 0)], true, [(none, some 0)],
      [.command .quit]⟩]
  channels := [⟨0, true, ⟨[], [.quit], [(1, .quit)]⟩⟩]

/-- A toxic child reads the quit command of its worker.  The worker goes on, and
the master, which takes it for exiting, does not tell it again. -/
theorem child_swallows_quit :
    Run treeStep .start
        [.spawn 0 (.fresh true false), .run 0 .fork, .signal 0 .shutdown true true, .run 1 .read]
        swallowedQuit ∧
      ¬ CommandsKept swallowedQuit ∧
      treeStep swallowedQuit (.signal 0 .shutdown true true) = some swallowedQuit := by
  refine ⟨run_iff_execute.mpr (by decide +kernel), fun hkept => ?_, by decide +kernel⟩
  have hown := hkept.own ⟨0, true, ⟨[], [.quit], [(1, .quit)]⟩⟩ (List.mem_singleton.mpr rfl)
  exact absurd hown (by decide)

end Toxic
