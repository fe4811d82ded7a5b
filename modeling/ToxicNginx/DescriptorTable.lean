import Mathlib.Logic.Function.Basic
import ToxicNginx.StepSystem
import ToxicNginx.SlotTable

/-!
# The descriptors of a worker

A worker's connection objects hold descriptor numbers; the kernel says what a
number refers to and gives the lowest free one to `accept`.  The parent of a
POST or PUT closes the number of its client in `toxic_post_body_handler` and
leaves it in `c->fd`.

* `Worker`, `workerStep` — the connection table, its free list, the queue of
  reusable connections and the kernel's table, with a record of every close of
  a client's number;
* `eventAccept`, `getConnection`, `drainConnections`, `closeConnection`,
  `toxicPostBody` — the functions;
* `ClosesOwned` — every close hits the closer's own number, once for each
  accept;
* `Owned` — the invariant; `closeConnection_owned`, `drainConnections_owned`,
  `eventAccept_owned` — the step lemmas;
* `closesOwned_of_guarded` — the property in every run in which no request
  takes the parent's branch; `toxicPostBody_parent` — what that branch leaves.
-/

namespace Toxic

open StepSystem SlotTable

/-- What a number of the process refers to: the socket of the `n`-th accepted
connection, or something else (a listening socket, a log, a file). -/
inductive Descriptor
  | client (accept : Nat)
  | other
  deriving DecidableEq, Repr

/-- What a connection object is used for. -/
inductive ConnPhase
  | free
  /-- Accepted, and nothing has been read. -/
  | waiting
  /-- A request is read, handled or answered. -/
  | request
  | keepalive
  deriving DecidableEq, Repr

/-- A connection object: `fd` is `none` for `-1`; `accept` is the accepted
connection it was set up for last. -/
structure Connection where
  fd : Option Nat
  accept : Nat
  phase : ConnPhase
  deriving DecidableEq, Repr

/-- One `close` of a client's number: the number, the accepted connection of
the closer, and what the number referred to. -/
structure Close where
  fd : Nat
  accept : Nat
  found : Option Descriptor
  deriving DecidableEq, Repr

/-- A worker: the kernel's table, `cycle->connections`, the list from
`cycle->free_connections` on, `cycle->reusable_connections_queue`, how many
connections were accepted, and the closes so far. -/
structure Worker where
  table : List (Option Descriptor)
  conn : Nat → Connection
  freeConnections : List Nat
  reusable : List Nat
  accepted : Nat
  closes : List Close

/-- What happens next in the worker. -/
inductive WorkerEvent
  /-- `setupFails` says that an allocation for the new connection fails. -/
  | accept (setupFails : Bool)
  /-- The first bytes of a request arrive. -/
  | readable (c : Nat)
  /-- `toxic_post_body_handler` runs; `child` says that `fork` returned 0. -/
  | toxicPostBody (c : Nat) (child : Bool)
  /-- The request is finished and the connection kept. -/
  | setKeepalive (c : Nat)
  /-- `ngx_http_close_connection`: a timeout, a client that closed, an error, or
  the end of a request that is not kept. -/
  | closeConnection (c : Nat)
  /-- The process opens or closes a number that is no client's. -/
  | openOther
  | closeOther (fd : Nat)
  deriving DecidableEq, Repr

/-- `close(fd)` for the accepted connection `accept`. -/
def closeSocket (fd accept : Nat) (s : Worker) : Worker :=
  { s with
    table := release fd s.table
    closes := s.closes ++ [⟨fd, accept, slot s.table fd⟩] }

/-- `ngx_reusable_connection(c, 1)`. -/
def setReusable (c : Nat) (s : Worker) : Worker :=
  { s with reusable := c :: s.reusable.erase c }

/-- `ngx_free_connection`, with `c->fd` set to `-1`. -/
def freeConnection (c : Nat) (s : Worker) : Worker :=
  { s with
    conn := Function.update s.conn c { s.conn c with fd := none, phase := .free }
    freeConnections := c :: s.freeConnections }

/-- `ngx_close_connection`. -/
def closeConnection (c : Nat) (s : Worker) : Worker :=
  match (s.conn c).fd with
  | none => s
  | some fd =>
      closeSocket fd (s.conn c).accept
        (freeConnection c { s with reusable := s.reusable.erase c })

/-- `ngx_close_accepted_connection`. -/
def closeAcceptedConnection (c : Nat) (s : Worker) : Worker :=
  match (s.conn c).fd with
  | none => freeConnection c s
  | some fd => closeSocket fd (s.conn c).accept (freeConnection c s)

/-- `ngx_drain_connections`, with the number of rounds left: the read handler
of a reusable connection with `c->close` set closes it. -/
def drainConnections : Nat → Worker → Worker
  | 0, s => s
  | n + 1, s =>
      match s.reusable.getLast? with
      | none => s
      | some c => drainConnections n (closeConnection c s)

/-- `ngx_get_connection(s)` for the next accepted connection. -/
def getConnection (fd : Nat) (s : Worker) : Option Nat × Worker :=
  let s' := if s.freeConnections.isEmpty then drainConnections 32 s else s
  match s'.freeConnections with
  | [] => (none, s')
  | c :: rest =>
      (some c, { s' with
        conn := Function.update s'.conn c ⟨some fd, s'.accepted, .waiting⟩
        freeConnections := rest })

/-- `ngx_event_accept`, one accepted connection. -/
def eventAccept (setupFails : Bool) (s : Worker) : Worker :=
  let fd := lowestFree s.table
  match getConnection fd { s with table := alloc (.client s.accepted) s.table } with
  | (none, s') => { closeSocket fd s'.accepted s' with accepted := s'.accepted + 1 }
  | (some c, s') =>
      let s'' := { s' with accepted := s'.accepted + 1 }
      if setupFails then closeAcceptedConnection c s'' else setReusable c s''

/-- `toxic_post_body_handler`: the child goes on with the connection, the parent
(also when `fork` fails) closes the number and leaves it in `c->fd`. -/
def toxicPostBody (c : Nat) (child : Bool) (s : Worker) : Worker :=
  if child then s
  else
    match (s.conn c).fd with
    | none => s
    | some fd => closeSocket fd (s.conn c).accept s

/-- A connection object takes up another phase. -/
def setPhase (c : Nat) (phase : ConnPhase) (s : Worker) : Worker :=
  { s with conn := Function.update s.conn c { s.conn c with phase := phase } }

/-- One step of the worker. -/
def workerStep (s : Worker) : WorkerEvent → Option Worker
  | .accept setupFails => some (eventAccept setupFails s)
  | .readable c =>
      if (s.conn c).phase = .waiting ∨ (s.conn c).phase = .keepalive then
        some (setPhase c .request { s with reusable := s.reusable.erase c })
      else none
  | .toxicPostBody c child =>
      if (s.conn c).phase = .request then some (toxicPostBody c child s) else none
  | .setKeepalive c =>
      if (s.conn c).phase = .request then some (setReusable c (setPhase c .keepalive s)) else none
  | .closeConnection c =>
      if (s.conn c).phase ≠ .free then some (closeConnection c s) else none
  | .openOther => some { s with table := alloc .other s.table }
  | .closeOther fd =>
      if slot s.table fd = some .other then some { s with table := release fd s.table } else none

/-- The worker when it enters its cycle: its own numbers are open, and all its
connection objects are free. -/
def Worker.start (openNumbers connections : Nat) : Worker where
  table := List.replicate openNumbers (some .other)
  conn := fun _ => ⟨none, 0, .free⟩
  freeConnections := List.range connections
  reusable := []
  accepted := 0
  closes := []

/-- A connection object holds the number of an accepted connection. -/
def Worker.Holds (s : Worker) (c accept : Nat) : Prop :=
  (s.conn c).fd.isSome = true ∧ (s.conn c).accept = accept

/-- How often an accepted connection's number was closed. -/
def Worker.closesOf (s : Worker) (accept : Nat) : Nat :=
  s.closes.countP (·.accept = accept)

/-- What the closes of a worker must satisfy in every state: each hits an open
number of the connection that closes it, and each accepted connection is
closed once, when no object holds it any more. -/
structure ClosesOwned (s : Worker) : Prop where
  owned : ∀ e ∈ s.closes, e.found = some (.client e.accept)
  held : ∀ c accept, s.Holds c accept → s.closesOf accept = 0
  once : ∀ accept < s.accepted, (∀ c, ¬ s.Holds c accept) → s.closesOf accept = 1

/-- The steps that do not take the parent's branch. -/
def NotParent (_ : Worker) : WorkerEvent → Prop
  | .toxicPostBody _ child => child = true
  | _ => True

instance (s : Worker) (event : WorkerEvent) : Decidable (NotParent s event) := by
  cases event <;> unfold NotParent <;> infer_instance

/-- The invariant of a worker. -/
structure Owned (s : Worker) : Prop extends ClosesOwned s where
  table : ∀ c fd, (s.conn c).fd = some fd →
    slot s.table fd = some (.client (s.conn c).accept)
  early : ∀ c accept, s.Holds c accept → accept < s.accepted
  distinct : ∀ c d accept, s.Holds c accept → s.Holds d accept → c = d
  nodup : s.freeConnections.Nodup
  free : ∀ c ∈ s.freeConnections, (s.conn c).fd = none
  future : ∀ accept, s.accepted ≤ accept → s.closesOf accept = 0

/-- A close counts for one accepted connection. -/
theorem closesOf_closeSocket (fd accept n : Nat) (s : Worker) :
    (closeSocket fd accept s).closesOf n = s.closesOf n + if accept = n then 1 else 0 := by
  unfold Worker.closesOf closeSocket
  rw [List.countP_append]
  by_cases h : accept = n <;> simp [h]

/-- The invariant does not look at the queue of reusable connections. -/
theorem Owned.requeue {s : Worker} (h : Owned s) (reusable : List Nat) :
    Owned { s with reusable := reusable } :=
  ⟨⟨h.owned, h.held, h.once⟩, h.table, h.early, h.distinct, h.nodup, h.free, h.future⟩

/-- What a freed connection object leaves held. -/
theorem holds_freeConnection {s : Worker} {c d n : Nat} :
    (freeConnection c s).Holds d n ↔ d ≠ c ∧ s.Holds d n := by
  unfold Worker.Holds freeConnection
  by_cases h : d = c
  · subst h
    simp
  · simp [h]

/-- **Closing the connection object that holds a number** closes its own number
once. -/
theorem Owned.released {s : Worker} (h : Owned s) {c fd : Nat} (hfd : (s.conn c).fd = some fd) :
    Owned (closeSocket fd (s.conn c).accept (freeConnection c s)) := by
  have hholds : s.Holds c (s.conn c).accept := ⟨by rw [hfd]; rfl, rfl⟩
  have hslot : slot s.table fd = some (.client (s.conn c).accept) := h.table c fd hfd
  have hother : ∀ d n, d ≠ c → s.Holds d n → (s.conn c).accept ≠ n := by
    intro d n hd hn heq
    exact hd (h.distinct d c n hn (heq ▸ hholds))
  have hcount : ∀ n, (closeSocket fd (s.conn c).accept (freeConnection c s)).closesOf n
      = s.closesOf n + if (s.conn c).accept = n then 1 else 0 := by
    intro n
    exact closesOf_closeSocket fd (s.conn c).accept n (freeConnection c s)
  have hkept : ∀ d n, (closeSocket fd (s.conn c).accept (freeConnection c s)).Holds d n ↔
      d ≠ c ∧ s.Holds d n := by
    intro d n
    exact holds_freeConnection
  constructor
  · constructor
    · intro e he
      rcases List.mem_append.mp he with he | he
      · exact h.owned e he
      · obtain rfl := List.mem_singleton.mp he
        exact hslot
    · intro d n hd
      obtain ⟨hne, hn⟩ := (hkept d n).mp hd
      rw [hcount, if_neg (hother d n hne hn), h.held d n hn]
    · intro n hn hnone
      rw [hcount]
      by_cases heq : (s.conn c).accept = n
      · rw [if_pos heq, h.held c n (heq ▸ hholds)]
      · rw [if_neg heq, h.once n hn]
        intro d hd
        apply hnone d
        refine (hkept d n).mpr ⟨?_, hd⟩
        intro hdc
        exact heq (hdc ▸ hd.2)
  · intro d f hf
    have hdc : d ≠ c := by
      intro hdc
      subst hdc
      simp [closeSocket, freeConnection] at hf
    have hconn : (freeConnection c s).conn d = s.conn d := Function.update_of_ne hdc _ _
    change ((freeConnection c s).conn d).fd = some f at hf
    change slot (release fd s.table) f = some (.client ((freeConnection c s).conn d).accept)
    rw [hconn] at hf ⊢
    apply slot_release_of_some hslot (h.table d f hf)
    intro heq
    exact hother d (s.conn d).accept hdc ⟨by rw [hf]; rfl, rfl⟩ (Descriptor.client.inj heq)
  · intro d n hd
    exact h.early d n ((hkept d n).mp hd).2
  · intro d e n hd he
    exact h.distinct d e n ((hkept d n).mp hd).2 ((hkept e n).mp he).2
  · refine List.nodup_cons.mpr ⟨?_, h.nodup⟩
    intro hc
    have := h.free c hc
    rw [hfd] at this
    cases this
  · intro d hd
    change ((freeConnection c s).conn d).fd = none
    by_cases hdc : d = c
    · subst hdc
      simp [freeConnection]
    · rw [show (freeConnection c s).conn d = s.conn d from Function.update_of_ne hdc _ _]
      rcases List.mem_cons.mp hd with hd | hd
      · exact absurd hd hdc
      · exact h.free d hd
  · intro n hn
    have hearly := h.early c _ hholds
    change s.accepted ≤ n at hn
    rw [hcount, if_neg (by omega), h.future n hn]

/-- A number of a connection that is being accepted. -/
def Worker.Arriving (s : Worker) (fd : Nat) : Prop :=
  slot s.table fd = some (.client s.accepted)

/-- **`ngx_close_connection`** keeps the invariant, and the number of a
connection that is being accepted. -/
theorem closeConnection_owned {s : Worker} (h : Owned s) (c : Nat) :
    Owned (closeConnection c s) ∧ (closeConnection c s).accepted = s.accepted ∧
      ∀ fd, s.Arriving fd → (closeConnection c s).Arriving fd := by
  unfold closeConnection
  cases hfd : (s.conn c).fd with
  | none => exact ⟨h, rfl, fun _ harriving => harriving⟩
  | some f =>
      refine ⟨(h.requeue _).released (c := c) hfd, rfl, fun fd harriving => ?_⟩
      have hearly := h.early c (s.conn c).accept ⟨by rw [hfd]; rfl, rfl⟩
      apply slot_release_of_some (h.table c f hfd) harriving
      intro heq
      have := Descriptor.client.inj heq
      omega

/-- Draining closes some connections. -/
theorem drainConnections_owned (n : Nat) {s : Worker} (h : Owned s) :
    Owned (drainConnections n s) ∧ (drainConnections n s).accepted = s.accepted ∧
      ∀ fd, s.Arriving fd → (drainConnections n s).Arriving fd := by
  induction n generalizing s with
  | zero => exact ⟨h, rfl, fun _ harriving => harriving⟩
  | succ n ih =>
      unfold drainConnections
      cases s.reusable.getLast? with
      | none => exact ⟨h, rfl, fun _ harriving => harriving⟩
      | some c =>
          obtain ⟨hclosed, haccepted, harrives⟩ := closeConnection_owned h c
          obtain ⟨hrest, hrestAccepted, hrestArrives⟩ := ih hclosed
          exact ⟨hrest, hrestAccepted.trans haccepted,
            fun fd harriving => hrestArrives fd (harrives fd harriving)⟩

/-- **`ngx_get_connection`** finds no object, or takes one of the free ones. -/
theorem getConnection_cases {s : Worker} {fd : Nat} (h : Owned s) (harriving : s.Arriving fd) :
    ∃ s', Owned s' ∧ s'.Arriving fd ∧ s'.accepted = s.accepted ∧
      (getConnection fd s = (none, s') ∨
      ∃ c rest, s'.freeConnections = c :: rest ∧
        getConnection fd s = (some c, { s' with
          conn := Function.update s'.conn c ⟨some fd, s'.accepted, .waiting⟩
          freeConnections := rest })) := by
  obtain ⟨s', hs', howned, harrives, haccepted⟩ :
      ∃ s', s' = (if s.freeConnections.isEmpty then drainConnections 32 s else s) ∧
        Owned s' ∧ s'.Arriving fd ∧ s'.accepted = s.accepted := by
    by_cases hempty : s.freeConnections.isEmpty = true
    · obtain ⟨howned, haccepted, harrives⟩ := drainConnections_owned 32 h
      exact ⟨_, rfl, by rw [if_pos hempty]; exact ⟨howned, harrives fd harriving, haccepted⟩⟩
    · exact ⟨_, rfl, by rw [if_neg hempty]; exact ⟨h, harriving, rfl⟩⟩
  refine ⟨s', howned, harrives, haccepted, ?_⟩
  unfold getConnection
  rw [← hs']
  cases hfree : s'.freeConnections with
  | nil =>
      left
      simp [hfree]
  | cons c rest =>
      right
      refine ⟨c, rest, rfl, ?_⟩
      simp [hfree]

/-- An accepted connection without an object for it is closed at once. -/
theorem Owned.refused {s : Worker} (h : Owned s) {fd : Nat} (harriving : s.Arriving fd) :
    Owned { closeSocket fd s.accepted s with accepted := s.accepted + 1 } := by
  have hcount : ∀ n, Worker.closesOf
      { closeSocket fd s.accepted s with accepted := s.accepted + 1 } n
      = s.closesOf n + if s.accepted = n then 1 else 0 :=
    fun n => closesOf_closeSocket fd s.accepted n s
  constructor
  · constructor
    · intro e he
      rcases List.mem_append.mp he with he | he
      · exact h.owned e he
      · obtain rfl := List.mem_singleton.mp he
        exact harriving
    · intro c n hc
      have hearly := h.early c n hc
      rw [hcount, if_neg (by omega), h.held c n hc]
    · intro n hn hnone
      change n < s.accepted + 1 at hn
      rw [hcount]
      by_cases heq : s.accepted = n
      · rw [if_pos heq, h.future n (by omega)]
      · rw [if_neg heq, h.once n (by omega) hnone]
  · intro c f hf
    change (s.conn c).fd = some f at hf
    have hearly := h.early c (s.conn c).accept ⟨by rw [hf]; rfl, rfl⟩
    apply slot_release_of_some harriving (h.table c f hf)
    intro heq
    have := Descriptor.client.inj heq
    omega
  · intro c n hc
    exact Nat.lt_succ_of_lt (h.early c n hc)
  · exact h.distinct
  · exact h.nodup
  · exact h.free
  · intro n hn
    change s.accepted + 1 ≤ n at hn
    rw [hcount, if_neg (by omega), h.future n (by omega)]

/-- An accepted connection is handed to a free object. -/
theorem Owned.handed {s : Worker} (h : Owned s) {fd c : Nat} {rest : List Nat}
    (harriving : s.Arriving fd) (hfree : s.freeConnections = c :: rest) :
    Owned { s with
      conn := Function.update s.conn c ⟨some fd, s.accepted, .waiting⟩
      freeConnections := rest
      accepted := s.accepted + 1 } := by
  have hnone : (s.conn c).fd = none := h.free c (by rw [hfree]; exact List.mem_cons_self)
  have hholds : ∀ d n, Worker.Holds { s with
      conn := Function.update s.conn c ⟨some fd, s.accepted, .waiting⟩
      freeConnections := rest
      accepted := s.accepted + 1 } d n ↔
      (d = c ∧ n = s.accepted) ∨ (d ≠ c ∧ s.Holds d n) := by
    intro d n
    unfold Worker.Holds
    by_cases hdc : d = c
    · subst hdc
      simp only [Function.update_self, Option.isSome_some, true_and, ne_eq, not_true_eq_false,
        false_and, or_false]
      exact eq_comm
    · simp [hdc]
  have hnodup := h.nodup
  rw [hfree, List.nodup_cons] at hnodup
  constructor
  · constructor
    · exact h.owned
    · intro d n hd
      rcases (hholds d n).mp hd with ⟨_, hn⟩ | ⟨_, hn⟩
      · exact h.future n (by omega)
      · exact h.held d n hn
    · intro n hn hno
      change n < s.accepted + 1 at hn
      have hlt : n ≠ s.accepted := by
        intro heq
        exact hno c ((hholds c n).mpr (Or.inl ⟨rfl, heq⟩))
      apply h.once n (by omega)
      intro d hd
      have hdc : d ≠ c := by
        intro hdc
        have := hd.1
        rw [hdc, hnone] at this
        cases this
      exact hno d ((hholds d n).mpr (Or.inr ⟨hdc, hd⟩))
  · intro d f hf
    by_cases hdc : d = c
    · subst hdc
      simp only [Function.update_self, Option.some.injEq] at hf ⊢
      subst hf
      exact harriving
    · simp only [Function.update_of_ne hdc] at hf ⊢
      exact h.table d f hf
  · intro d n hd
    change n < s.accepted + 1
    rcases (hholds d n).mp hd with ⟨_, hn⟩ | ⟨_, hn⟩
    · omega
    · exact Nat.lt_succ_of_lt (h.early d n hn)
  · intro d e n hd he
    rcases (hholds d n).mp hd with ⟨hdc, hn⟩ | ⟨hdc, hd'⟩
    · rcases (hholds e n).mp he with ⟨hec, _⟩ | ⟨_, he'⟩
      · rw [hdc, hec]
      · have := h.early e n he'
        omega
    · rcases (hholds e n).mp he with ⟨_, hn⟩ | ⟨_, he'⟩
      · have := h.early d n hd'
        omega
      · exact h.distinct d e n hd' he'
  · exact hnodup.2
  · intro d hd
    have hdc : d ≠ c := by
      intro hdc
      exact hnodup.1 (hdc ▸ hd)
    change (Function.update s.conn c ⟨some fd, s.accepted, .waiting⟩ d).fd = none
    rw [Function.update_of_ne hdc]
    exact h.free d (by rw [hfree]; exact List.mem_cons_of_mem _ hd)
  · intro n hn
    change s.accepted + 1 ≤ n at hn
    exact h.future n (by omega)

/-- A new phase of a connection object changes nothing of what it holds. -/
theorem Owned.setPhase {s : Worker} (h : Owned s) (c : Nat) (phase : ConnPhase) :
    Owned (Toxic.setPhase c phase s) := by
  have hconn : ∀ d, ((Toxic.setPhase c phase s).conn d).fd = (s.conn d).fd ∧
      ((Toxic.setPhase c phase s).conn d).accept = (s.conn d).accept := by
    intro d
    unfold Toxic.setPhase
    by_cases hdc : d = c
    · subst hdc
      simp
    · simp [hdc]
  have hholds : ∀ d n, (Toxic.setPhase c phase s).Holds d n ↔ s.Holds d n := by
    intro d n
    unfold Worker.Holds
    rw [(hconn d).1, (hconn d).2]
  constructor
  · constructor
    · exact h.owned
    · exact fun d n hd => h.held d n ((hholds d n).mp hd)
    · exact fun n hn hnone => h.once n hn fun d hd => hnone d ((hholds d n).mpr hd)
  · intro d f hf
    rw [(hconn d).1] at hf
    rw [(hconn d).2]
    exact h.table d f hf
  · exact fun d n hd => h.early d n ((hholds d n).mp hd)
  · exact fun d e n hd he => h.distinct d e n ((hholds d n).mp hd) ((hholds e n).mp he)
  · exact h.nodup
  · intro d hd
    rw [(hconn d).1]
    exact h.free d hd
  · exact h.future

/-- Numbers that are no client's come and go. -/
theorem Owned.retable {s : Worker} (h : Owned s) {table : List (Option Descriptor)}
    (hkept : ∀ fd n, slot s.table fd = some (.client n) → slot table fd = some (.client n)) :
    Owned { s with table := table } :=
  ⟨⟨h.owned, h.held, h.once⟩, fun c fd hfd => hkept fd _ (h.table c fd hfd), h.early, h.distinct,
    h.nodup, h.free, h.future⟩

/-- **`ngx_event_accept`** keeps the invariant. -/
theorem eventAccept_owned {s : Worker} (h : Owned s) (setupFails : Bool) :
    Owned (eventAccept setupFails s) := by
  have hopened : Owned { s with table := alloc (.client s.accepted) s.table } :=
    h.retable fun fd n hslot => slot_alloc_of_some hslot
  have harriving : Worker.Arriving { s with table := alloc (.client s.accepted) s.table }
      (lowestFree s.table) := by
    unfold Worker.Arriving
    rw [slot_alloc, if_pos rfl]
  obtain ⟨s', howned, harrives, _, hget | ⟨c, rest, hfree, hget⟩⟩ :=
    getConnection_cases hopened harriving
  · unfold eventAccept
    simp only [hget]
    exact howned.refused harrives
  · have hhanded := howned.handed harrives hfree
    unfold eventAccept
    simp only [hget]
    by_cases hfails : setupFails = true
    · rw [if_pos hfails]
      unfold closeAcceptedConnection
      simp only [Function.update_self]
      have := @Owned.released _ hhanded c (lowestFree s.table) (by simp)
      simpa using this
    · rw [if_neg hfails]
      exact hhanded.requeue _

/-- **Every step** that does not take the parent's branch keeps the invariant. -/
theorem workerStep_owned (s : Worker) (event : WorkerEvent) (t : Worker) (h : Owned s)
    (hok : NotParent s event) (hstep : workerStep s event = some t) : Owned t := by
  cases event with
  | accept setupFails =>
      obtain rfl := Option.some.inj hstep
      exact eventAccept_owned h setupFails
  | readable c =>
      simp only [workerStep, Option.ite_none_right_eq_some, Option.some.injEq] at hstep
      obtain ⟨_, rfl⟩ := hstep
      exact (h.requeue _).setPhase c .request
  | toxicPostBody c child =>
      simp only [workerStep, Option.ite_none_right_eq_some, Option.some.injEq] at hstep
      obtain ⟨_, rfl⟩ := hstep
      unfold toxicPostBody
      rw [if_pos (show child = true from hok)]
      exact h
  | setKeepalive c =>
      simp only [workerStep, Option.ite_none_right_eq_some, Option.some.injEq] at hstep
      obtain ⟨_, rfl⟩ := hstep
      exact (h.setPhase c .keepalive).requeue _
  | closeConnection c =>
      simp only [workerStep, Option.ite_none_right_eq_some, Option.some.injEq] at hstep
      obtain ⟨_, rfl⟩ := hstep
      exact (closeConnection_owned h c).1
  | openOther =>
      obtain rfl := Option.some.inj hstep
      exact h.retable fun fd n hslot => slot_alloc_of_some hslot
  | closeOther fd =>
      simp only [workerStep, Option.ite_none_right_eq_some, Option.some.injEq] at hstep
      obtain ⟨hother, rfl⟩ := hstep
      apply h.retable
      intro f n hslot
      exact slot_release_of_some hother hslot (by simp)

/-- A worker that has accepted nothing satisfies the invariant. -/
theorem Owned.start (openNumbers connections : Nat) :
    Owned (Worker.start openNumbers connections) := by
  have hnone : ∀ c n, ¬ (Worker.start openNumbers connections).Holds c n := by
    intro c n hc
    cases hc.1
  constructor
  · constructor
    · intro e he
      cases he
    · exact fun c n hc => absurd hc (hnone c n)
    · exact fun n hn => absurd hn (Nat.not_lt_zero n)
  · intro c fd hfd
    cases hfd
  · exact fun c n hc => absurd hc (hnone c n)
  · exact fun c d n hc => absurd hc (hnone c n)
  · exact List.nodup_range
  · exact fun c _ => rfl
  · exact fun n _ => rfl

/-- **Closes are owned.**  In every run of a worker, under every sequence of
accepts, requests, keepalive timeouts and closes, in which no POST or PUT
request takes the parent's branch: each close of a client's number hits the
number of the connection object that closes it, and each accepted connection is
closed exactly once. -/
theorem closesOwned_of_guarded (openNumbers connections : Nat) {events : List WorkerEvent}
    {t : Worker}
    (hrun : GuardedRun workerStep NotParent (Worker.start openNumbers connections) events t) :
    ClosesOwned t := by
  have howned : Owned t := by
    apply hrun.invariant _ (Owned.start openNumbers connections)
    exact fun s event t h hok hstep => workerStep_owned s event t h hok hstep
  exact howned.toClosesOwned

/-- The number the parent closed is the next one the kernel gives away, unless a
lower one is free, while the connection object still has it in `c->fd`. -/
theorem toxicPostBody_parent {s : Worker} {c fd : Nat} (hfd : (s.conn c).fd = some fd) :
    lowestFree (toxicPostBody c false s).table = min fd (lowestFree s.table) ∧
      ((toxicPostBody c false s).conn c).fd = some fd := by
  unfold toxicPostBody
  rw [if_neg Bool.false_ne_true, hfd]
  exact ⟨lowestFree_release fd s.table, hfd⟩

/-- A run in the child of a POST request: two connections are accepted, the
first one is answered, kept and closed by its timeout. -/
theorem closesOwned_of_guarded_sample :
    ∃ t, GuardedRun workerStep NotParent (Worker.start 3 2)
        [.accept false, .readable 0, .toxicPostBody 0 true, .accept false, .setKeepalive 0,
          .closeConnection 0] t ∧
      t.closes = [⟨3, 0, some (.client 0)⟩] ∧ ClosesOwned t := by
  have hcloses : (check workerStep NotParent (Worker.start 3 2)
      [.accept false, .readable 0, .toxicPostBody 0 true, .accept false, .setKeepalive 0,
        .closeConnection 0]).map (·.closes) = some [⟨3, 0, some (.client 0)⟩] := by
    decide +kernel
  obtain ⟨t, hcheck, ht⟩ := Option.map_eq_some_iff.mp hcloses
  have hrun := guardedRun_iff_check.mpr hcheck
  exact ⟨t, hrun, ht, closesOwned_of_guarded 3 2 hrun⟩

/-- The parent of a POST request closes number 3, the next connection gets it,
and the keepalive timeout of the first one closes it again. -/
theorem parent_closes_stranger :
    ∃ t, Run workerStep (Worker.start 3 2)
        [.accept false, .readable 0, .toxicPostBody 0 false, .setKeepalive 0, .accept false,
          .closeConnection 0] t ∧
      t.closes = [⟨3, 0, some (.client 0)⟩, ⟨3, 0, some (.client 1)⟩] ∧ ¬ ClosesOwned t := by
  have hcloses : (execute workerStep (Worker.start 3 2)
      [.accept false, .readable 0, .toxicPostBody 0 false, .setKeepalive 0, .accept false,
        .closeConnection 0]).map (·.closes)
      = some [⟨3, 0, some (.client 0)⟩, ⟨3, 0, some (.client 1)⟩] := by decide +kernel
  obtain ⟨t, hexec, ht⟩ := Option.map_eq_some_iff.mp hcloses
  refine ⟨t, run_iff_execute.mpr hexec, ht, ?_⟩
  intro howned
  have hstranger := howned.owned ⟨3, 0, some (.client 1)⟩ (by rw [ht]; simp)
  cases hstranger

end Toxic
