import ToxicNginx.RequestBody
import ToxicNginx.ReferenceBalance

/-!
# A request whose body is still to come

`ngx_http_toxic_handler` returns `NGX_OK` when `ngx_http_read_client_request_body`
has returned `NGX_AGAIN`, and the content phase passes that on to
`ngx_http_finalize_request`, as for a request whose response is out.  This file
follows a request of one process until `toxic_post_body_handler` runs, with the
flags and the read timer that the finalization changes.

* `doRead` — `ngx_http_do_read_client_request_body`, for what `recv` returns in
  one event;
* `PendingBody`, `pendingStep` — the request with its phases: the handler, the
  finalization of the content phase, and the events of the connection;
* `InProgress` — what must hold while the body is pending;
* `StillRead`, `pending_kept` — what holds instead, in every run: the request is
  marked as complete and the body is read all the same;
* `doRead_length` — when a body with a Content-Length is pending;
* `pendingSafe_iff` — the exact condition on the body.
-/

namespace Toxic

open StepSystem

/-- What `recv` returns while there is something to return; behind the last
answer it is `NGX_AGAIN`. -/
inductive RecvAnswer
  | data (piece : Bytes)
  | eof
  | error
  deriving DecidableEq, Repr

/-- How reading the body ends in one event: the chain for the handler, a body
that is not complete, a status of the filter, or a connection that is gone. -/
inductive ReadEnd
  | whole (bufs : List BodyBuf)
  | again (s : BodyReader)
  | invalid
  | closed
  deriving DecidableEq, Repr

/-- How much of the body is not in the buffer yet. -/
def BodyReader.missing (s : BodyReader) : Int := s.body.rest - s.buf.data.length

/-- `ngx_http_do_read_client_request_body`; `none` when these cannot be the
answers.  With a greedy event method a short read leaves `c->read->ready` set. -/
def doRead (conf : BodyConf) (req : BodyRequest) (greedy : Bool) :
    List RecvAnswer → BodyReader → Option ReadEnd
  | [], s =>
      match s.flush conf req with
      | none => some .invalid
      | some s => some (.again s)
  | answer :: answers, s =>
      match s.flush conf req with
      | none => none
      | some s =>
          match answer with
          | .eof | .error => if answers = [] then some .closed else none
          | .data piece =>
              if 0 < piece.length ∧ piece.length ≤ s.buf.free ∧ piece.length ≤ s.missing then
                match s.recv conf req piece with
                | none => if answers = [] then some .invalid else none
                | some t =>
                    if t.body.rest = 0 then
                      if answers = [] then some (.whole (finishBody conf t.body)) else none
                    else if t.buf.free ≠ 0 ∧ greedy = false ∧ piece.length < s.buf.free ∧
                        piece.length < s.missing then
                      if answers = [] then some (.again t) else none
                    else doRead conf req greedy answers t
              else none

/-- The directives and the event method; the timeouts are `client_body_timeout`,
`lingering_timeout` and `keepalive_timeout`. -/
structure PendingConf where
  http : HttpConf
  body : BodyConf
  greedy : Bool
  clientBodyTimeout : Nat
  lingeringTimeout : Nat
  keepaliveTimeout : Nat

/-- Where the request is: the handler is called, it has returned, the process
waits for events; the body is complete or given up. -/
inductive PendingPhase
  | entering
  | returned (s : BodyReader)
  | waiting (s : BodyReader)
  | over
  deriving DecidableEq, Repr

/-- A request with `r->done`, `r->request_complete` and what the read timer was
armed with. -/
structure PendingBody where
  http : Http
  phase : PendingPhase
  done : Bool
  requestComplete : Bool
  readTimer : Option Nat

/-- What happens next: the answers of `recv` come with whether
`ngx_handle_read_event` works, a read event also with whether the client has
closed. -/
inductive PendingEvent
  | handler (answers : List RecvAnswer) (readEvent : Bool)
  | finalize (a : FinalizeAnswers)
  | readable (answers : List RecvAnswer) (closed readEvent : Bool)
  | readTimeout
  | writable (w : WriteAnswers) (a : FinalizeAnswers)

/-- What is left to do when the reading in one event ends. -/
def afterRead (conf : PendingConf) (readEvent : Bool) (next : BodyReader → PendingPhase)
    (s : PendingBody) : ReadEnd → PendingBody
  | .again r =>
      if readEvent then
        { s with phase := next r, readTimer := some conf.clientBodyTimeout }
      else { s with phase := .over }
  | .whole _ =>
      { s with
        http := { s.http with readHandler := .blockReading }, readTimer := none, phase := .over }
  | .invalid | .closed => { s with phase := .over }

/-- `ngx_http_toxic_handler`; only a body that is read from the connection can be
pending. -/
def toxicHandlerPending (conf : PendingConf) (req : BodyRequest) (answers : List RecvAnswer)
    (readEvent : Bool) (s : PendingBody) : Option PendingBody :=
  match s.http.isPost, readClientRequestBody conf.body req with
  | true, some (.reading r) =>
      let http := { s.http with
        count := s.http.count + 1, readHandler := .readBody, writeHandler := .empty }
      (doRead conf.body req conf.greedy answers r).map
        (afterRead conf readEvent .returned { s with http := http })
  | _, _ => if answers = [] then some { s with phase := .over } else none

/-- The codes and the error that end a request in `ngx_http_terminate_request`. -/
def terminates (rc : Rc) (s : Http) : Bool :=
  rc == .error || rc == .requestTimeOut || rc == .clientClosedRequest || s.resp.error

/-- `ngx_http_finalize_request` with the flags and the read timer. -/
def finalizePending (conf : PendingConf) (a : FinalizeAnswers) (rc : Rc) (s : PendingBody) :
    PendingBody :=
  let http := finalizeRequest conf.http a rc s.http
  if terminates rc s.http || s.http.resp.buffered then { s with http := http }
  else
    { s with
      http := http
      done := true
      requestComplete := true
      -- the timer is deleted before the connection is finalized
      readTimer :=
        match http.reader with
        | .keepalive => some conf.keepaliveTimeout
        | .lingering => some conf.lingeringTimeout
        | .request | .closed => none }

/-- `ngx_http_writer`. -/
def writerPending (conf : PendingConf) (w : WriteAnswers) (a : FinalizeAnswers)
    (s : PendingBody) : PendingBody :=
  let (rc, resp) := outputFilter conf.http.filter w [] s.http.resp
  let s := { s with http := { s.http with resp := resp } }
  if rc = .error then finalizePending conf a rc s
  else if resp.buffered then
    let http := { s.http with writeTimer := true }
    { s with http := if a.writeEvent then http else closeRequest http }
  else finalizePending conf a rc { s with http := { s.http with writeHandler := .empty } }

/-- Events of the connection reach the request. -/
def Http.listens (s : Http) : Bool := s.reader == .request && !s.freed && !s.posted

/-- `r->read_event_handler(r)` on an event that is no timeout. -/
def readPending (conf : PendingConf) (req : BodyRequest) (answers : List RecvAnswer)
    (closed readEvent : Bool) (r : BodyReader) (s : PendingBody) : Option PendingBody :=
  match s.http.readHandler with
  | .readBody =>
      (doRead conf.body req conf.greedy answers r).map (afterRead conf readEvent .waiting s)
  | .testReading => some (if closed then { s with phase := .over } else s)
  | .blockReading => some s
  -- a body that is refused is not pending
  | .discardBody => some { s with phase := .over }

/-- One step of the request. -/
def pendingStep (conf : PendingConf) (req : BodyRequest) (s : PendingBody)
    (event : PendingEvent) : Option PendingBody :=
  match s.phase, event with
  | .entering, .handler answers readEvent => toxicHandlerPending conf req answers readEvent s
  | .returned r, .finalize a => some (finalizePending conf a .ok { s with phase := .waiting r })
  | .waiting r, .readable answers closed readEvent =>
      if s.http.listens then readPending conf req answers closed readEvent r s else none
  | .waiting _, .readTimeout =>
      if s.http.listens && s.readTimer.isSome then
        match s.http.readHandler with
        | .readBody => some { s with phase := .over, readTimer := none }
        | .testReading | .blockReading => some { s with readTimer := none }
        | .discardBody => some { s with phase := .over, readTimer := none }
      else none
  | .waiting _, .writable w a =>
      if s.http.listens then
        match s.http.writeHandler with
        | .writer => some (writerPending conf w a s)
        | .empty | .terminate => some s
      else none
  | _, _ => none

/-- The request when the content phase calls the handler; the timer for the
header has been deleted. -/
def PendingBody.start (q : Incoming) (lingeringClose unread readReady readEof : Bool)
    (baseLen : Int) : PendingBody where
  http := Http.start q lingeringClose unread readReady readEof baseLen
  phase := .entering
  done := false
  requestComplete := false
  readTimer := none

/-- The handler has returned, and the body is still to come. -/
def PendingBody.Pending (s : PendingBody) : Prop :=
  ∃ r, s.phase = .returned r ∨ s.phase = .waiting r

/-- What must hold while the body is pending. -/
structure InProgress (conf : PendingConf) (s : PendingBody) : Prop where
  done : s.done = false
  requestComplete : s.requestComplete = false
  timer : s.readTimer = some conf.clientBodyTimeout
  readHandler : s.http.readHandler = .readBody
  reader : s.http.reader = .request
  freed : s.http.freed = false
  posted : s.http.posted = false

/-- The first reading of the body ends with `NGX_AGAIN`. -/
def BodyWaits (conf : PendingConf) (req : BodyRequest) (answers : List RecvAnswer)
    (readEvent : Bool) : Prop :=
  readEvent = true ∧ ∃ r t, readClientRequestBody conf.body req = some (.reading r) ∧
    doRead conf.body req conf.greedy answers r = some (.again t)

/-! ## When the body is pending -/

/-- The handler leaves the body pending exactly when the first reading of the body
of a POST or PUT ends with `NGX_AGAIN`. -/
theorem toxicHandlerPending_cases {conf : PendingConf} {req : BodyRequest}
    {answers : List RecvAnswer} {readEvent : Bool} {s t : PendingBody}
    (h : toxicHandlerPending conf req answers readEvent s = some t) :
    (t.phase = .over ∧ ¬ (s.http.isPost = true ∧ BodyWaits conf req answers readEvent)) ∨
    ((s.http.isPost = true ∧ BodyWaits conf req answers readEvent) ∧ ∃ r,
      t = { s with
        http := { s.http with
          count := s.http.count + 1, readHandler := .readBody, writeHandler := .empty }
        phase := .returned r
        readTimer := some conf.clientBodyTimeout }) := by
  unfold toxicHandlerPending at h
  split at h
  next r hpost hentry =>
    obtain ⟨e, he, rfl⟩ := Option.map_eq_some_iff.mp h
    have honly : ∀ r' t', readClientRequestBody conf.body req = some (.reading r') →
        doRead conf.body req conf.greedy answers r' = some (.again t') → e = .again t' := by
      intro r' t' hr' ht'
      rw [hentry] at hr'
      cases hr'
      exact Option.some.inj (he.symm.trans ht')
    have hover : ∀ u : PendingBody, u.phase = .over → (∀ t', e ≠ .again t') →
        u.phase = .over ∧ ¬ (s.http.isPost = true ∧ BodyWaits conf req answers readEvent) := by
      intro u hu hne
      refine ⟨hu, fun hwaits => ?_⟩
      obtain ⟨-, -, r', t', hr', ht'⟩ := hwaits
      exact hne t' (honly r' t' hr' ht')
    cases e with
    | again t' =>
        cases readEvent with
        | true =>
            refine Or.inr ⟨⟨hpost, rfl, r, t', hentry, he⟩, t', ?_⟩
            rfl
        | false =>
            refine Or.inl ⟨rfl, fun hwaits => ?_⟩
            exact absurd hwaits.2.1 Bool.false_ne_true
    | whole bufs => exact Or.inl (hover _ rfl (by simp))
    | invalid => exact Or.inl (hover _ rfl (by simp))
    | closed => exact Or.inl (hover _ rfl (by simp))
  next hnone =>
    split at h
    · obtain rfl := Option.some.inj h
      refine Or.inl ⟨rfl, fun hwaits => ?_⟩
      obtain ⟨hpost, -, r, t', hr, -⟩ := hwaits
      exact hnone r hpost hr
    · cases h

/-- A finalization that does not terminate the request, and with no response
pending, marks it as complete. -/
theorem finalizePending_complete (conf : PendingConf) (a : FinalizeAnswers) {s : PendingBody}
    (herror : s.http.resp.error = false) (hbuffered : s.http.resp.buffered = false) :
    (finalizePending conf a .ok s).done = true ∧
      (finalizePending conf a .ok s).requestComplete = true := by
  have hgoes : (terminates .ok s.http || s.http.resp.buffered) = false := by
    rw [hbuffered, terminates, herror]
    rfl
  unfold finalizePending
  simp [hgoes]

/-- A request of which the content phase has given up its reference while the
body is read: it is marked as complete, and the body is read all the same; the
read timer is not armed before the next event. -/
structure StillRead (conf : PendingConf) (s : PendingBody) : Prop where
  done : s.done = true
  requestComplete : s.requestComplete = true
  timer : s.readTimer = none ∨ s.readTimer = some conf.clientBodyTimeout
  readHandler : s.http.readHandler = .readBody
  writeHandler : s.http.writeHandler = .empty
  reader : s.http.reader = .request
  freed : s.http.freed = false
  posted : s.http.posted = false
  count : s.http.count = 1

/-- Before the finalization the handler and the reader each have a reference. -/
structure Referenced (s : PendingBody) : Prop where
  count : s.http.count = 2
  writeHandler : s.http.writeHandler = .empty
  error : s.http.resp.error = false
  buffered : s.http.resp.buffered = false
  discard : s.http.discardBody = false

/-- A request that the handler is called for. -/
structure Entered (s : PendingBody) : Prop where
  done : s.done = false
  requestComplete : s.requestComplete = false
  reader : s.http.reader = .request
  freed : s.http.freed = false
  posted : s.http.posted = false
  count : s.http.count = 1
  error : s.http.resp.error = false
  buffered : s.http.resp.buffered = false
  discard : s.http.discardBody = false

/-- The invariant of a request whose connection has not failed before. -/
def PendingInv (conf : PendingConf) (start s : PendingBody) : Prop :=
  match s.phase with
  | .entering => s = start
  | .returned _ => InProgress conf s ∧ Referenced s
  | .waiting _ => StillRead conf s
  | .over => True

/-- **The finalization of the content phase** takes one of the two references,
marks the request as complete and deletes the read timer. -/
theorem finalizePending_stillRead {conf : PendingConf} (a : FinalizeAnswers) {s : PendingBody}
    (h : InProgress conf s) (href : Referenced s) :
    StillRead conf (finalizePending conf a .ok s) := by
  obtain ⟨hdone, hcomplete⟩ := finalizePending_complete conf a href.error href.buffered
  have hhttp : (finalizePending conf a .ok s).http = finalizeRequest conf.http a .ok s.http := by
    unfold finalizePending
    dsimp only
    split
    · rfl
    · rfl
  have hfine : Rc.Fine .ok := by simp [Rc.Fine]
  have hshared := finalizeRequest_shared conf.http a hfine href.error href.buffered href.count
    fun hdiscard => by rw [href.discard] at hdiscard; cases hdiscard
  refine ⟨hdone, hcomplete, Or.inl ?_, ?_, ?_, ?_, ?_, ?_, ?_⟩
  · have hgoes : (terminates .ok s.http || s.http.resp.buffered) = false := by
      rw [href.buffered, terminates, href.error]
      rfl
    unfold finalizePending
    simp [hgoes, hshared, h.reader]
  · rw [hhttp, hshared]
    exact h.readHandler
  · rw [hhttp, hshared]
  · rw [hhttp, hshared]
    exact h.reader
  · rw [hhttp, hshared]
    exact h.freed
  · rw [hhttp, hshared]
    exact h.posted
  · rw [hhttp, hshared]

/-- The finalization does not change the phase. -/
@[simp] theorem finalizePending_phase (conf : PendingConf) (a : FinalizeAnswers) (rc : Rc)
    (s : PendingBody) : (finalizePending conf a rc s).phase = s.phase := by
  unfold finalizePending
  dsimp only
  split
  · rfl
  · rfl

/-- **A read event** of a pending body arms the read timer again and keeps
everything else, or the body is not pending any more. -/
theorem StillRead.afterRead {conf : PendingConf} {s : PendingBody} (h : StillRead conf s)
    (readEvent : Bool) (e : ReadEnd) :
    (Toxic.afterRead conf readEvent .waiting s e).phase = .over ∨
      (∃ r, (Toxic.afterRead conf readEvent .waiting s e).phase = .waiting r) ∧
        StillRead conf (Toxic.afterRead conf readEvent .waiting s e) := by
  cases e with
  | again r =>
      cases readEvent with
      | true =>
          refine Or.inr ⟨⟨r, rfl⟩, ?_⟩
          exact ⟨h.done, h.requestComplete, Or.inr rfl, h.readHandler, h.writeHandler, h.reader,
            h.freed, h.posted, h.count⟩
      | false => exact Or.inl rfl
  | whole bufs => exact Or.inl rfl
  | invalid => exact Or.inl rfl
  | closed => exact Or.inl rfl

/-- **One step** of a request whose body is pending or that is entered. -/
theorem PendingInv.step {conf : PendingConf} {req : BodyRequest} {start s t : PendingBody}
    {event : PendingEvent} (hnew : Entered start) (h : PendingInv conf start s)
    (hstep : pendingStep conf req s event = some t) : PendingInv conf start t := by
  have hover : ∀ {u : PendingBody}, u.phase = .over → PendingInv conf start u := by
    intro u hu
    unfold PendingInv
    rw [hu]
    trivial
  unfold pendingStep at hstep
  split at hstep
  · -- the handler is called
    next hphase =>
      rename_i answers readEvent
      unfold PendingInv at h
      rw [hphase] at h
      obtain hend | ⟨-, r, rfl⟩ := toxicHandlerPending_cases hstep
      · exact hover hend.1
      · obtain rfl : s = start := h
        refine ⟨⟨hnew.done, hnew.requestComplete, rfl, rfl, hnew.reader, hnew.freed, hnew.posted⟩,
          ?_, rfl, hnew.error, hnew.buffered, hnew.discard⟩
        dsimp only
        rw [hnew.count]
  · -- the content phase finalizes
    next hphase =>
      rename_i r a
      unfold PendingInv at h
      rw [hphase] at h
      obtain ⟨hin, href⟩ := h
      obtain rfl := Option.some.inj hstep
      have hstill := finalizePending_stillRead (s := { s with phase := .waiting r }) a
        ⟨hin.done, hin.requestComplete, hin.timer, hin.readHandler, hin.reader, hin.freed,
          hin.posted⟩ ⟨href.count, href.writeHandler, href.error, href.buffered, href.discard⟩
      unfold PendingInv
      rw [finalizePending_phase]
      exact hstill
  · -- a read event
    next hphase =>
      rename_i r answers closed readEvent
      unfold PendingInv at h
      rw [hphase] at h
      have hstill : StillRead conf s := h
      split at hstep
      · unfold readPending at hstep
        rw [hstill.readHandler] at hstep
        obtain ⟨e, -, rfl⟩ := Option.map_eq_some_iff.mp hstep
        obtain hend | ⟨⟨r', hwaiting⟩, hkept⟩ := hstill.afterRead readEvent e
        · exact hover hend
        · unfold PendingInv
          rw [hwaiting]
          exact hkept
      · cases hstep
  · -- the read timer goes off
    next hphase =>
      rename_i r
      unfold PendingInv at h
      rw [hphase] at h
      have hstill : StillRead conf s := h
      split at hstep
      · rw [hstill.readHandler] at hstep
        obtain rfl := Option.some.inj hstep
        exact hover rfl
      · cases hstep
  · -- a write event
    next hphase =>
      rename_i r w a
      have hkept := h
      unfold PendingInv at h
      rw [hphase] at h
      have hstill : StillRead conf s := h
      split at hstep
      · rw [hstill.writeHandler] at hstep
        obtain rfl := Option.some.inj hstep
        exact hkept
      · cases hstep
  · cases hstep

/-- **In every run** of a request whose connection has not failed before, a body
that is pending is read on, and the request is marked as complete from the
finalization on. -/
theorem pending_kept (conf : PendingConf) (req : BodyRequest) (q : Incoming)
    (herror : q.error = false) (lingeringClose unread readReady readEof : Bool) (baseLen : Int)
    {events : List PendingEvent} {s : PendingBody}
    (hrun : Run (pendingStep conf req)
      (.start q lingeringClose unread readReady readEof baseLen) events s) :
    PendingInv conf (.start q lingeringClose unread readReady readEof baseLen) s := by
  refine hrun.invariant (fun s event t hs hstep => hs.step ?_ hstep) rfl
  exact ⟨rfl, rfl, rfl, rfl, rfl, rfl, herror, rfl, rfl⟩

/-- What is over has no step. -/
theorem run_over {conf : PendingConf} {req : BodyRequest} {s t : PendingBody}
    {events : List PendingEvent} (h : s.phase = .over)
    (hrun : execute (pendingStep conf req) s events = some t) : t = s := by
  cases events with
  | nil => exact (Option.some.inj hrun).symm
  | cons event events =>
      have hnone : pendingStep conf req s event = none := by
        unfold pendingStep
        rw [h]
      rw [execute, hnone] at hrun
      cases hrun

/-- The content phase finalizes when the handler has returned. -/
theorem pendingStep_finalize {conf : PendingConf} {req : BodyRequest} {s : PendingBody}
    {r : BodyReader} {a : FinalizeAnswers} (h : s.phase = .returned r) :
    pendingStep conf req s (.finalize a) =
      some (finalizePending conf a .ok { s with phase := .waiting r }) := by
  unfold pendingStep
  rw [h]

/-- A finalization in the content phase is the end of what must hold. -/
theorem finalizePending_not_inProgress (conf : PendingConf) (a : FinalizeAnswers)
    {s : PendingBody} (hbuffered : s.http.resp.buffered = false) :
    ¬ InProgress conf (finalizePending conf a .ok s) := by
  intro hin
  cases herror : s.http.resp.error with
  | true =>
      have hposted : (finalizePending conf a .ok s).http.posted = true := by
        unfold finalizePending
        simp [terminates, finalizeRequest, herror, terminateRequest]
      rw [hin.posted] at hposted
      cases hposted
  | false =>
      have hdone := (finalizePending_complete conf a herror hbuffered).1
      rw [hin.done] at hdone
      cases hdone

/-! ## A body with a Content-Length -/

/-- The bytes of the answers. -/
def receivedBytes : List RecvAnswer → Nat
  | [] => 0
  | .data piece :: answers => piece.length + receivedBytes answers
  | _ :: answers => receivedBytes answers

/-- Every answer is data. -/
def AllData (answers : List RecvAnswer) : Prop := ∀ a ∈ answers, a ≠ .eof ∧ a ≠ .error

/-- A full buffer that is written to the file is not missing. -/
theorem flush_length (conf : BodyConf) {req : BodyRequest} (hlength : req.chunked = false)
    {s : BodyReader} (hmissing : 0 < s.missing) :
    ∃ t, s.flush conf req = some t ∧ t.missing = s.missing := by
  unfold BodyReader.flush
  by_cases hfree : s.buf.free = 0
  · rw [if_pos hfree]
    unfold BodyReader.missing at hmissing ⊢
    have hrest : s.body.rest ≠ 0 := by omega
    have hless : (s.buf.data.length : Int) < s.body.rest := by omega
    have hfilter : bodyFilter conf req 0 s.body s.buf.data
        = some (lengthFilter 0 s.body s.buf.data) := by
      unfold bodyFilter
      rw [hlength, if_neg Bool.false_ne_true]
    rw [hfilter, Option.map_some]
    refine ⟨_, rfl, ?_⟩
    simp [lengthFilter, hrest, hless, writeRequestBody, BodyState.add]
  · rw [if_neg hfree]
    exact ⟨s, rfl, rfl⟩

/-- What `recv` gives is not missing any more, and the body is complete when
nothing is. -/
theorem recv_length (conf : BodyConf) {req : BodyRequest} (hlength : req.chunked = false)
    {s : BodyReader} {piece : Bytes}
    (h : 0 < piece.length ∧ piece.length ≤ s.buf.free ∧ piece.length ≤ s.missing) :
    ∃ t, s.recv conf req piece = some t ∧
      (if piece.length = s.missing then t.body.rest = 0
        else t.body.rest ≠ 0 ∧ t.missing = s.missing - piece.length) := by
  unfold BodyReader.recv
  unfold BodyReader.missing at h ⊢
  dsimp only
  rw [if_pos h]
  by_cases hall : (piece.length : Int) = s.body.rest - s.buf.data.length
  · rw [if_pos hall]
    unfold bodyFilter
    rw [hlength, if_neg Bool.false_ne_true, Option.map_some]
    refine ⟨_, rfl, ?_⟩
    have hrest : s.body.rest ≠ 0 := by omega
    have hless : ¬ (((s.buf.data ++ piece).length : Int) < s.body.rest) := by
      rw [List.length_append]
      omega
    rw [if_pos hall]
    unfold lengthFilter
    rw [if_neg hrest, if_neg hless]
    rfl
  · rw [if_neg hall]
    refine ⟨_, rfl, ?_⟩
    rw [if_neg hall]
    dsimp only
    rw [List.length_append]
    exact ⟨by omega, by omega⟩

/-- **A body with a Content-Length** is pending when all that `recv` gave is less
than what is missing, and the connection has not failed. -/
theorem doRead_length {conf : BodyConf} {req : BodyRequest} (hlength : req.chunked = false)
    {greedy : Bool} {answers : List RecvAnswer} {s : BodyReader} {e : ReadEnd}
    (hmissing : 0 < s.missing) (h : doRead conf req greedy answers s = some e) :
    (∃ t, e = .again t) ↔ AllData answers ∧ receivedBytes answers < s.missing := by
  induction answers generalizing s with
  | nil =>
      obtain ⟨t, ht, -⟩ := flush_length conf hlength hmissing
      rw [doRead, ht] at h
      cases h
      simp [AllData, receivedBytes, hmissing]
  | cons answer answers ih =>
      obtain ⟨f, hf, hsame⟩ := flush_length conf hlength hmissing
      rw [doRead, hf] at h
      cases answer with
      | eof =>
          obtain ⟨-, rfl⟩ : answers = [] ∧ ReadEnd.closed = e := by simpa using h
          simp [AllData]
      | error =>
          obtain ⟨-, rfl⟩ : answers = [] ∧ ReadEnd.closed = e := by simpa using h
          simp [AllData]
      | data piece =>
          have hdata : AllData (.data piece :: answers) ↔ AllData answers := by
            simp [AllData]
          dsimp only at h
          split at h
          next hfits =>
            obtain ⟨t, ht, hafter⟩ := recv_length conf hlength hfits
            rw [ht] at h
            dsimp only at h
            rw [hdata, receivedBytes, Nat.cast_add, ← hsame]
            by_cases hall : (piece.length : Int) = f.missing
            · rw [if_pos hall] at hafter
              rw [if_pos hafter] at h
              obtain ⟨-, rfl⟩ : answers = [] ∧ ReadEnd.whole (finishBody conf t.body) = e := by
                simpa using h
              refine iff_of_false (by simp) (fun hless => ?_)
              omega
            · rw [if_neg hall] at hafter
              obtain ⟨hrest, hleft⟩ := hafter
              rw [if_neg hrest] at h
              split at h
              · obtain ⟨rfl, rfl⟩ : answers = [] ∧ ReadEnd.again t = e := by simpa using h
                refine iff_of_true ⟨t, rfl⟩ ⟨by simp [AllData], ?_⟩
                simp only [receivedBytes]
                omega
              · have hrec := ih (show 0 < t.missing by omega) h
                rw [hrec, hleft]
                constructor
                · intro hless
                  exact ⟨hless.1, by omega⟩
                · intro hless
                  exact ⟨hless.1, by omega⟩
          next => cases h

/-- **A pending body is in progress in every state**, whatever the later events
are, if and only if there is no such state: the request is no POST or PUT, or its
first reading does not end with `NGX_AGAIN` — no body is expected, all of it was
read with the header or is there when the handler reads it, or the reading
fails. -/
theorem pendingSafe_iff (conf : PendingConf) (req : BodyRequest) (q : Incoming)
    (lingeringClose unread readReady readEof : Bool) (baseLen : Int)
    (answers : List RecvAnswer) (readEvent : Bool) :
    (∀ events s, execute (pendingStep conf req)
        (.start q lingeringClose unread readReady readEof baseLen)
        (.handler answers readEvent :: events) = some s → s.Pending → InProgress conf s) ↔
      ¬ ((q.method = .post ∨ q.method = .put) ∧ BodyWaits conf req answers readEvent) := by
  generalize hstart : PendingBody.start q lingeringClose unread readReady readEof baseLen = start
  have hpost : start.http.isPost = true ↔ q.method = .post ∨ q.method = .put := by
    rw [← hstart]
    simp [PendingBody.start, Http.start, Http.isPost, Response.start]
  have hphase : start.phase = .entering := by rw [← hstart]; rfl
  have hfirst : pendingStep conf req start (.handler answers readEvent)
      = toxicHandlerPending conf req answers readEvent start := by
    unfold pendingStep
    rw [hphase]
  rw [← hpost]
  constructor
  · intro hall hwaits
    obtain ⟨hpost, hready, r, t, hentry, hagain⟩ := hwaits
    -- the handler returns, and the content phase finalizes
    have hhandler : ∃ u, toxicHandlerPending conf req answers readEvent start = some u := by
      unfold toxicHandlerPending
      rw [hpost, hentry]
      dsimp only
      rw [hagain]
      exact ⟨_, rfl⟩
    obtain ⟨u, hu⟩ := hhandler
    obtain ⟨-, hnot⟩ | ⟨-, r', hr'⟩ := toxicHandlerPending_cases hu
    · exact hnot ⟨hpost, hready, r, t, hentry, hagain⟩
    · have hbuffered : u.http.resp.buffered = false := by rw [hr', ← hstart]; rfl
      have hreturned : u.phase = .returned r' := by rw [hr']
      let a : FinalizeAnswers := ⟨true, true, true, true⟩
      have hfinal := finalizePending_not_inProgress conf a
        (s := { u with phase := .waiting r' }) hbuffered
      refine hfinal (hall [.finalize a] _ ?_ ⟨r', Or.inr ?_⟩)
      · rw [execute, hfirst, hu, Option.bind_some, execute, pendingStep_finalize hreturned]
        rfl
      · rw [finalizePending_phase]
  · intro hnot events s hrun hpending
    rw [execute, hfirst] at hrun
    obtain ⟨u, hu, hrest⟩ := Option.bind_eq_some_iff.mp hrun
    obtain ⟨hover, -⟩ | ⟨hwaits, -⟩ := toxicHandlerPending_cases hu
    · obtain rfl := run_over hover hrest
      obtain ⟨r, h | h⟩ := hpending
      · rw [hover] at h
        cases h
      · rw [hover] at h
        cases h
    · exact absurd hwaits hnot

/-- An epoll process with the default timeouts. -/
def samplePendingConf : PendingConf :=
  ⟨sampleHttpConf, ⟨16384, 0, false, false⟩, true, 60000, 5000, 75000⟩

/-- A POST whose body of one byte is not there yet: the request is marked as
complete and the read timer is off before the body is read. -/
theorem pending_body_marked_done :
    ∃ events s, execute (pendingStep samplePendingConf ⟨false, some 1, false, [], 0⟩)
        (.start ⟨.post, 1001, 0, true, false, true⟩ false false false false 0) events = some s ∧
      s.Pending ∧ s.readTimer = none ∧ ¬ InProgress samplePendingConf s := by
  refine ⟨[.handler [] true, .finalize sampleFinalize], _, rfl, ⟨_, Or.inr rfl⟩, rfl, ?_⟩
  intro h
  cases h.done

end Toxic
