import ToxicNginx.StepSystem
import ToxicNginx.FinalizeRequest

/-!
# The references of a toxic request

One process, parent or child, from the call of the handler on: the handler
reads the body of a POST or PUT, forks, and both processes finalize the request
with different codes until it is freed; a body that is refused is answered with
a special response and no `fork`.  The labels carry what the outside decides: the
branch of `fork`, the script, what the socket takes, when the client closes.

* `httpStep` — the process as a step system over `Http`;
* `Balanced` — no count below zero, no call on a freed request, and a request
  whose response is out is freed;
* `BalancedStep` — the steps that keep the balance: a request other than POST
  and PUT must not be freed by a finalization that others follow, and a
  response may be drained by the writer only when one reference is left;
* `Stage` — the invariant, by where the process is with the request;
  `finalize_counted`, `special_counted`, … — the step lemmas, `httpStep_counted`;
* `balanced_of_guarded` — every run of such steps is balanced.
-/

namespace Toxic

open ChunkQueue StepSystem

/-- How far `ngx_http_read_client_request_body` is when it refuses the body:
`r->request_body` is not set, the part of the body in `header_in` is read, or the
rest is read from the connection. -/
inductive BodyStage
  | unset | preread | reading
  deriving DecidableEq, Repr

/-- What reading the request body comes to: the whole body, with the bytes of
`header_in` behind it or not; not yet all; a client that closed, or a connection
that failed; a timeout; a status of the reader or of its filter. -/
inductive BodyRead
  | whole (unread : Bool)
  | more
  | closed (failed : Bool)
  | timedOut
  | refused (status : SpecialStatus) (stage : BodyStage)
  deriving DecidableEq, Repr

/-- What `ngx_http_test_expect` does: nothing, `100 Continue` is sent, or the socket
takes only a part of it. -/
inductive Expect
  | unasked
  | sent
  | failed (taken : Nat) (writeReady : Bool)
  deriving DecidableEq, Repr

/-- A script that returns to `toxic_excecute`, with the outside answers to the
sending that follows. -/
structure ScriptRun where
  script : ScriptResult
  answers : ExitAnswers
  deriving DecidableEq, Repr

/-- What happens next to a request in a process. -/
inductive HttpEvent
  | handler (expect : Expect) (body : BodyRead)
  | fork (child : Bool)
  /-- The script runs; `none` when it ends the process, and `cleanup` says
  whether `ngx_pool_cleanup_add` succeeds. -/
  | execute (cleanup : Bool) (run : Option ScriptRun)
  | finalize (a : FinalizeAnswers)
  | special (p : PageAnswers)
  | runPosted (w : WriteAnswers) (a : FinalizeAnswers)
  | writable (timedOut : Bool) (w : WriteAnswers) (a : FinalizeAnswers)
  /-- `ready` is `c->read->ready` afterwards. -/
  | readable (ready : Bool) (body : BodyRead) (closed : Bool) (a : FinalizeAnswers)
  | lingering (ends : Bool)
  /-- A round of the thread; `ends` is what comes of it when it runs in a frame or
  reads a request that is gone. -/
  | poll (ends : Bool)
  deriving DecidableEq, Repr

/-- `r->method & (NGX_HTTP_POST|NGX_HTTP_PUT)`. -/
def Http.isPost (s : Http) : Bool := s.resp.method == .post || s.resp.method == .put

/-- Where `toxic_post_body_handler` returns to: the content phase when the
body was read at once, else the read event. -/
def Http.afterPostBody (s : Http) : Pc := if s.inPhase then .phaseFinalize .ok else .runPosted

/-- `"HTTP/1.1 100 Continue" CRLF CRLF`. -/
def continueLine : Bytes := bytesOf "HTTP/1.1 100 Continue" ++ crlf ++ crlf

/-- `ngx_http_test_expect`. -/
def testExpect (expect : Expect) (r : Response) : Response :=
  match expect with
  | .unasked => r
  | .sent =>
      { r with sent := r.sent + continueLine.length, wire := r.wire ++ continueLine }
  | .failed taken writeReady =>
      { r with
        sent := r.sent + taken
        wire := r.wire ++ continueLine.take taken
        writeReady := writeReady }

/-- A request that sends `100 Continue` has version 1.1; when the socket takes
only a part of it, the body is refused. -/
def Expect.fits (expect : Expect) (body : BodyRead) (r : Response) : Bool :=
  match expect with
  | .unasked => true
  | .sent => decide (1001 ≤ r.httpVersion)
  | .failed taken _ =>
      decide (1001 ≤ r.httpVersion) && decide (taken < continueLine.length) &&
        body == .refused .internalServerError .unset

/-- A body with a status is refused; a chunked body that is too large asks for a
lingering close. -/
def Http.refuse (status : SpecialStatus) (s : Http) : Http :=
  { s with
    lingeringClose := s.lingeringClose || status == .requestEntityTooLarge
    pc := .phaseFinalize (.special status) }

/-- `ngx_http_toxic_handler` up to `fork`. -/
def toxicHandler (expect : Expect) (body : BodyRead) (s : Http) : Http :=
  if s.isPost then
    let s' := { s with resp := testExpect expect s.resp, requestBody := true }
    match body with
    | .whole unread => { s' with count := s.count + 1, unread := unread, pc := .forking }
    -- the count is taken back and the handler returns the status
    | .closed _ =>
        { s' with
          resp := { s'.resp with error := true }
          readHandler := .readBody
          writeHandler := .empty
          pc := .phaseFinalize (.special .badRequest) }
    | .refused status .unset => { s' with requestBody := false }.refuse status
    | .refused status .preread => s'.refuse status
    | .refused status .reading =>
        { s' with readHandler := .readBody, writeHandler := .empty }.refuse status
    | .more | .timedOut =>
        { s' with
          count := s.count + 1
          readHandler := .readBody
          writeHandler := .empty
          pc := .phaseFinalize .ok }
  else
    { s with pc := .forking }

/-- Both branches behind `fork()`; a failed fork takes the parent's. -/
def forked (child : Bool) (s : Http) : Http :=
  if child then { s with pc := .executing }
  else if s.isPost then { s with handled := true, pc := .postFinalize }
  else { s with handled := true, pc := .handlerFinalize }

/-- `base_len` after the writes of a script. -/
def addWrites (baseLen : Int) (writes : List Bytes) : Int :=
  (nonEmpty writes).foldl (fun n str => addInt n str.length) baseLen

/-- The child runs the script and `exit_request` up to its finalization. -/
def executed (conf : HttpConf) (cleanup : Bool) (run : Option ScriptRun) (s : Http) : Http :=
  if s.isPost && !cleanup then
    { s with pc := s.afterPostBody }
  else
    match run with
    | none => { s with exited := true }
    | some run =>
        { s with
          cleanup := s.isPost
          baseLen := addWrites s.baseLen run.script.writes
          resp := (exitRequestSend conf.filter run.answers (addWrites s.baseLen run.script.writes)
            (storedBufs (nonEmpty run.script.writes)) (callStart run.script s.resp)).final
          handled := true
          pc := .exitFinalize }

/-- The next call of `ngx_http_finalize_request`. -/
def finalizeStep (conf : HttpConf) (a : FinalizeAnswers) (s : Http) : Option Http :=
  match s.pc with
  | .exitFinalize =>
      if s.isPost then
        some { call (finalizeRequest conf a .ok) s with pc := s.afterPostBody }
      else
        some { call (finalizeRequest conf a .ok) s with pc := .handlerFinalize, thread := true }
  | .postFinalize => some { call (finalizeRequest conf a .ok) s with pc := s.afterPostBody }
  | .handlerFinalize =>
      some { call (finalizeRequest conf a .again) s with pc := .phaseFinalize .ok }
  | .phaseFinalize rc =>
      match rc, s.resp.error with
      | .special status, false =>
          -- both timers are deleted, and the handler of both events is set
          some { call (fun s => { s with writeTimer := false, reader := .request }) s with
            pc := .special status }
      | rc, _ =>
          some { call (finalizeRequest conf a rc) s with pc := .runPosted, inPhase := false }
  | _ => none

/-- `ngx_http_special_response_handler`; the request is finalized with its
result. -/
def specialStep (conf : HttpConf) (p : PageAnswers) (s : Http) : Option Http :=
  match s.pc with
  | .special status =>
      match specialResponse conf.filter p status s with
      | (rc, s') => some { s' with pc := .phaseFinalize rc }
  | _ => none

/-- `r->write_event_handler(r)`. -/
def runWriteHandler (conf : HttpConf) (timedOut : Bool) (w : WriteAnswers) (a : FinalizeAnswers)
    (s : Http) : Http :=
  match s.writeHandler with
  | .empty => s
  | .terminate => terminateHandler s
  | .writer => if timedOut then finalizeRequest conf a .requestTimeOut s else writer conf w a s

/-- One round of `ngx_http_run_posted_requests`. -/
def runPostedStep (conf : HttpConf) (w : WriteAnswers) (a : FinalizeAnswers) (s : Http) : Http :=
  if s.freed then { s with pc := .idle }
  else if s.posted then
    { runWriteHandler conf false w a { s with posted := false } with pc := .runPosted }
  else { s with pc := .idle }

/-- `r->read_event_handler(r)`. -/
def runReadHandler (conf : HttpConf) (body : BodyRead) (closed : Bool) (a : FinalizeAnswers)
    (s : Http) : Http :=
  match s.readHandler with
  | .blockReading => { s with pc := .runPosted }
  | .testReading =>
      if closed then
        { finalizeRequest conf a .clientClosedRequest
            { s with readEof := true, resp := { s.resp with error := true } } with
          pc := .runPosted }
      else { s with pc := .runPosted }
  | .readBody =>
      match body with
      | .whole unread =>
          { s with readHandler := .blockReading, unread := unread, pc := .forking }
      | .more => { s with pc := .runPosted }
      | .closed _ =>
          { finalizeRequest conf a (.special .badRequest)
              { s with resp := { s.resp with error := true } } with
            pc := .runPosted }
      | .timedOut => { finalizeRequest conf a .requestTimeOut s with pc := .runPosted }
      | .refused status _ => s.refuse status
  | .discardBody =>
      -- behind the body the request is finalized with `NGX_DONE`
      let s' := { s with discardBody := false, lingeringClose := false }
      match body with
      | .whole _ =>
          { finalizeConnection conf a { s' with readHandler := .blockReading } with
            pc := .runPosted }
      | .closed failed =>
          { finalizeConnection conf a { s' with
              readEof := s.readEof || !failed
              resp := { s.resp with error := s.resp.error || failed } } with
            pc := .runPosted }
      | .more => { s with pc := .runPosted }
      | .timedOut | .refused _ _ =>
          { finalizeRequest conf a .error { s with resp := { s.resp with error := true } } with
            pc := .runPosted }

/-- The event module sets `c->write->ready`. -/
def Http.markWritable (s : Http) : Http :=
  { s with resp := { s.resp with writeReady := true } }

/-- The process waits for events of a request that is there. -/
def Http.waits (s : Http) (reader : ConnHandler) : Bool :=
  s.pc == .idle && !s.freed && s.reader == reader

/-- `waitIT` and its variable `r` are there: it is a function inside the handler,
which starts the thread and has not returned. -/
def Http.framed (s : Http) : Bool := s.pc == .handlerFinalize

/-- A round of `waitIT` in the thread. -/
def pollStep (ends : Bool) (s : Http) : Http :=
  if s.framed && !s.freed then
    if s.baseLen ≤ s.resp.sent then { s with exited := true } else s
  else { s with staleRead := true, exited := s.exited || ends }

/-- One step of the process with the request. -/
def httpStep (conf : HttpConf) (s : Http) (event : HttpEvent) : Option Http :=
  if s.exited then none
  else
    match event with
    | .handler expect body =>
        if s.pc = .handler ∧ body ≠ .timedOut ∧ expect.fits body s.resp = true then
          some (toxicHandler expect body s)
        else none
    | .fork child => if s.pc = .forking then some (forked child s) else none
    | .execute cleanup run => if s.pc = .executing then some (executed conf cleanup run s) else none
    | .finalize a => finalizeStep conf a s
    | .special p => specialStep conf p s
    | .runPosted w a => if s.pc = .runPosted then some (runPostedStep conf w a s) else none
    | .writable timedOut w a =>
        if s.waits .request && (!timedOut || s.writeTimer) then
          some { runWriteHandler conf timedOut w a s.markWritable with pc := .runPosted }
        else none
    | .readable ready body closed a =>
        if s.waits .request then
          some (runReadHandler conf body closed a { s with readReady := ready })
        else none
    | .lingering ends =>
        if s.waits .lingering then some (if ends then closeRequest s else s) else none
    | .poll ends => if s.thread then some (pollStep ends s) else none

/-- What a step does, with what it finds. -/
inductive HttpStepped (conf : HttpConf) (s : Http) : HttpEvent → Http → Prop
  | handler {expect : Expect} {body : BodyRead} (hpc : s.pc = .handler) (hbody : body ≠ .timedOut)
      (hexpect : expect.fits body s.resp = true) :
      HttpStepped conf s (.handler expect body) (toxicHandler expect body s)
  | fork {child : Bool} (hpc : s.pc = .forking) :
      HttpStepped conf s (.fork child) (forked child s)
  | execute {cleanup : Bool} {run : Option ScriptRun} (hpc : s.pc = .executing) :
      HttpStepped conf s (.execute cleanup run) (executed conf cleanup run s)
  | finalize {a : FinalizeAnswers} {t : Http} (hstep : finalizeStep conf a s = some t) :
      HttpStepped conf s (.finalize a) t
  | special {p : PageAnswers} {status : SpecialStatus} (hpc : s.pc = .special status) :
      HttpStepped conf s (.special p)
        { (specialResponse conf.filter p status s).2 with
          pc := .phaseFinalize (specialResponse conf.filter p status s).1 }
  | runPosted {w : WriteAnswers} {a : FinalizeAnswers} (hpc : s.pc = .runPosted) :
      HttpStepped conf s (.runPosted w a) (runPostedStep conf w a s)
  | writable {timedOut : Bool} {w : WriteAnswers} {a : FinalizeAnswers}
      (hwaits : s.waits .request = true) (htimer : (!timedOut || s.writeTimer) = true) :
      HttpStepped conf s (.writable timedOut w a)
        { runWriteHandler conf timedOut w a s.markWritable with pc := .runPosted }
  | readable {ready : Bool} {body : BodyRead} {closed : Bool} {a : FinalizeAnswers}
      (hwaits : s.waits .request = true) :
      HttpStepped conf s (.readable ready body closed a)
        (runReadHandler conf body closed a { s with readReady := ready })
  | lingering {ends : Bool} (hwaits : s.waits .lingering = true) :
      HttpStepped conf s (.lingering ends) (if ends then closeRequest s else s)
  | poll {ends : Bool} (hthread : s.thread = true) :
      HttpStepped conf s (.poll ends) (pollStep ends s)

/-- The special response runs where the finalization has called it. -/
theorem specialStep_cases {conf : HttpConf} {p : PageAnswers} {s t : Http}
    (h : specialStep conf p s = some t) :
    ∃ status, s.pc = .special status ∧
      t = { (specialResponse conf.filter p status s).2 with
        pc := .phaseFinalize (specialResponse conf.filter p status s).1 } := by
  unfold specialStep at h
  split at h
  next status hpc => exact ⟨status, hpc, (Option.some.inj h).symm⟩
  next => cases h

/-- **The steps** of a process with a request. -/
theorem httpStep_cases {conf : HttpConf} {s t : Http} {event : HttpEvent}
    (hstep : httpStep conf s event = some t) :
    s.exited = false ∧ HttpStepped conf s event t := by
  unfold httpStep at hstep
  split at hstep
  next => cases hstep
  next hexited =>
    refine ⟨Bool.eq_false_iff.mpr hexited, ?_⟩
    cases event with
    | handler expect body =>
        simp only [Option.ite_none_right_eq_some, Option.some.injEq] at hstep
        obtain ⟨⟨hpc, hbody, hexpect⟩, rfl⟩ := hstep
        exact .handler hpc hbody hexpect
    | fork child =>
        simp only [Option.ite_none_right_eq_some, Option.some.injEq] at hstep
        obtain ⟨hpc, rfl⟩ := hstep
        exact .fork hpc
    | execute cleanup run =>
        simp only [Option.ite_none_right_eq_some, Option.some.injEq] at hstep
        obtain ⟨hpc, rfl⟩ := hstep
        exact .execute hpc
    | finalize a => exact .finalize hstep
    | special p =>
        obtain ⟨status, hpc, rfl⟩ := specialStep_cases hstep
        exact .special hpc
    | runPosted w a =>
        simp only [Option.ite_none_right_eq_some, Option.some.injEq] at hstep
        obtain ⟨hpc, rfl⟩ := hstep
        exact .runPosted hpc
    | writable timedOut w a =>
        simp only [Option.ite_none_right_eq_some, Option.some.injEq, Bool.and_eq_true] at hstep
        obtain ⟨⟨hwaits, htimer⟩, rfl⟩ := hstep
        exact .writable hwaits htimer
    | readable ready body closed a =>
        simp only [Option.ite_none_right_eq_some, Option.some.injEq] at hstep
        obtain ⟨hwaits, rfl⟩ := hstep
        exact .readable hwaits
    | lingering ends =>
        simp only [Option.ite_none_right_eq_some, Option.some.injEq] at hstep
        obtain ⟨hwaits, rfl⟩ := hstep
        exact .lingering hwaits
    | poll ends =>
        simp only [Option.ite_none_right_eq_some, Option.some.injEq] at hstep
        obtain ⟨hthread, rfl⟩ := hstep
        exact .poll hthread

/-- A process that waits for events has the request. -/
theorem waits_cases {s : Http} {reader : ConnHandler} (h : s.waits reader = true) :
    s.pc = .idle ∧ s.freed = false ∧ s.reader = reader := by
  simp only [Http.waits, Bool.and_eq_true, beq_iff_eq, Bool.not_eq_true'] at h
  exact ⟨h.1.1, h.1.2, h.2⟩

/-- The request when the content phase calls the handler: `lingeringClose`,
`unread`, `readReady` and `readEof` are what reading the header left. -/
def Http.start (q : Incoming) (lingeringClose unread readReady readEof : Bool) (baseLen : Int) :
    Http where
  resp := Response.start q
  count := 1
  pc := .handler
  inPhase := true
  readHandler := .blockReading
  writeHandler := .empty
  posted := false
  reader := .request
  lingeringClose := lingeringClose
  unread := unread
  readReady := readReady
  readEof := readEof
  writeTimer := false
  requestBody := false
  discardBody := false
  cleanup := false
  baseLen := baseLen
  thread := false
  handled := false
  freed := false
  exited := false
  useAfterFree := false
  underflow := false
  staleRead := false

/-- The events that a timer brings, with the posted requests that are run behind
them. -/
def HttpEvent.ofTimer : HttpEvent → Bool
  | .readable _ .timedOut _ _ | .writable true _ _ | .lingering true | .runPosted _ _ => true
  | _ => false

/-- The request is freed when its timer ends, if nothing comes before. -/
def EndsByTimer (conf : HttpConf) (s : Http) : Prop :=
  ∃ events t, Run (httpStep conf) s events t ∧ t.freed = true ∧
    ∀ event ∈ events, event.ofTimer = true

/-- What the references of a request must satisfy in every state: the count
never goes below zero, nothing is called on a freed request, and once the
response is out or the connection failed the request is freed, or the end of a
timer frees it: of a lingering close, of the discarding of a refused body, or of
a page that waits for a connection that failed meanwhile. -/
structure Balanced (conf : HttpConf) (s : Http) : Prop where
  noUnderflow : s.underflow = false
  noUseAfterFree : s.useAfterFree = false
  released : s.pc = .idle → s.exited = false →
    (s.handled = true ∧ s.resp.buffered = false) ∨ s.resp.error = true →
    s.freed = true ∨ EndsByTimer conf s

/-- The steps under which the references balance. -/
def BalancedStep (conf : HttpConf) (s : Http) : HttpEvent → Prop
  | .finalize a =>
      -- the write event is registered, or another reference is left
      (s.resp.error = false → s.resp.buffered = true → a.writeEvent = false → s.count = 2) ∧
      -- a finalization that others follow does not free the request
      (s.isPost = false → s.pc = .exitFinalize ∨ s.pc = .handlerFinalize →
        s.resp.error = true ∨ s.resp.buffered = true ∨ LingersAfter conf a s)
  | .writable timedOut w _ =>
      -- the writer drains the response only for the last user, or besides the one who discards
      s.writeHandler = .writer → timedOut = false → w.send.failed = false →
        (contents s.resp.out).length ≤ w.send.taken → s.count = 1 ∨ s.discardBody = true
  | _ => True

instance (conf : HttpConf) (s : Http) (event : HttpEvent) :
    Decidable (BalancedStep conf s event) := by
  cases event <;> unfold BalancedStep <;> infer_instance

/-- The references a POST or PUT has while it is handled: its own and, inside
the content phase, the one of reading the body. -/
def Http.refs (s : Http) : Nat := if s.isPost && s.inPhase then 2 else 1

/-- The body of a refused request is discarded, and its connection is closed
behind the response. -/
def Discards (s : Http) : Prop := s.readHandler = .discardBody ∧ s.resp.keepalive = false

theorem Discards.reads {s : Http} (h : Discards s) : s.readHandler = .discardBody := h.1

theorem Discards.closes {s : Http} (h : Discards s) : s.resp.keepalive = false := h.2

/-- The body is discarded as long as the read event handler and the keepalive
stay. -/
theorem Discards.kept {s t : Http} (h : Discards s) (hreads : t.readHandler = s.readHandler)
    (hcloses : t.resp.keepalive = s.resp.keepalive) : Discards t :=
  ⟨hreads.trans h.reads, hcloses.trans h.closes⟩

/-- It is while the response is written, too. -/
theorem Discards.writing {s t : Http} (hdiscard : s.discardBody = true → Discards s)
    (h : s.discardBody = true) (hreads : t.readHandler = s.writingReader)
    (hcloses : t.resp.keepalive = s.resp.keepalive) : Discards t :=
  ⟨hreads.trans (Http.writingReader_discard h), hcloses.trans (hdiscard h).closes⟩

/-- A request between two finalizations. -/
structure Between (s : Http) : Prop where
  freed : s.freed = false
  count : s.count = 1 ∨ s.count = 2
  reader : s.reader = .request ∨
    (s.reader = .lingering ∧ s.resp.buffered = false ∧ s.count = 1)
  posted : s.posted = true → s.writeHandler = .terminate ∧
    (s.resp.error = true ∨ (s.resp.buffered = true ∧ s.count = 1))
  unhandled : s.handled = false → s.reader = .request ∧ s.resp.buffered = false ∧
    (s.readHandler = .blockReading ∨ s.readHandler = .readBody)
  discard : s.discardBody = true → Discards s

/-- A request that waits for events: in a lingering close, for its body, with a
response that is pending, or for the rest of a body that is discarded. -/
structure Resting (s : Http) : Prop where
  freed : s.freed = false
  posted : s.posted = false
  discard : s.discardBody = true → Discards s
  cases : (s.reader = .lingering ∧ s.count = 1) ∨
    (s.reader = .request ∧ s.handled = false ∧ s.count = 1 ∧ s.writeHandler = .empty ∧
      s.resp.buffered = false ∧ s.resp.error = false ∧
      (s.readHandler = .blockReading ∨ s.readHandler = .readBody)) ∨
    (s.reader = .request ∧ s.handled = true ∧ s.resp.buffered = true ∧ s.writeTimer = true ∧
      s.writeHandler = .writer ∧ s.readHandler ≠ .readBody ∧ (s.count = 1 ∨ s.count = 2)) ∨
    (s.reader = .request ∧ s.handled = true ∧ s.resp.buffered = false ∧
      s.writeHandler = .empty ∧ s.discardBody = true ∧ s.count = 1)

/-- A request when its posted requests are run: the terminate handler is
posted, or the writer took its place, or the request rests. -/
def Posting (s : Http) : Prop :=
  Resting s ∨
  (s.freed = false ∧ s.posted = true ∧ s.writeHandler = .terminate) ∨
  (s.freed = false ∧ s.posted = true ∧ s.writeHandler = .writer ∧ s.count = 1 ∧
    s.handled = true ∧ s.resp.error = false ∧ s.reader = .request ∧
    s.readHandler ≠ .readBody ∧ (s.discardBody = true → Discards s))

/-- A request whose handler has not finished. -/
structure Unhandled (s : Http) : Prop where
  freed : s.freed = false
  reader : s.reader = .request
  posted : s.posted = false
  writeHandler : s.writeHandler = .empty
  readHandler : s.readHandler = .blockReading
  buffered : s.resp.buffered = false
  handled : s.handled = false
  discard : s.discardBody = false
  error : s.inPhase = false → s.resp.error = false

/-- A request whose body was refused and that has no other user. -/
structure Refused (s : Http) : Prop where
  freed : s.freed = false
  reader : s.reader = .request
  posted : s.posted = false
  handled : s.handled = false
  discard : s.discardBody = false
  count : s.count = 1

/-- The invariant of a process that runs, by where it is with the request. -/
def Stage (s : Http) : Prop :=
  match s.pc with
  | .handler => Unhandled s ∧ s.count = 1 ∧ s.inPhase = true
  | .forking | .executing => Unhandled s ∧ s.count = s.refs
  | .exitFinalize => Between s ∧ s.posted = false ∧ s.handled = true ∧ s.count = s.refs
  | .postFinalize =>
      Between s ∧ s.posted = false ∧ s.handled = true ∧ s.count = s.refs ∧ s.isPost = true
  | .handlerFinalize =>
      Between s ∧ (s.posted = true → s.resp.error = true) ∧ s.handled = true ∧ s.count = 1 ∧
        s.isPost = false
  | .phaseFinalize rc =>
      Between s ∧
        (∀ status, rc = .special status → s.resp.error = false → Refused s) ∧
        (s.count = 2 → s.handled = true →
          s.resp.error = true ∨ s.resp.buffered = true ∨ s.discardBody = true)
  | .special _ => Refused s
  | .runPosted => s.inPhase = false ∧ (s.freed = true ∨ Posting s)
  | .idle => s.inPhase = false ∧ (s.freed = true ∨ Resting s)

/-- The invariant of the process with the request. -/
structure Counted (s : Http) : Prop where
  noUseAfterFree : s.useAfterFree = false
  noUnderflow : s.underflow = false
  stage : s.exited = true ∨ Stage s

/-- The guard of a finalization for the write event. -/
def EventKept (a : FinalizeAnswers) (s : Http) : Prop :=
  s.resp.error = false → s.resp.buffered = true → a.writeEvent = false → s.count = 2

/-- **A finalization that others follow** leaves the request alive when it does
not free it as its last user. -/
theorem finalizeRequest_between (conf : HttpConf) {a : FinalizeAnswers} {rc : Rc} {s : Http}
    (halive : Alive s) (hbetween : Between s) (hrc : rc.Fine)
    (hposted : s.posted = true → s.resp.error = true) (hhandled : s.handled = true)
    (hevent : EventKept a s)
    (hkept : s.count = 1 →
      s.resp.error = true ∨ s.resp.buffered = true ∨ LingersAfter conf a s) :
    Alive (finalizeRequest conf a rc s) ∧ Between (finalizeRequest conf a rc s) ∧
      (finalizeRequest conf a rc s).handled = true ∧
      (finalizeRequest conf a rc s).resp = s.resp ∧
      ((finalizeRequest conf a rc s).count = 2 →
        s.resp.error = true ∨ s.resp.buffered = true ∨
          (finalizeRequest conf a rc s).discardBody = true) ∧
      (s.count = 1 → (finalizeRequest conf a rc s).count = 1 ∧
        ((finalizeRequest conf a rc s).posted = true → s.resp.error = true)) := by
  by_cases herr : s.resp.error = true
  · rw [finalizeRequest_terminates conf a (Or.inr (Or.inr (Or.inr herr)))]
    refine ⟨⟨halive.1, halive.2, halive.3, halive.4⟩, ⟨hbetween.freed, hbetween.count,
      hbetween.reader, fun _ => ⟨rfl, Or.inl herr⟩, fun h => ?_,
      fun h => (hbetween.discard h).kept rfl rfl⟩, hhandled, rfl,
      fun _ => Or.inl herr, fun h => ⟨h, fun _ => herr⟩⟩
    rw [show (terminateRequest s).handled = s.handled from rfl, hhandled] at h
    cases h
  have hfine : s.resp.error = false := Bool.eq_false_iff.mpr herr
  have hquiet : s.posted = false := by
    rw [Bool.eq_false_iff]
    exact fun h => herr (hposted h)
  by_cases hbuffered : s.resp.buffered = true
  · have hreader : s.reader = .request := by
      rcases hbetween.reader with h | ⟨_, h, _⟩
      · exact h
      · rw [hbuffered] at h
        cases h
    rw [finalizeRequest_buffered conf a halive hrc hfine hbuffered (hevent hfine hbuffered)]
    by_cases hwrite : a.writeEvent = true
    · rw [if_pos hwrite]
      refine ⟨⟨halive.1, halive.2, halive.3, halive.4⟩, ⟨hbetween.freed, hbetween.count,
        hbetween.reader, fun h => ?_, fun h => ?_,
        fun h => Discards.writing hbetween.discard h rfl rfl⟩, hhandled, rfl,
        fun _ => Or.inr (Or.inl hbuffered), fun h => ⟨h, fun hp => ?_⟩⟩
      · rw [show _ = s.posted from rfl, hquiet] at h
        cases h
      · rw [show _ = s.handled from rfl, hhandled] at h
        cases h
      · exact hposted hp
    · rw [if_neg hwrite]
      have hcount : s.count = 2 := hevent hfine hbuffered (Bool.eq_false_iff.mpr hwrite)
      refine ⟨⟨halive.1, halive.2, halive.3, halive.4⟩, ⟨hbetween.freed, Or.inl rfl,
        Or.inl hreader, fun _ => ⟨rfl, Or.inr ⟨hbuffered, rfl⟩⟩, fun h => ?_,
        fun h => Discards.writing hbetween.discard h rfl rfl⟩, hhandled, rfl,
        fun _ => Or.inr (Or.inl hbuffered), fun h => ?_⟩
      · rw [show _ = s.handled from rfl, hhandled] at h
        cases h
      · omega
  have hsent : s.resp.buffered = false := Bool.eq_false_iff.mpr hbuffered
  rcases hbetween.count with hcount | hcount
  · have hlingers : LingersAfter conf a s := by
      rcases hkept hcount with h | h | h
      · exact absurd h herr
      · exact absurd h hbuffered
      · exact h
    rcases finalizeRequest_last conf a halive hrc hfine hsent hcount
        (fun h => (hbetween.discard h).closes) with ⟨_, h⟩ | ⟨hnot, _⟩
    · rw [h]
      refine ⟨⟨halive.1, halive.2, halive.3, halive.4⟩, ⟨hbetween.freed, hbetween.count,
        Or.inr ⟨rfl, hsent, hcount⟩, fun h => ?_, fun h => ?_,
        fun h => (hbetween.discard h).kept rfl rfl⟩, hhandled, rfl,
        fun h => ?_, fun h => ⟨h, hposted⟩⟩
      · rw [show _ = s.posted from rfl, hquiet] at h
        cases h
      · rw [show _ = s.handled from rfl, hhandled] at h
        cases h
      · rw [show _ = s.count from rfl] at h
        omega
    · exact absurd hlingers hnot
  · have hreader : s.reader = .request := by
      rcases hbetween.reader with h | ⟨_, _, h⟩
      · exact h
      · omega
    rw [finalizeRequest_shared conf a hrc hfine hsent hcount fun h => (hbetween.discard h).reads]
    refine ⟨⟨halive.1, halive.2, halive.3, halive.4⟩, ⟨hbetween.freed, Or.inl rfl,
      Or.inl hreader, fun h => ?_, fun h => ?_, fun h => (hbetween.discard h).kept rfl rfl⟩,
      hhandled, rfl, fun h => ?_, fun h => ?_⟩
    · rw [show _ = s.posted from rfl, hquiet] at h
      cases h
    · rw [show _ = s.handled from rfl, hhandled] at h
      cases h
    · cases h
    · omega

/-- **The last finalization of an activation** frees the request, ends the
process or leaves a request that posts or rests. -/
theorem finalizeRequest_posting (conf : HttpConf) {a : FinalizeAnswers} {rc : Rc} {s : Http}
    (halive : Alive s) (hbetween : Between s) (hevent : EventKept a s)
    (hshared : s.count = 2 → s.handled = true →
      s.resp.error = true ∨ s.resp.buffered = true ∨ s.discardBody = true) :
    Over (finalizeRequest conf a rc s) ∨
      (Alive (finalizeRequest conf a rc s) ∧ Posting (finalizeRequest conf a rc s)) := by
  by_cases hterm : rc = .error ∨ rc = .requestTimeOut ∨ rc = .clientClosedRequest ∨
      s.resp.error = true
  · rw [finalizeRequest_terminates conf a hterm]
    exact Or.inr ⟨⟨halive.1, halive.2, halive.3, halive.4⟩,
      Or.inr (Or.inl ⟨hbetween.freed, rfl, rfl⟩)⟩
  have hrc : rc.Fine :=
    ⟨fun h => hterm (Or.inl h), fun h => hterm (Or.inr (Or.inl h)),
      fun h => hterm (Or.inr (Or.inr (Or.inl h)))⟩
  have herr : s.resp.error ≠ true := fun h => hterm (Or.inr (Or.inr (Or.inr h)))
  have hfine : s.resp.error = false := Bool.eq_false_iff.mpr herr
  by_cases hbuffered : s.resp.buffered = true
  · have hhandled : s.handled = true := by
      by_contra hnot
      have := (hbetween.unhandled (Bool.eq_false_iff.mpr hnot)).2.1
      rw [hbuffered] at this
      cases this
    have hreader : s.reader = .request := by
      rcases hbetween.reader with h | ⟨_, h, _⟩
      · exact h
      · rw [hbuffered] at h
        cases h
    rw [finalizeRequest_buffered conf a halive hrc hfine hbuffered (hevent hfine hbuffered)]
    right
    by_cases hwrite : a.writeEvent = true
    · rw [if_pos hwrite]
      refine ⟨⟨halive.1, halive.2, halive.3, halive.4⟩, ?_⟩
      by_cases hposted : s.posted = true
      · obtain ⟨_, h | ⟨_, hcount⟩⟩ := hbetween.posted hposted
        · exact absurd h herr
        · exact Or.inr (Or.inr ⟨hbetween.freed, hposted, rfl, hcount, hhandled, hfine, hreader,
            s.writingReader_ne, fun h => Discards.writing hbetween.discard h rfl rfl⟩)
      · exact Or.inl ⟨hbetween.freed, Bool.eq_false_iff.mpr hposted,
          fun h => Discards.writing hbetween.discard h rfl rfl,
          Or.inr (Or.inr (Or.inl
            ⟨hreader, hhandled, hbuffered, rfl, rfl, s.writingReader_ne, hbetween.count⟩))⟩
    · rw [if_neg hwrite]
      exact ⟨⟨halive.1, halive.2, halive.3, halive.4⟩,
        Or.inr (Or.inl ⟨hbetween.freed, rfl, rfl⟩)⟩
  have hsent : s.resp.buffered = false := Bool.eq_false_iff.mpr hbuffered
  have hquiet : s.posted = false := by
    rw [Bool.eq_false_iff]
    intro h
    obtain ⟨_, h | ⟨h, _⟩⟩ := hbetween.posted h
    · exact herr h
    · exact hbuffered h
  rcases hbetween.count with hcount | hcount
  · rcases finalizeRequest_last conf a halive hrc hfine hsent hcount
        (fun h => (hbetween.discard h).closes) with ⟨_, h⟩ | ⟨_, hover⟩
    · rw [h]
      exact Or.inr ⟨⟨halive.1, halive.2, halive.3, halive.4⟩,
        Or.inl ⟨hbetween.freed, hquiet, fun h => (hbetween.discard h).kept rfl rfl,
          Or.inl ⟨rfl, hcount⟩⟩⟩
    · exact Or.inl hover
  · have hreader : s.reader = .request := by
      rcases hbetween.reader with h | ⟨_, _, h⟩
      · exact h
      · omega
    rw [finalizeRequest_shared conf a hrc hfine hsent hcount fun h => (hbetween.discard h).reads]
    refine Or.inr ⟨⟨halive.1, halive.2, halive.3, halive.4⟩, Or.inl ⟨hbetween.freed, hquiet,
      fun h => (hbetween.discard h).kept rfl rfl, Or.inr ?_⟩⟩
    by_cases hhandled : s.handled = true
    · rcases hshared hcount hhandled with h | h | hdiscard
      · exact absurd h herr
      · exact absurd h hbuffered
      · exact Or.inr (Or.inr ⟨hreader, hhandled, hsent, rfl, hdiscard, rfl⟩)
    · have hnot : s.handled = false := Bool.eq_false_iff.mpr hhandled
      obtain ⟨_, _, hread⟩ := hbetween.unhandled hnot
      exact Or.inl ⟨hreader, hnot, rfl, rfl, hsent, hfine, hread⟩

/-- **The writer** of a request without posted requests: what it leaves posts
or rests, unless the last user is through. -/
theorem writer_posting (conf : HttpConf) {w : WriteAnswers} {a : FinalizeAnswers} {s : Http}
    (halive : Alive s) (hposted : s.posted = false) (hhandled : s.handled = true)
    (hreader : s.reader = .request) (hwriter : s.writeHandler = .writer)
    (hread : s.readHandler ≠ .readBody) (hcount : s.count = 1 ∨ s.count = 2)
    (hdiscard : s.discardBody = true → Discards s)
    (hdrain : w.send.failed = false → (contents s.resp.out).length ≤ w.send.taken →
      s.count = 1 ∨ s.discardBody = true) :
    Over (writer conf w a s) ∨ (Alive (writer conf w a s) ∧ Posting (writer conf w a s)) := by
  have halive' : ∀ (resp : Response) (h : WriteHandler) (timer : Bool),
      Alive { s with resp := resp, writeHandler := h, writeTimer := timer } :=
    fun _ _ _ => ⟨halive.1, halive.2, halive.3, halive.4⟩
  have hkeepalive := outputFilter_keepalive conf.filter w [] s.resp
  unfold writer
  cases hfilter : outputFilter conf.filter w [] s.resp with
  | mk rc resp =>
      rw [hfilter] at hkeepalive
      have hdiscards : ∀ {t : Http}, t.discardBody = s.discardBody →
          t.readHandler = s.readHandler → t.resp.keepalive = resp.keepalive →
          t.discardBody = true → Discards t :=
        fun hd hr hk h => (hdiscard (hd.symm.trans h)).kept hr (hk.trans hkeepalive)
      simp only
      by_cases hrc : rc = .error
      · rw [if_pos hrc, finalizeRequest_terminates conf a (Or.inl hrc)]
        exact Or.inr ⟨⟨halive.1, halive.2, halive.3, halive.4⟩,
          Or.inr (Or.inl ⟨halive.freed, rfl, rfl⟩)⟩
      rw [if_neg hrc]
      obtain ⟨hfine, herr, hkeep⟩ := outputFilter_nil conf.filter w (r := s.resp)
        (by rw [hfilter]; exact hrc)
      rw [hfilter] at hfine herr hkeep
      by_cases hbuffered : resp.buffered = true
      · rw [if_pos hbuffered]
        by_cases hevent : a.writeEvent = true
        · rw [if_pos hevent]
          exact Or.inr ⟨halive' _ _ _, Or.inl ⟨halive.freed, hposted, hdiscards rfl rfl rfl,
            Or.inr (Or.inr (Or.inl
              ⟨hreader, hhandled, hbuffered, rfl, hwriter, hread, hcount⟩))⟩⟩
        · rw [if_neg hevent]
          rcases hcount with hone | htwo
          · exact Or.inl (closeRequest_last (halive' _ _ _) hone)
          · rw [closeRequest_shared (s := { s with resp := resp, writeTimer := true }) htwo]
            exact Or.inr ⟨⟨halive.1, halive.2, halive.3, halive.4⟩,
              Or.inl ⟨halive.freed, hposted, hdiscards rfl rfl rfl,
                Or.inr (Or.inr (Or.inl
                  ⟨hreader, hhandled, hbuffered, rfl, hwriter, hread, Or.inl rfl⟩))⟩⟩
      · rw [if_neg hbuffered]
        have hsent : resp.buffered = false := Bool.eq_false_iff.mpr hbuffered
        have hone : s.count = 1 ∨ s.discardBody = true := by
          by_contra hnot
          refine hbuffered (hkeep ?_)
          rintro ⟨hok, hall⟩
          exact hnot (hdrain hok hall)
        have hempty : Alive { s with resp := resp, writeHandler := .empty } :=
          ⟨halive.1, halive.2, halive.3, halive.4⟩
        rcases hcount with hcount | hcount
        · rcases finalizeRequest_last conf a hempty hfine herr hsent hcount
              (fun h => (hdiscards rfl rfl rfl h : Discards
                { s with resp := resp, writeHandler := .empty }).closes) with ⟨_, h⟩ | ⟨_, hover⟩
          · rw [h]
            exact Or.inr ⟨⟨halive.1, halive.2, halive.3, halive.4⟩,
              Or.inl ⟨halive.freed, hposted, hdiscards rfl rfl rfl, Or.inl ⟨rfl, hcount⟩⟩⟩
          · exact Or.inl hover
        · -- the rest of the body is still discarded
          have hdisc : s.discardBody = true := hone.resolve_left (by omega)
          rw [finalizeRequest_shared conf a
            (s := { s with resp := resp, writeHandler := .empty }) hfine herr hsent hcount
            fun h => (hdiscard h).reads]
          exact Or.inr ⟨⟨halive.1, halive.2, halive.3, halive.4⟩,
            Or.inl ⟨halive.freed, hposted, hdiscards rfl rfl rfl,
              Or.inr (Or.inr (Or.inr ⟨hreader, hhandled, hsent, rfl, hdisc, rfl⟩))⟩⟩

/-- On a live request a call is the function. -/
theorem call_alive {f : Http → Http} {s : Http} (halive : Alive s) : call f s = f s := by
  unfold call
  rw [halive.exited, halive.freed]
  rfl

/-- A request that is over satisfies the invariant wherever the process goes on
to wait. -/
theorem Over.counted {s : Http} (h : Over s) :
    Counted { s with pc := .runPosted, inPhase := false } := by
  refine ⟨h.useAfterFree, h.underflow, ?_⟩
  rcases h.gone with hfreed | hexited
  · exact Or.inr ⟨rfl, Or.inl hfreed⟩
  · exact Or.inl hexited

/-- What the last finalization of an activation leaves satisfies the
invariant. -/
theorem counted_of_posting {s : Http} (h : Over s ∨ (Alive s ∧ Posting s)) :
    Counted { s with pc := .runPosted, inPhase := false } := by
  rcases h with hover | ⟨halive, hposting⟩
  · exact hover.counted
  refine ⟨halive.useAfterFree, halive.underflow, Or.inr ⟨rfl, Or.inr ?_⟩⟩
  rcases hposting with hrest | hterm | hwriter
  · exact Or.inl ⟨hrest.1, hrest.2, hrest.3, hrest.4⟩
  · exact Or.inr (Or.inl hterm)
  · exact Or.inr (Or.inr hwriter)

/-- The place of the process does not matter between finalizations. -/
theorem Between.move {s : Http} (h : Between s) (pc : Pc) (thread inPhase : Bool) :
    Between { s with pc := pc, thread := thread, inPhase := inPhase } :=
  ⟨h.1, h.2, h.3, h.4, h.5, h.6⟩

/-- A finalization inside the handler or the post-body callback leads to the
content phase's. -/
theorem inner_counted {s : Http} (thread : Bool) (halive : Alive s) (hbetween : Between s)
    (hshared : s.count = 2 →
      s.resp.error = true ∨ s.resp.buffered = true ∨ s.discardBody = true) :
    Counted { s with pc := .phaseFinalize .ok, thread := thread } :=
  ⟨halive.useAfterFree, halive.underflow, Or.inr ⟨hbetween.move _ thread s.inPhase,
    fun _ h => (nomatch h), fun h _ => hshared h⟩⟩

/-- A finalization by the child's or the parent's post-body callback, in the
content phase or in a read event. -/
theorem postBody_counted (conf : HttpConf) {a : FinalizeAnswers} {s : Http} (halive : Alive s)
    (hbetween : Between s) (hposted : s.posted = false) (hhandled : s.handled = true)
    (hcount : s.count = s.refs) (hpost : s.isPost = true) (hevent : EventKept a s) :
    Counted { call (finalizeRequest conf a .ok) s with pc := s.afterPostBody } := by
  have hok : Rc.ok.Fine := by simp [Rc.Fine]
  rw [call_alive halive]
  unfold Http.afterPostBody
  by_cases hphase : s.inPhase = true
  · have htwo : s.count = 2 := by rw [hcount, Http.refs, hpost, hphase]; rfl
    obtain ⟨halive', hbetween', _, hresp, hshared, _⟩ :=
      finalizeRequest_between conf halive hbetween hok
        (fun h => by rw [hposted] at h; cases h) hhandled hevent (fun h => by omega)
    rw [if_pos hphase]
    rw [← hresp] at hshared
    exact inner_counted (finalizeRequest conf a .ok s).thread halive' hbetween' hshared
  · have hone : s.count = 1 := by
      rw [hcount, Http.refs, Bool.eq_false_iff.mpr hphase]
      simp
    have hlast : Over (finalizeRequest conf a .ok s) ∨
        (Alive (finalizeRequest conf a .ok s) ∧ Posting (finalizeRequest conf a .ok s)) :=
      finalizeRequest_posting conf halive hbetween hevent (fun h => by omega)
    rw [if_neg hphase]
    have hsame : (finalizeRequest conf a .ok s).inPhase = false := by
      rw [finalizeRequest_inPhase, Bool.eq_false_iff.mpr hphase]
    have := counted_of_posting hlast
    rw [← hsame] at this
    exact this

/-- The last finalization of an activation: a status without an error enters the
special response. -/
theorem finalizeStep_phase {conf : HttpConf} {a : FinalizeAnswers} {s t : Http} {rc : Rc}
    (hpc : s.pc = .phaseFinalize rc) (h : finalizeStep conf a s = some t) :
    (∃ status, rc = .special status ∧ s.resp.error = false ∧
      t = { call (fun s => { s with writeTimer := false, reader := .request }) s with
        pc := .special status }) ∨
    ((∀ status, rc = .special status → s.resp.error = true) ∧
      t = { call (finalizeRequest conf a rc) s with pc := .runPosted, inPhase := false }) := by
  unfold finalizeStep at h
  rw [hpc] at h
  simp only at h
  split at h
  next status herr =>
    exact Or.inl ⟨status, rfl, herr, (Option.some.inj h).symm⟩
  next hnot =>
    refine Or.inr ⟨fun status hrc => ?_, (Option.some.inj h).symm⟩
    by_contra herr
    exact hnot status hrc (Bool.eq_false_iff.mpr herr)

/-- Every finalization keeps the invariant under its guard. -/
theorem finalize_counted (conf : HttpConf) {a : FinalizeAnswers} {s t : Http} (halive : Alive s)
    (hstage : Stage s) (hok : BalancedStep conf s (.finalize a))
    (hstep : finalizeStep conf a s = some t) : Counted t := by
  obtain ⟨hevent, hlives⟩ := hok
  have hfinal := hstep
  unfold finalizeStep at hstep
  unfold Stage at hstage
  cases hpc : s.pc with
  | exitFinalize =>
      rw [hpc] at hstep hstage
      obtain ⟨hbetween, hposted, hhandled, hcount⟩ := hstage
      by_cases hpost : s.isPost = true
      · simp only [hpost, if_true, Option.some.injEq] at hstep
        subst hstep
        exact postBody_counted conf halive hbetween hposted hhandled hcount hpost hevent
      · have hget : s.isPost = false := Bool.eq_false_iff.mpr hpost
        simp only [hget, Bool.false_eq_true, if_false, Option.some.injEq] at hstep
        subst hstep
        have hone : s.count = 1 := by
          rw [hcount, Http.refs, hget]
          rfl
        obtain ⟨halive', hbetween', hhandled', hresp, _, hlast⟩ :=
          finalizeRequest_between conf halive hbetween (by simp [Rc.Fine] : Rc.Fine .ok)
            (fun h => by rw [hposted] at h; cases h) hhandled hevent
            (fun _ => hlives hget (Or.inl hpc))
        obtain ⟨hone', hposted'⟩ := hlast hone
        rw [call_alive halive]
        refine ⟨halive'.useAfterFree, halive'.underflow, Or.inr ⟨?_, ?_, hhandled', hone', ?_⟩⟩
        · exact hbetween'.move _ _ _
        · intro h
          rw [show _ = (finalizeRequest conf a .ok s).resp.error from rfl, hresp]
          exact hposted' h
        · unfold Http.isPost
          rw [hresp]
          exact hget
  | postFinalize =>
      rw [hpc] at hstep hstage
      obtain ⟨hbetween, hposted, hhandled, hcount, hpost⟩ := hstage
      obtain rfl := Option.some.inj hstep
      exact postBody_counted conf halive hbetween hposted hhandled hcount hpost hevent
  | handlerFinalize =>
      rw [hpc] at hstep hstage
      obtain ⟨hbetween, hposted, hhandled, hone, hget⟩ := hstage
      obtain rfl := Option.some.inj hstep
      obtain ⟨halive', hbetween', _, hresp, hshared, _⟩ :=
        finalizeRequest_between conf halive hbetween (by simp [Rc.Fine] : Rc.Fine .again)
          hposted hhandled hevent (fun _ => hlives hget (Or.inr hpc))
      rw [← hresp] at hshared
      rw [call_alive halive]
      exact inner_counted (finalizeRequest conf a .again s).thread halive' hbetween' hshared
  | phaseFinalize rc =>
      rw [hpc] at hstage
      obtain ⟨hbetween, hspecial, hshared⟩ := hstage
      rcases finalizeStep_phase hpc hfinal with ⟨status, hrc, herr, rfl⟩ | ⟨_, rfl⟩
      · have hrefused := hspecial status hrc herr
        rw [call_alive halive]
        exact ⟨halive.useAfterFree, halive.underflow, Or.inr ⟨hrefused.freed, rfl, hrefused.posted,
          hrefused.handled, hrefused.discard, hrefused.count⟩⟩
      · rw [call_alive halive]
        exact counted_of_posting (finalizeRequest_posting conf halive hbetween hevent hshared)
  | handler | forking | executing | special | runPosted | idle =>
      rw [hpc] at hstep
      cases hstep

/-- What is left of the body of a refused request is discarded, and its other user
is the one who discards. -/
theorem discardRequestBody_refused (p : PageAnswers) {s : Http} (h : Refused s) :
    ((discardRequestBody p s).count = 1 ∧ (discardRequestBody p s).discardBody = false) ∨
    ((discardRequestBody p s).count = 2 ∧ (discardRequestBody p s).discardBody = true ∧
      (discardRequestBody p s).readHandler = .discardBody) := by
  unfold discardRequestBody
  split
  · exact Or.inl ⟨h.count, h.discard⟩
  · cases p.discard with
    | more => exact Or.inr ⟨congrArg (· + 1) h.count, rfl, rfl⟩
    | refused waits => cases waits <;> exact Or.inl ⟨h.count, h.discard⟩
    | inHeader | whole | closed => exact Or.inl ⟨h.count, h.discard⟩

/-- The special response of a refused request keeps the invariant. -/
theorem special_counted (conf : FilterConf) (p : PageAnswers) (status : SpecialStatus) {s : Http}
    (halive : Alive s) (hrefused : Refused s) :
    Counted { (specialResponse conf p status s).2 with
      pc := .phaseFinalize (specialResponse conf p status s).1 } := by
  unfold specialResponse
  generalize hs : ({ s with
    lingeringClose := s.lingeringClose && status != .badRequest
    resp := { s.resp with errStatus := status.code, keepalive := false } } : Http) = s'
  have hrefused' : Refused s' := by
    rw [← hs]
    exact ⟨hrefused.1, hrefused.2, hrefused.3, hrefused.4, hrefused.5, hrefused.6⟩
  have hkeepalive : s'.resp.keepalive = false := by rw [← hs]
  have huse : s'.useAfterFree = false := by rw [← hs]; exact halive.useAfterFree
  have hunder : s'.underflow = false := by rw [← hs]; exact halive.underflow
  have hframe := discardRequestBody_frame p s'
  have hcount := discardRequestBody_refused p hrefused'
  simp only
  generalize discardRequestBody p s' = t at hframe hcount
  obtain ⟨_, hkeep, hrc⟩ := sendSpecialResponse_kept conf p status t.resp
  have hcloses : (sendSpecialResponse conf p status t.resp).2.keepalive = false := by
    rw [hkeep, hframe.response]
    exact hkeepalive
  cases hsend : sendSpecialResponse conf p status t.resp with
  | mk rc resp =>
      rw [hsend] at hrc hcloses
      simp only
      refine ⟨hframe.useAfterFree.trans huse, hframe.underflow.trans hunder, Or.inr ⟨?_, ?_, ?_⟩⟩
      · refine ⟨hframe.freed.trans hrefused'.freed, hcount.imp (·.1) (·.1),
          Or.inl (hframe.reader.trans hrefused'.reader), fun h => ?_, fun h => ?_, fun h => ?_⟩
        · rw [show _ = t.posted from rfl, hframe.posted, hrefused'.posted] at h
          cases h
        · cases h
        · rcases hcount with ⟨_, hnone⟩ | ⟨_, _, hreads⟩
          · rw [show _ = t.discardBody from rfl, hnone] at h
            cases h
          · exact ⟨hreads, hcloses⟩
      · intro status' hstatus _
        simp only at hrc
        rw [hstatus] at hrc
        rcases hrc with h | h | h <;> cases h
      · intro htwo _
        rcases hcount with ⟨hone, _⟩ | ⟨_, hdiscard, _⟩
        · rw [show _ = t.count from rfl, hone] at htwo
          omega
        · exact Or.inr (Or.inr hdiscard)

/-- What the write event handler leaves satisfies the invariant. -/
theorem counted_of_inPhase {s : Http} (hphase : s.inPhase = false)
    (h : Over s ∨ (Alive s ∧ Posting s)) : Counted { s with pc := .runPosted } := by
  have := counted_of_posting h
  rw [← hphase] at this
  exact this

theorem writer_inPhase (conf : HttpConf) (w : WriteAnswers) (a : FinalizeAnswers) (s : Http) :
    (writer conf w a s).inPhase = s.inPhase := by
  unfold writer
  cases outputFilter conf.filter w [] s.resp with
  | mk rc resp =>
      simp only
      split
      · simp
      · split
        · split <;> simp
        · simp

/-- The three write event handlers. -/
theorem runWriteHandler_empty (conf : HttpConf) (timedOut : Bool) (w : WriteAnswers)
    (a : FinalizeAnswers) {s : Http} (h : s.writeHandler = .empty) :
    runWriteHandler conf timedOut w a s = s := by
  rw [runWriteHandler, h]

theorem runWriteHandler_terminate (conf : HttpConf) (timedOut : Bool) (w : WriteAnswers)
    (a : FinalizeAnswers) {s : Http} (h : s.writeHandler = .terminate) :
    runWriteHandler conf timedOut w a s = terminateHandler s := by
  rw [runWriteHandler, h]

theorem runWriteHandler_writer (conf : HttpConf) (timedOut : Bool) (w : WriteAnswers)
    (a : FinalizeAnswers) {s : Http} (h : s.writeHandler = .writer) :
    runWriteHandler conf timedOut w a s =
      if timedOut then finalizeRequest conf a .requestTimeOut s else writer conf w a s := by
  rw [runWriteHandler, h]

/-- Running the posted requests keeps the invariant. -/
theorem runPosted_counted (conf : HttpConf) (w : WriteAnswers) (a : FinalizeAnswers) {s : Http}
    (hexited : s.exited = false) (huse : s.useAfterFree = false) (hunder : s.underflow = false)
    (hphase : s.inPhase = false) (hposting : s.freed = true ∨ Posting s) :
    Counted (runPostedStep conf w a s) := by
  unfold runPostedStep
  by_cases hfreed : s.freed = true
  · rw [if_pos hfreed]
    exact ⟨huse, hunder, Or.inr ⟨hphase, Or.inl hfreed⟩⟩
  rw [if_neg hfreed]
  have hlive : Alive { s with posted := false } :=
    ⟨Bool.eq_false_iff.mpr hfreed, hexited, huse, hunder⟩
  rcases hposting with h | hrest | ⟨_, hposted, hterm⟩ |
    ⟨_, hposted, hwriter, hone, hhandled, herr, hreader, hread, hdiscard⟩
  · exact absurd h hfreed
  · rw [if_neg (by rw [hrest.posted]; exact Bool.false_ne_true)]
    exact ⟨huse, hunder, Or.inr ⟨hphase, Or.inr ⟨hrest.1, hrest.2, hrest.3, hrest.4⟩⟩⟩
  · rw [if_pos hposted,
      runWriteHandler_terminate conf false w a (s := { s with posted := false }) hterm]
    apply counted_of_inPhase
    · rw [terminateHandler, closeRequest_inPhase]
      exact hphase
    · exact Or.inl (terminateHandler_over hlive)
  · rw [if_pos hposted,
      runWriteHandler_writer conf false w a (s := { s with posted := false }) hwriter,
      if_neg Bool.false_ne_true]
    apply counted_of_inPhase
    · rw [writer_inPhase]
      exact hphase
    · exact writer_posting conf hlive rfl hhandled hreader hwriter hread (Or.inl hone) hdiscard
        (fun _ _ => Or.inl hone)

/-- The write event handler of a resting request keeps the invariant under the
guard of the event. -/
theorem writable_counted (conf : HttpConf) {timedOut : Bool} {w : WriteAnswers}
    {a : FinalizeAnswers} {s : Http} (halive : Alive s) (hphase : s.inPhase = false)
    (hrest : Resting s) (hreader : s.reader = .request)
    (hok : BalancedStep conf s (.writable timedOut w a)) :
    Counted { runWriteHandler conf timedOut w a s with pc := .runPosted } := by
  rcases hrest.cases with ⟨h, _⟩ | ⟨_, _, _, hempty, _⟩ |
    ⟨_, hhandled, hbuffered, _, hwriter, hread, hcount⟩ | ⟨_, _, _, hempty, _⟩
  · rw [hreader] at h
    cases h
  · rw [runWriteHandler_empty conf timedOut w a hempty]
    exact counted_of_inPhase hphase (Or.inr ⟨halive, Or.inl hrest⟩)
  · rw [runWriteHandler_writer conf timedOut w a hwriter]
    by_cases htime : timedOut = true
    · rw [if_pos htime, finalizeRequest_terminates conf a (Or.inr (Or.inl rfl))]
      apply counted_of_inPhase (s := terminateRequest s) hphase
      exact Or.inr ⟨⟨halive.1, halive.2, halive.3, halive.4⟩,
        Or.inr (Or.inl ⟨hrest.freed, rfl, rfl⟩)⟩
    · rw [if_neg htime]
      apply counted_of_inPhase
      · rw [writer_inPhase]
        exact hphase
      · exact writer_posting conf halive hrest.posted hhandled hreader hwriter hread hcount
          hrest.discard (hok hwriter (Bool.eq_false_iff.mpr htime))
  · rw [runWriteHandler_empty conf timedOut w a hempty]
    exact counted_of_inPhase hphase (Or.inr ⟨halive, Or.inl hrest⟩)

/-- A body is refused: the invariant holds when the request is to be finalized
with the status. -/
theorem refuse_counted (status : SpecialStatus) {s : Http} (halive : Alive s)
    (hrefused : Refused s) (hsent : s.resp.buffered = false)
    (hread : s.readHandler = .blockReading ∨ s.readHandler = .readBody) :
    Counted (s.refuse status) := by
  have hnot : ∀ {b : Bool}, b = false → b = true → False := fun h h' => by rw [h] at h'; cases h'
  refine ⟨halive.useAfterFree, halive.underflow, Or.inr ⟨⟨hrefused.freed, Or.inl hrefused.count,
    Or.inl hrefused.reader, fun h => (hnot hrefused.posted h).elim,
    fun _ => ⟨hrefused.reader, hsent, hread⟩, fun h => (hnot hrefused.discard h).elim⟩,
    fun _ _ _ => ⟨hrefused.1, hrefused.2, hrefused.3, hrefused.4, hrefused.5, hrefused.6⟩,
    fun _ h => (hnot hrefused.handled h).elim⟩⟩

/-- A resting request whose body is read has one user and no response. -/
theorem Resting.awaitsBody {s : Http} (h : Resting s) (hreader : s.reader = .request)
    (hread : s.readHandler = .readBody) :
    s.handled = false ∧ s.count = 1 ∧ s.writeHandler = .empty ∧ s.resp.buffered = false ∧
      s.resp.error = false ∧ s.discardBody = false := by
  have hnone : s.discardBody = false := by
    rw [Bool.eq_false_iff]
    intro hdiscard
    have := (h.discard hdiscard).reads
    rw [hread] at this
    cases this
  rcases h.cases with ⟨hl, _⟩ | ⟨_, hnot, hone, hempty, hsent, herr, _⟩ |
    ⟨_, _, _, _, _, hne, _⟩ | ⟨_, _, _, _, hdiscard, _⟩
  · rw [hreader] at hl
    cases hl
  · exact ⟨hnot, hone, hempty, hsent, herr, hnone⟩
  · exact absurd hread hne
  · rw [hnone] at hdiscard
    cases hdiscard

/-- The end of discarding: the user who did it is gone, and the other one goes on
to write the page, or the connection is finalized. -/
theorem discardEnd_counted (conf : HttpConf) (a : FinalizeAnswers) {s t : Http}
    (halive : Alive t) (hphase : t.inPhase = false) (hrest : Resting s)
    (hreader : s.reader = .request) (hread : s.readHandler = .discardBody)
    (ht : t = { s with
      discardBody := false, lingeringClose := t.lingeringClose, readHandler := t.readHandler
      readEof := t.readEof, resp := { s.resp with error := t.resp.error } })
    (htread : t.readHandler ≠ .readBody) :
    Counted { finalizeConnection conf a t with pc := .runPosted } := by
  have hposted : t.posted = false := by rw [ht]; exact hrest.posted
  have hfreed : t.freed = false := by rw [ht]; exact hrest.freed
  have hnone : t.discardBody = false := by rw [ht]
  have hnot : ∀ {u : Http}, u.discardBody = t.discardBody → u.discardBody = true → Discards u := by
    intro u hu h
    rw [hu, hnone] at h
    cases h
  apply counted_of_inPhase
  · rw [finalizeConnection_inPhase]
    exact hphase
  have hlast : t.count = 1 → Over (finalizeConnection conf a t) ∨
      (Alive (finalizeConnection conf a t) ∧ Posting (finalizeConnection conf a t)) := by
    intro hone
    rcases finalizeConnection_last conf a halive hone
        (fun h => by rw [hnone] at h; cases h) with ⟨_, h⟩ | ⟨_, hover⟩
    · rw [h]
      exact Or.inr ⟨⟨halive.1, halive.2, halive.3, halive.4⟩,
        Or.inl ⟨hfreed, hposted, hnot rfl, Or.inl ⟨rfl, hone⟩⟩⟩
    · exact Or.inl hover
  have hsame : t.count = s.count := by rw [ht]
  rcases hrest.cases with ⟨hl, _⟩ | ⟨_, _, _, _, _, _, hwaits⟩ |
    ⟨_, hhandled, hbuffered, htimer, hwriter, _, hcount⟩ | ⟨_, _, _, _, _, hcount⟩
  · rw [hreader] at hl
    cases hl
  · rw [hread] at hwaits
    rcases hwaits with h | h <;> cases h
  · rcases hcount with hone | htwo
    · exact hlast (hsame.trans hone)
    · rw [finalizeConnection_shared conf a (hsame.trans htwo)]
      refine Or.inr ⟨⟨halive.1, halive.2, halive.3, halive.4⟩,
        Or.inl ⟨hfreed, hposted, hnot rfl, Or.inr (Or.inr (Or.inl ⟨?_, ?_, ?_, ?_, ?_, ?_, ?_⟩))⟩⟩
      · rw [show _ = t.reader from rfl, ht]
        exact hreader
      · rw [show _ = t.handled from rfl, ht]
        exact hhandled
      · rw [show _ = t.resp.buffered from rfl, ht]
        exact hbuffered
      · rw [show _ = t.writeTimer from rfl, ht]
        exact htimer
      · rw [show _ = t.writeHandler from rfl, ht]
        exact hwriter
      · simp only [hnone, Bool.false_eq_true, if_false]
        exact htread
      · exact Or.inl rfl
  · exact hlast (hsame.trans hcount)

/-- A read event keeps the invariant. -/
theorem readable_counted (conf : HttpConf) (body : BodyRead) (closed : Bool)
    (a : FinalizeAnswers) {s : Http} (halive : Alive s) (hphase : s.inPhase = false)
    (hrest : Resting s) (hreader : s.reader = .request) :
    Counted (runReadHandler conf body closed a s) := by
  have hrests : Counted { s with pc := .runPosted } :=
    ⟨halive.useAfterFree, halive.underflow,
      Or.inr ⟨hphase, Or.inr (Or.inl ⟨hrest.1, hrest.2, hrest.3, hrest.4⟩)⟩⟩
  have hterm : ∀ (rc : Rc) (s' : Http), Alive s' → s'.inPhase = false →
      (rc = .error ∨ rc = .requestTimeOut ∨ rc = .clientClosedRequest ∨ s'.resp.error = true) →
      Counted { finalizeRequest conf a rc s' with pc := .runPosted } := by
    intro rc s' hlive hphase' hrc
    rw [finalizeRequest_terminates conf a hrc]
    apply counted_of_inPhase (s := terminateRequest s') hphase'
    exact Or.inr ⟨⟨hlive.1, hlive.2, hlive.3, hlive.4⟩, Or.inr (Or.inl ⟨hlive.freed, rfl, rfl⟩)⟩
  have herror : Alive { s with resp := { s.resp with error := true } } :=
    ⟨halive.1, halive.2, halive.3, halive.4⟩
  unfold runReadHandler
  split
  next => exact hrests
  next =>
    split
    next =>
      exact hterm _ { s with readEof := true, resp := { s.resp with error := true } }
        ⟨halive.1, halive.2, halive.3, halive.4⟩ hphase (Or.inr (Or.inr (Or.inl rfl)))
    next => exact hrests
  next hread =>
    obtain ⟨hnot, hone, hempty, hsent, herr, hnone⟩ := hrest.awaitsBody hreader hread
    cases body with
    | more => exact hrests
    | closed failed => exact hterm _ _ herror hphase (Or.inr (Or.inr (Or.inr rfl)))
    | timedOut => exact hterm _ s halive hphase (Or.inr (Or.inl rfl))
    | whole unread =>
        refine ⟨halive.useAfterFree, halive.underflow, Or.inr ⟨⟨hrest.freed, hreader,
          hrest.posted, hempty, rfl, hsent, hnot, hnone, fun _ => herr⟩, ?_⟩⟩
        show s.count = s.refs
        rw [Http.refs, hphase, Bool.and_false]
        exact hone
    | refused status stage =>
        exact refuse_counted status halive
          ⟨hrest.freed, hreader, hrest.posted, hnot, hnone, hone⟩ hsent (Or.inr hread)
  next hread =>
    cases body with
    | more => exact hrests
    | whole unread =>
        exact discardEnd_counted conf a ⟨halive.1, halive.2, halive.3, halive.4⟩ hphase hrest
          hreader hread rfl (fun h => nomatch h)
    | closed failed =>
        exact discardEnd_counted conf a ⟨halive.1, halive.2, halive.3, halive.4⟩ hphase hrest
          hreader hread rfl (fun h => nomatch hread.symm.trans h)
    | timedOut => exact hterm _ _ herror hphase (Or.inl rfl)
    | refused status stage => exact hterm _ _ herror hphase (Or.inl rfl)

/-- Sending `100 Continue` is no part of the response. -/
@[simp] theorem testExpect_method (expect : Expect) (r : Response) :
    (testExpect expect r).method = r.method := by cases expect <;> rfl

@[simp] theorem testExpect_error (expect : Expect) (r : Response) :
    (testExpect expect r).error = r.error := by cases expect <;> rfl

@[simp] theorem testExpect_buffered (expect : Expect) (r : Response) :
    (testExpect expect r).buffered = r.buffered := by cases expect <;> rfl

@[simp] theorem testExpect_out (expect : Expect) (r : Response) :
    (testExpect expect r).out = r.out := by cases expect <;> rfl

/-- The handler keeps the invariant. -/
theorem handler_counted (expect : Expect) (body : BodyRead) {s : Http} (halive : Alive s)
    (hun : Unhandled s) (hone : s.count = 1) (hphase : s.inPhase = true) :
    Counted (toxicHandler expect body s) := by
  have hnot : ∀ {b : Bool}, b = false → b = true → False := fun h h' => by rw [h] at h'; cases h'
  have hsent : (testExpect expect s.resp).buffered = false := by
    rw [testExpect_buffered]
    exact hun.buffered
  have hrefused : Refused { s with resp := testExpect expect s.resp } :=
    ⟨hun.freed, hun.reader, hun.posted, hun.handled, hun.discard, hone⟩
  have halive' : Alive { s with resp := testExpect expect s.resp } :=
    ⟨halive.1, halive.2, halive.3, halive.4⟩
  unfold toxicHandler
  split
  next hpost =>
    have hpost' : ({ s with resp := testExpect expect s.resp } : Http).isPost = true := by
      unfold Http.isPost
      simp only [testExpect_method]
      exact hpost
    have hrefs : ({ s with resp := testExpect expect s.resp } : Http).refs = 2 := by
      rw [Http.refs, hpost', hphase]
      rfl
    cases body with
    | whole unread =>
        refine ⟨halive.useAfterFree, halive.underflow, Or.inr ⟨⟨hun.freed, hun.reader, hun.posted,
          hun.writeHandler, hun.readHandler, hsent, hun.handled, hun.discard, fun h => ?_⟩, ?_⟩⟩
        · exact (hnot h hphase).elim
        · exact (congrArg (· + 1) hone).trans hrefs.symm
    | closed failed =>
        refine ⟨halive.useAfterFree, halive.underflow, Or.inr ⟨⟨hun.freed, Or.inl hone,
          Or.inl hun.reader, fun h => (hnot hun.posted h).elim,
          fun _ => ⟨hun.reader, hsent, Or.inr rfl⟩, fun h => (hnot hun.discard h).elim⟩,
          fun _ _ h => ?_, fun _ h => (hnot hun.handled h).elim⟩⟩
        exact (hnot h rfl).elim
    | more | timedOut =>
        refine ⟨halive.useAfterFree, halive.underflow, Or.inr ⟨⟨hun.freed, Or.inr ?_,
          Or.inl hun.reader, fun h => (hnot hun.posted h).elim,
          fun _ => ⟨hun.reader, hsent, Or.inr rfl⟩, fun h => (hnot hun.discard h).elim⟩,
          fun _ h => (nomatch h), fun _ h => (hnot hun.handled h).elim⟩⟩
        exact congrArg (· + 1) hone
    | refused status stage =>
        cases stage with
        | unset | preread =>
            exact refuse_counted status ⟨halive.1, halive.2, halive.3, halive.4⟩
              ⟨hun.freed, hun.reader, hun.posted, hun.handled, hun.discard, hone⟩ hsent
              (Or.inl hun.readHandler)
        | reading =>
            exact refuse_counted status ⟨halive.1, halive.2, halive.3, halive.4⟩
              ⟨hun.freed, hun.reader, hun.posted, hun.handled, hun.discard, hone⟩ hsent
              (Or.inr rfl)
  next hpost =>
    refine ⟨halive.useAfterFree, halive.underflow, Or.inr ⟨⟨hun.1, hun.2, hun.3, hun.4, hun.5,
      hun.6, hun.7, hun.8, hun.9⟩, ?_⟩⟩
    show s.count = s.refs
    rw [Http.refs, Bool.eq_false_iff.mpr hpost]
    exact hone

/-- The references of a request are one or two. -/
theorem count_of_refs {s : Http} (hcount : s.count = s.refs) : s.count = 1 ∨ s.count = 2 := by
  rw [hcount, Http.refs]
  split
  · exact Or.inr rfl
  · exact Or.inl rfl

/-- `fork` keeps the invariant in both processes. -/
theorem forked_counted (child : Bool) {s : Http} (halive : Alive s) (hun : Unhandled s)
    (hcount : s.count = s.refs) : Counted (forked child s) := by
  unfold forked
  split
  · exact ⟨halive.useAfterFree, halive.underflow, Or.inr ⟨⟨hun.1, hun.2, hun.3, hun.4, hun.5,
      hun.6, hun.7, hun.8, hun.9⟩, hcount⟩⟩
  have hbetween : ∀ pc : Pc, Between { s with handled := true, pc := pc } := by
    intro pc
    refine ⟨hun.freed, count_of_refs hcount, Or.inl hun.reader, fun h => ?_, fun h => ?_,
      fun h => ?_⟩
    · rw [show _ = s.posted from rfl, hun.posted] at h
      cases h
    · cases h
    · rw [show _ = s.discardBody from rfl, hun.discard] at h
      cases h
  split
  next hpost =>
    exact ⟨halive.useAfterFree, halive.underflow,
      Or.inr ⟨hbetween _, hun.posted, rfl, hcount, hpost⟩⟩
  next hget =>
    have hget' : s.isPost = false := Bool.eq_false_iff.mpr hget
    refine ⟨halive.useAfterFree, halive.underflow, Or.inr ⟨hbetween _, fun h => ?_, rfl, ?_,
      hget'⟩⟩
    · rw [show _ = s.posted from rfl, hun.posted] at h
      cases h
    · rw [show _ = s.count from rfl, hcount, Http.refs, hget']
      rfl

/-- The child's part up to its finalization keeps the invariant. -/
theorem executed_counted (conf : HttpConf) (cleanup : Bool) (run : Option ScriptRun) {s : Http}
    (halive : Alive s) (hun : Unhandled s) (hcount : s.count = s.refs) :
    Counted (executed conf cleanup run s) := by
  have hnot : ∀ {b : Bool}, b = false → b = true → False := fun h h' => by rw [h] at h'; cases h'
  unfold executed
  split
  · refine ⟨halive.useAfterFree, halive.underflow, Or.inr ?_⟩
    unfold Http.afterPostBody
    by_cases hphase : s.inPhase = true
    · rw [if_pos hphase]
      exact ⟨⟨hun.freed, count_of_refs hcount, Or.inl hun.reader,
        fun h => (hnot hun.posted h).elim,
        fun _ => ⟨hun.reader, hun.buffered, Or.inl hun.readHandler⟩,
        fun h => (hnot hun.discard h).elim⟩, fun _ h => (nomatch h),
        fun _ h => (hnot hun.handled h).elim⟩
    · have hphase' : s.inPhase = false := Bool.eq_false_iff.mpr hphase
      have hone : s.count = 1 := by rw [hcount, Http.refs, hphase', Bool.and_false]; rfl
      rw [if_neg hphase]
      exact ⟨hphase', Or.inr (Or.inl ⟨hun.freed, hun.posted, fun h => (hnot hun.discard h).elim,
        Or.inr (Or.inl ⟨hun.reader, hun.handled, hone, hun.writeHandler, hun.buffered,
          hun.error hphase', Or.inl hun.readHandler⟩)⟩)⟩
  · cases run with
    | none => exact ⟨halive.useAfterFree, halive.underflow, Or.inl rfl⟩
    | some run =>
        have htwo := count_of_refs hcount
        refine ⟨halive.useAfterFree, halive.underflow, Or.inr ⟨⟨hun.freed, htwo,
          Or.inl hun.reader, fun h => (hnot hun.posted h).elim, fun h => ?_,
          fun h => (hnot hun.discard h).elim⟩, hun.posted, rfl, ?_⟩⟩
        · cases h
        · have hmethod := exitRequestSend_method conf.filter run.answers
            (addWrites s.baseLen run.script.writes) (storedBufs (nonEmpty run.script.writes))
            (callStart run.script s.resp)
          rw [callStart_method] at hmethod
          rw [hcount]
          unfold Http.refs Http.isPost
          simp only [hmethod]

/-- A lingering close keeps the invariant whether it goes on or ends. -/
theorem lingering_counted (ends : Bool) {s : Http} (halive : Alive s)
    (hphase : s.inPhase = false) (hpc : s.pc = .idle) (hrest : Resting s)
    (hreader : s.reader = .lingering) : Counted (if ends then closeRequest s else s) := by
  have hone : s.count = 1 := by
    rcases hrest.cases with ⟨_, h⟩ | ⟨h, _⟩ | ⟨h, _⟩ | ⟨h, _⟩
    · exact h
    all_goals
      rw [hreader] at h
      cases h
  cases ends with
  | false =>
      refine ⟨halive.useAfterFree, halive.underflow, Or.inr ?_⟩
      unfold Stage
      rw [show (if false = true then closeRequest s else s).pc = .idle from hpc]
      exact ⟨hphase, Or.inr hrest⟩
  | true =>
      have hover := closeRequest_last halive hone
      refine ⟨hover.useAfterFree, hover.underflow, Or.inr ?_⟩
      have hclose : closeRequest s
          = { freeRequest { s with count := 0 } with reader := .closed } := by
        unfold closeRequest
        rw [if_neg (by omega), if_pos hone]
      rw [if_pos rfl, hclose]
      unfold Stage
      rw [show Http.pc _ = s.pc from rfl, hpc]
      exact ⟨hphase, Or.inl rfl⟩

/-- What the thread has read and whether the process has ended is no part of where
it is with the request. -/
theorem Stage.polled {s : Http} (h : Stage s) (staleRead exited : Bool) :
    Stage { s with staleRead := staleRead, exited := exited } := by
  have hun : Unhandled s → ∀ pc,
      Unhandled { s with pc := pc, staleRead := staleRead, exited := exited } :=
    fun h _ => ⟨h.1, h.2, h.3, h.4, h.5, h.6, h.7, h.8, h.9⟩
  have hbetween : Between s → ∀ pc,
      Between { s with pc := pc, staleRead := staleRead, exited := exited } :=
    fun h _ => ⟨h.1, h.2, h.3, h.4, h.5, h.6⟩
  have hrefused : Refused s → ∀ pc,
      Refused { s with pc := pc, staleRead := staleRead, exited := exited } :=
    fun h _ => ⟨h.1, h.2, h.3, h.4, h.5, h.6⟩
  have hrest : Resting s → ∀ pc,
      Resting { s with pc := pc, staleRead := staleRead, exited := exited } :=
    fun h _ => ⟨h.1, h.2, h.3, h.4⟩
  unfold Stage at h ⊢
  rw [show Http.pc _ = s.pc from rfl]
  cases hpc : s.pc <;> rw [hpc] at h
  case handler | forking | executing => exact ⟨hun h.1 _, h.2⟩
  case exitFinalize | postFinalize | handlerFinalize => exact ⟨hbetween h.1 _, h.2⟩
  case phaseFinalize rc =>
    exact ⟨hbetween h.1 _, fun status hrc herr => hrefused (h.2.1 status hrc herr) _, h.2.2⟩
  case special status => exact hrefused h _
  case runPosted => exact ⟨h.1, h.2.imp_right (Or.imp_left (hrest · _))⟩
  case idle => exact ⟨h.1, h.2.imp_right (hrest · _)⟩

/-- The polling thread keeps the invariant. -/
theorem poll_counted (ends : Bool) {s : Http} (h : Counted s) : Counted (pollStep ends s) := by
  obtain ⟨huse, hunder, hstage⟩ := h
  unfold pollStep
  split
  · split
    · exact ⟨huse, hunder, Or.inl rfl⟩
    · exact ⟨huse, hunder, hstage⟩
  · refine ⟨huse, hunder, ?_⟩
    rcases hstage with hexited | hstage
    · exact Or.inl (by simp [hexited])
    · exact Or.inr (hstage.polled true _)

/-- A process that waits for events of a request waits for a resting one. -/
theorem waits_resting {s : Http} {reader : ConnHandler} (hstage : Stage s)
    (hwaits : s.waits reader = true) :
    s.inPhase = false ∧ Resting s ∧ s.reader = reader := by
  simp only [Http.waits, Bool.and_eq_true, beq_iff_eq, Bool.not_eq_true'] at hwaits
  obtain ⟨⟨hpc, hfreed⟩, hreader⟩ := hwaits
  unfold Stage at hstage
  rw [hpc] at hstage
  obtain ⟨hphase, hgone | hrest⟩ := hstage
  · rw [hfreed] at hgone
    cases hgone
  · exact ⟨hphase, hrest, hreader⟩

/-- **One step.**  Every step taken under the guard keeps the invariant. -/
theorem httpStep_counted (conf : HttpConf) (s : Http) (event : HttpEvent) (t : Http)
    (h : Counted s) (hok : BalancedStep conf s event) (hstep : httpStep conf s event = some t) :
    Counted t := by
  obtain ⟨hrun, hstepped⟩ := httpStep_cases hstep
  have hstage : Stage s := by
    rcases h.stage with hx | hx
    · rw [hrun] at hx
      cases hx
    · exact hx
  have hlive : s.freed = false → Alive s := fun hf => ⟨hf, hrun, h.1, h.2⟩
  cases hstepped with
  | @handler expect body hpc _ _ =>
      unfold Stage at hstage
      rw [hpc] at hstage
      exact handler_counted expect body (hlive hstage.1.freed) hstage.1 hstage.2.1 hstage.2.2
  | @fork child hpc =>
      unfold Stage at hstage
      rw [hpc] at hstage
      exact forked_counted child (hlive hstage.1.freed) hstage.1 hstage.2
  | @execute cleanup run hpc =>
      unfold Stage at hstage
      rw [hpc] at hstage
      exact executed_counted conf cleanup run (hlive hstage.1.freed) hstage.1 hstage.2
  | @finalize a _ hstep =>
      have hfreed : s.freed = false := by
        unfold finalizeStep at hstep
        unfold Stage at hstage
        cases hpc : s.pc with
        | exitFinalize | postFinalize | handlerFinalize | phaseFinalize =>
            rw [hpc] at hstage
            exact hstage.1.freed
        | handler | forking | executing | special | runPosted | idle =>
            rw [hpc] at hstep
            cases hstep
      exact finalize_counted conf (hlive hfreed) hstage hok hstep
  | @special p status hpc =>
      unfold Stage at hstage
      rw [hpc] at hstage
      exact special_counted conf.filter p status (hlive hstage.freed) hstage
  | @runPosted w a hpc =>
      unfold Stage at hstage
      rw [hpc] at hstage
      exact runPosted_counted conf w a hrun h.1 h.2 hstage.1 hstage.2
  | @writable timedOut w a hwaits _ =>
      obtain ⟨hphase, hrest, hreader⟩ := waits_resting hstage hwaits
      exact writable_counted conf (s := s.markWritable) ⟨hrest.freed, hrun, h.1, h.2⟩ hphase
        ⟨hrest.1, hrest.2, hrest.3, hrest.4⟩ hreader hok
  | @readable ready body closed a hwaits =>
      obtain ⟨hphase, hrest, hreader⟩ := waits_resting hstage hwaits
      exact readable_counted conf body closed a (s := { s with readReady := ready })
        ⟨hrest.freed, hrun, h.1, h.2⟩ hphase ⟨hrest.1, hrest.2, hrest.3, hrest.4⟩ hreader
  | @lingering ends hwaits =>
      obtain ⟨hphase, hrest, hreader⟩ := waits_resting hstage hwaits
      exact lingering_counted ends (hlive hrest.freed) hphase (waits_cases hwaits).1 hrest hreader
  | @poll ends _ =>
      exact poll_counted ends h

/-- A posted terminate handler frees the request. -/
theorem runPosted_frees (conf : HttpConf) (w : WriteAnswers) (a : FinalizeAnswers) {s : Http}
    (hexited : s.exited = false) (hfreed : s.freed = false) (hpc : s.pc = .runPosted)
    (hposted : s.posted = true) (hterm : s.writeHandler = .terminate) :
    ∃ t, httpStep conf s (.runPosted w a) = some t ∧ t.freed = true := by
  refine ⟨runPostedStep conf w a s, ?_, ?_⟩
  · unfold httpStep
    rw [if_neg (by rw [hexited]; exact Bool.false_ne_true)]
    simp only [hpc, if_true]
  · unfold runPostedStep
    rw [if_neg (by rw [hfreed]; exact Bool.false_ne_true), if_pos hposted,
      runWriteHandler_terminate conf false w a (s := { s with posted := false }) hterm]
    rfl

/-- The invariant gives the balance. -/
theorem Counted.balanced (conf : HttpConf) {s : Http} (h : Counted s) : Balanced conf s := by
  refine ⟨h.noUnderflow, h.noUseAfterFree, fun hpc hrun hdone => ?_⟩
  have hstage : Stage s := by
    rcases h.stage with hx | hx
    · rw [hrun] at hx
      cases hx
    · exact hx
  unfold Stage at hstage
  rw [hpc] at hstage
  obtain ⟨_, hfreed | hrest⟩ := hstage
  · exact Or.inl hfreed
  right
  have hrunning : ¬ s.exited = true := by rw [hrun]; exact Bool.false_ne_true
  have hwaits : ∀ {reader : ConnHandler}, s.reader = reader → s.waits reader = true := by
    intro reader hreader
    simp [Http.waits, hpc, hrest.freed, hreader]
  let w : WriteAnswers := ⟨none, ⟨0, false⟩⟩
  let a : FinalizeAnswers := ⟨true, true, true, true⟩
  -- an error of the timer posts the terminate handler
  have hposts : ∀ (event : HttpEvent) (u : Http), event.ofTimer = true →
      httpStep conf s event = some u → u.exited = false → u.freed = false → u.pc = .runPosted →
      u.posted = true → u.writeHandler = .terminate → EndsByTimer conf s := by
    intro event u hevent hstep hexited hfreed hat hposted hterm
    obtain ⟨t, ht, hgone⟩ := runPosted_frees conf w a hexited hfreed hat hposted hterm
    refine ⟨[event, .runPosted w a], t, Run.cons hstep (Run.cons ht (Run.nil t)), hgone, ?_⟩
    intro e he
    rcases List.mem_pair.mp he with rfl | rfl
    · exact hevent
    · rfl
  rcases hrest.cases with ⟨hreader, hone⟩ | ⟨_, hnot, _, _, _, herr, _⟩ |
    ⟨hreader, hhandled, hbuffered, htimer, hwriter, _⟩ | ⟨hreader, _, _, _, hdiscard, _⟩
  · refine ⟨[.lingering true], closeRequest s, Run.cons ?_ (Run.nil _), ?_, by simp [HttpEvent.ofTimer]⟩
    · unfold httpStep
      rw [if_neg hrunning]
      simp only [hwaits hreader, if_true]
    · unfold closeRequest
      rw [if_neg (by omega), if_pos hone]
      rfl
  · rcases hdone with ⟨hhandled, _⟩ | herror
    · rw [hnot] at hhandled
      cases hhandled
    · rw [herr] at herror
      cases herror
  · have hstep : httpStep conf s (.writable true w a)
        = some { terminateRequest s.markWritable with pc := .runPosted } := by
      unfold httpStep
      rw [if_neg hrunning]
      simp only [hwaits hreader, htimer, Bool.or_true, Bool.and_true, if_true]
      rw [runWriteHandler_writer conf true w a (s := s.markWritable) hwriter, if_pos rfl,
        finalizeRequest_terminates conf a (Or.inr (Or.inl rfl))]
    exact hposts _ _ rfl hstep hrun hrest.freed rfl rfl rfl
  · have hstep : httpStep conf s (.readable false .timedOut false a)
        = some { terminateRequest
            { s with readReady := false, resp := { s.resp with error := true } } with
          pc := .runPosted } := by
      unfold httpStep runReadHandler
      rw [if_neg hrunning]
      simp only [hwaits hreader, (hrest.discard hdiscard).reads, if_true]
      rw [finalizeRequest_terminates conf a (Or.inl rfl)]
    exact hposts _ _ rfl hstep hrun hrest.freed rfl rfl rfl

/-- The handler is called on a request that satisfies the invariant. -/
theorem start_counted (q : Incoming) (lingeringClose unread readReady readEof : Bool)
    (baseLen : Int) : Counted (Http.start q lingeringClose unread readReady readEof baseLen) := by
  refine ⟨rfl, rfl, Or.inr ⟨⟨rfl, rfl, rfl, rfl, rfl, rfl, rfl, rfl, fun h => ?_⟩, rfl, rfl⟩⟩
  cases h

/-- Keepalive, no lingering close. -/
def sampleHttpConf : HttpConf := ⟨sampleConf, true, .on⟩

/-- Every registration succeeds. -/
def sampleFinalize : FinalizeAnswers := ⟨true, true, true, true⟩

/-- A GET request in the child: the socket takes nothing at first, so the
three finalizations find the response buffered, and the writer drains it. -/
def sampleChildRun : List HttpEvent :=
  [.handler .unasked .more, .fork true,
    .execute true (some ⟨⟨none, none, [], [[65]]⟩,
      ⟨⟨true, none, ⟨0, false⟩⟩, none, ⟨0, false⟩⟩⟩),
    .finalize sampleFinalize, .finalize sampleFinalize, .finalize sampleFinalize,
    .runPosted ⟨none, ⟨0, false⟩⟩ sampleFinalize,
    .writable false ⟨none, ⟨4096, false⟩⟩ sampleFinalize]

end Toxic
