import ToxicNginx.ResponseFraming

/-!
# The life of a toxic request in one process

`r->main->count` says how many users a request has, and each of the handler,
the post-body callback, `exit_request` and the content phase gives one of them
up through `ngx_http_finalize_request`.  This file embeds the functions that
count and free, with the fields of `r` and of its connection they look at.

* `Http` — the request with its reference count and handlers, and what can go
  wrong with them: a count below zero, a call on a freed request;
* `closeRequest`, `terminateRequest`, `finalizeConnection`, `setWriteHandler`,
  `finalizeRequest`, `writer` — the functions of `ngx_http_request.c`;
* `specialResponse`, `discardRequestBody` — the page that answers a request whose
  body is refused;
* `finalizeRequest_terminates`, `finalizeRequest_buffered`,
  `finalizeRequest_shared`, `finalizeRequest_last` — what one finalization does;
* `outputFilter_nil` — the writer's call of the output filter.
-/

namespace Toxic

open ChunkQueue

/-- The `lingering_close` directive. -/
inductive LingeringClose
  | off | on | always
  deriving DecidableEq, Repr

/-- The directives a request is handled under; `keepalive` says that
`keepalive_timeout` is positive and the process is not about to exit. -/
structure HttpConf where
  filter : FilterConf
  keepalive : Bool
  lingeringClose : LingeringClose
  deriving DecidableEq, Repr

/-- `r->read_event_handler`: `ngx_http_block_reading`,
`ngx_http_read_client_request_body_handler`, `ngx_http_test_reading` or
`ngx_http_discarded_request_body_handler`. -/
inductive ReadHandler
  | blockReading | readBody | testReading | discardBody
  deriving DecidableEq, Repr

/-- `r->write_event_handler`: `ngx_http_request_empty_handler`,
`ngx_http_writer` or `ngx_http_terminate_handler`. -/
inductive WriteHandler
  | empty | writer | terminate
  deriving DecidableEq, Repr

/-- Who handles read events of the connection: `ngx_http_request_handler`,
`ngx_http_lingering_close_handler`, `ngx_http_keepalive_handler`, or nobody
after `ngx_http_close_connection`. -/
inductive ConnHandler
  | request | lingering | keepalive | closed
  deriving DecidableEq, Repr

/-- Where the process is with the request. -/
inductive Pc
  /-- `ngx_http_toxic_handler` is called by the content phase. -/
  | handler
  /-- `fork()` is next. -/
  | forking
  /-- The child is about to run the script. -/
  | executing
  /-- `ngx_http_finalize_request(r, NGX_OK)` of `exit_request`. -/
  | exitFinalize
  /-- `ngx_http_finalize_request(r, NGX_OK)` of `toxic_post_body_handler`. -/
  | postFinalize
  /-- `ngx_http_finalize_request(r, NGX_AGAIN)` of the handler. -/
  | handlerFinalize
  /-- `ngx_http_finalize_request` of the content phase with the handler's
  result, of the body reader with a status, or with the result of a special
  response. -/
  | phaseFinalize (rc : Rc)
  /-- `ngx_http_special_response_handler`, which `ngx_http_finalize_request` has
  called. -/
  | special (status : SpecialStatus)
  /-- `ngx_http_run_posted_requests`. -/
  | runPosted
  /-- The process waits for events. -/
  | idle
  deriving DecidableEq, Repr

/-- A request and its connection in one process. -/
structure Http where
  resp : Response
  /-- `r->main->count`. -/
  count : Nat
  pc : Pc
  /-- The content phase has called the handler and not finalized yet. -/
  inPhase : Bool
  readHandler : ReadHandler
  writeHandler : WriteHandler
  /-- The terminal request is in `r->posted_requests`. -/
  posted : Bool
  reader : ConnHandler
  /-- `r->lingering_close`. -/
  lingeringClose : Bool
  /-- `r->header_in->pos < r->header_in->last`. -/
  unread : Bool
  /-- `c->read->ready` and `c->read->eof`. -/
  readReady : Bool
  readEof : Bool
  /-- `c->write->timer_set`. -/
  writeTimer : Bool
  /-- `r->request_body` is set. -/
  requestBody : Bool
  /-- `r->discard_body`. -/
  discardBody : Bool
  /-- `waitIT` is a cleanup handler of `r->pool`. -/
  cleanup : Bool
  baseLen : Int
  /-- The polling thread runs. -/
  thread : Bool
  /-- This process has made its response, or left it to the child. -/
  handled : Bool
  freed : Bool
  exited : Bool
  /-- A function was called on `r` after it had been freed. -/
  useAfterFree : Bool
  /-- The count was decremented from zero. -/
  underflow : Bool
  /-- The polling thread ran in the frame of a handler that had returned, or read
  `r->connection` of a freed request. -/
  staleRead : Bool
  deriving DecidableEq, Repr

/-- The outside answers to one finalization: whether the write event and the
read event can be registered, whether `shutdown` works and whether the
connection is still good when the lingering close has read all there is. -/
structure FinalizeAnswers where
  writeEvent : Bool
  readEvent : Bool
  shutdown : Bool
  lingers : Bool
  deriving DecidableEq, Repr

/-- `ngx_http_free_request`: the pool is destroyed, and `waitIT` ends the
process if it is one of its cleanup handlers. -/
def freeRequest (s : Http) : Http :=
  { s with freed := true, exited := s.exited || s.cleanup }

/-- `ngx_http_close_request`. -/
def closeRequest (s : Http) : Http :=
  if s.count = 0 then { s with underflow := true }
  else if s.count = 1 then { freeRequest { s with count := 0 } with reader := .closed }
  else { s with count := s.count - 1 }

/-- A call of a function on `r`, which may have been freed. -/
def call (f : Http → Http) (s : Http) : Http :=
  if s.exited then s else if s.freed then { s with useAfterFree := true } else f s

/-- `ngx_http_terminate_request`; the write event handler is always set here,
so the request is posted to `ngx_http_terminate_handler`. -/
def terminateRequest (s : Http) : Http :=
  { s with writeHandler := .terminate, posted := true }

/-- `ngx_http_terminate_handler`. -/
def terminateHandler (s : Http) : Http := closeRequest { s with count := 1 }

/-- `ngx_http_set_keepalive`, as far as `r` is concerned. -/
def setKeepalive (s : Http) : Http :=
  if s.discardBody then { s with writeHandler := .empty }
  else
    { freeRequest { s with resp := { s.resp with keepalive := false } } with reader := .keepalive }

/-- `ngx_http_set_lingering_close`, which runs `ngx_http_lingering_close_handler`
at once when the connection is readable: it reads until nothing is there. -/
def setLingeringClose (a : FinalizeAnswers) (s : Http) : Http :=
  let s' := { s with reader := .lingering }
  if a.readEvent = false then closeRequest s'
  else if a.shutdown = false then closeRequest s'
  else if s.readReady then
    if a.lingers then { s' with readReady := false } else closeRequest s'
  else s'

/-- The test of `ngx_http_finalize_connection` for a lingering close. -/
def lingersOn (conf : HttpConf) (s : Http) : Bool :=
  match conf.lingeringClose with
  | .off => false
  | .on => s.lingeringClose || s.unread || s.readReady
  | .always => true

/-- `ngx_http_finalize_connection`. -/
def finalizeConnection (conf : HttpConf) (a : FinalizeAnswers) (s : Http) : Http :=
  if s.count ≠ 1 then
    closeRequest (if s.discardBody then { s with readHandler := .discardBody } else s)
  else if conf.keepalive && s.resp.keepalive then setKeepalive s
  else if lingersOn conf s then setLingeringClose a s
  else closeRequest s

/-- The read event handler while a response is written. -/
def Http.writingReader (s : Http) : ReadHandler :=
  if s.discardBody then .discardBody else .testReading

theorem Http.writingReader_ne (s : Http) : s.writingReader ≠ .readBody := by
  unfold Http.writingReader
  split <;> decide

theorem Http.writingReader_discard {s : Http} (h : s.discardBody = true) :
    s.writingReader = .discardBody := by
  unfold Http.writingReader
  rw [if_pos h]

/-- `ngx_http_set_write_handler`: whether it returns `NGX_OK`, and the
request. -/
def setWriteHandler (a : FinalizeAnswers) (s : Http) : Bool × Http :=
  let s' := { s with
    readHandler := s.writingReader, writeHandler := .writer, writeTimer := true }
  if a.writeEvent then (true, s') else (false, closeRequest s')

/-- `ngx_http_finalize_request(r, rc)` of a main request.  A status without an
error enters `specialResponse` first and is finalized with the result of that. -/
def finalizeRequest (conf : HttpConf) (a : FinalizeAnswers) (rc : Rc) (s : Http) : Http :=
  if rc = .error ∨ rc = .requestTimeOut ∨ rc = .clientClosedRequest ∨ s.resp.error = true then
    terminateRequest s
  else if s.resp.buffered then
    match setWriteHandler a s with
    | (true, s') => s'
    -- `ngx_http_close_request` has run already
    | (false, s') => call terminateRequest s'
  else
    let s' := { s with writeHandler := .empty, writeTimer := false }
    if s.readEof then closeRequest s' else finalizeConnection conf a s'

/-- `ngx_http_writer`. -/
def writer (conf : HttpConf) (w : WriteAnswers) (a : FinalizeAnswers) (s : Http) : Http :=
  match outputFilter conf.filter w [] s.resp with
  | (rc, resp) =>
      let s' := { s with resp := resp }
      if rc = .error then finalizeRequest conf a rc s'
      else if resp.buffered then
        let s'' := { s' with writeTimer := true }
        if a.writeEvent then s'' else closeRequest s''
      else
        finalizeRequest conf a rc { s' with writeHandler := .empty }

/-- The code of a status. -/
def SpecialStatus.code : SpecialStatus → Nat
  | .badRequest => 400
  | .requestEntityTooLarge => 413
  | .internalServerError => 500

/-- How `ngx_http_discard_request_body` ends: the rest of the body is none or in
`header_in`, it has been read off the socket, the connection has ended or failed,
the body is invalid or the read event cannot be registered, or more is to
come. -/
inductive DiscardRead
  | inHeader
  | whole
  | closed (failed : Bool)
  | refused (waits : Bool)
  | more
  deriving DecidableEq, Repr

/-- The outside answers to a special response: how the body is discarded, with
what it leaves in `header_in` and in `c->read->ready`, whether the client gets
the padding for MSIE and Chrome, whether the pool gives the buffers of the page,
and what the filters do. -/
structure PageAnswers where
  discard : DiscardRead
  unread : Bool
  readReady : Bool
  padded : Bool
  bufs : Bool
  header : HeaderAnswers
  body : WriteAnswers
  deriving DecidableEq, Repr

/-- `ngx_http_discard_request_body`. -/
def discardRequestBody (p : PageAnswers) (s : Http) : Http :=
  if s.requestBody || s.discardBody then s
  else
    let s' := { s with unread := p.unread, readReady := p.readReady }
    match p.discard with
    | .inHeader => s'
    | .whole => { s' with readHandler := .blockReading, lingeringClose := false }
    | .closed failed =>
        { s' with
          lingeringClose := false
          readEof := s.readEof || !failed
          resp := { s.resp with error := s.resp.error || failed } }
    | .refused waits => if waits then { s' with readHandler := .discardBody } else s'
    | .more => { s' with readHandler := .discardBody, count := s.count + 1, discardBody := true }

/-- The entry of `ngx_http_error_pages` for a status; its title is the reason
phrase. -/
def errorPage (status : SpecialStatus) : Bytes :=
  bytesOf "<html>\r\n<head><title>" ++ statusText status.code ++
    bytesOf "</title></head>\r\n<body bgcolor=\"white\">\r\n<center><h1>" ++
    statusText status.code ++ bytesOf "</h1></center>\r\n"

/-- `ngx_http_error_full_tail` and `ngx_http_error_tail`. -/
def errorTail (conf : FilterConf) : Bytes :=
  bytesOf "<hr><center>" ++ bytesOf (if conf.serverTokens then "nginx/1.6.2" else "nginx") ++
    bytesOf "</center>\r\n</body>\r\n</html>\r\n"

/-- `ngx_http_msie_padding`. -/
def msiePadding : Bytes :=
  (List.replicate 6
    (bytesOf "<!-- a padding to disable MSIE and Chrome friendly error page -->\r\n")).flatten

/-- The buffers of the page; the last one has `last_buf`. -/
def pageBufs (conf : FilterConf) (padded : Bool) (status : SpecialStatus) : List OutBuf :=
  ⟨errorPage status, ⟨false, false, false⟩⟩ ::
    if padded then
      [⟨errorTail conf, ⟨false, false, false⟩⟩, ⟨msiePadding, ⟨true, false, false⟩⟩]
    else [⟨errorTail conf, ⟨true, false, false⟩⟩]

/-- The page in the headers of the response. -/
def announcePage (page : List OutBuf) (r : Response) : Response :=
  { r with
    headersOut := { r.headersOut with
      contentType := bytesOf "text/html", contentLengthN := (contents page).length } }

/-- `ngx_http_send_special_response`. -/
def sendSpecialResponse (conf : FilterConf) (p : PageAnswers) (status : SpecialStatus)
    (r : Response) : Rc × Response :=
  let page := pageBufs conf p.padded status
  match sendHeader conf p.header (announcePage page r) with
  | (rc, r') =>
      if rc = .error ∨ r'.headerOnly = true then (rc, r')
      else if p.bufs = false then (.error, r')
      else outputFilter conf p.body page r'

/-- `ngx_http_special_response_handler(r, status)`, without a page of the
`error_page` directive. -/
def specialResponse (conf : FilterConf) (p : PageAnswers) (status : SpecialStatus) (s : Http) :
    Rc × Http :=
  let s' := discardRequestBody p { s with
    lingeringClose := s.lingeringClose && status != .badRequest
    resp := { s.resp with errStatus := status.code, keepalive := false } }
  match sendSpecialResponse conf p status s'.resp with
  | (rc, resp) => (rc, { s' with resp := resp, handled := true })

/-- The request is there and nothing has gone wrong. -/
structure Alive (s : Http) : Prop where
  freed : s.freed = false
  exited : s.exited = false
  useAfterFree : s.useAfterFree = false
  underflow : s.underflow = false

/-- The request was freed, or the process has ended, and nothing has gone
wrong. -/
structure Over (s : Http) : Prop where
  gone : s.freed = true ∨ s.exited = true
  useAfterFree : s.useAfterFree = false
  underflow : s.underflow = false

/-- The last reference frees the request. -/
theorem closeRequest_last {s : Http} (halive : Alive s) (hcount : s.count = 1) :
    Over (closeRequest s) := by
  unfold closeRequest freeRequest
  rw [if_neg (by omega), if_pos hcount]
  exact ⟨Or.inl rfl, halive.useAfterFree, halive.underflow⟩

/-- Another reference is given up. -/
theorem closeRequest_shared {s : Http} (hcount : s.count = 2) :
    closeRequest s = { s with count := 1 } := by
  unfold closeRequest
  rw [if_neg (by omega), if_neg (by omega), hcount]

/-- The terminate handler frees the request whatever its count. -/
theorem terminateHandler_over {s : Http} (halive : Alive s) : Over (terminateHandler s) :=
  closeRequest_last (s := { s with count := 1 })
    ⟨halive.freed, halive.exited, halive.useAfterFree, halive.underflow⟩ rfl

/-- `ngx_http_finalize_connection` for the last user enters a lingering close
that leaves the request alive. -/
structure ConnectionLingers (conf : HttpConf) (a : FinalizeAnswers) (s : Http) : Prop where
  noKeepalive : (conf.keepalive && s.resp.keepalive) = false
  lingers : lingersOn conf s = true
  readEvent : a.readEvent = true
  shutdown : a.shutdown = true
  stays : (s.readReady && !a.lingers) = false

/-- The finalization of the last user leaves the request alive. -/
def LingersAfter (conf : HttpConf) (a : FinalizeAnswers) (s : Http) : Prop :=
  s.readEof = false ∧ ConnectionLingers conf a s

instance (conf : HttpConf) (a : FinalizeAnswers) (s : Http) :
    Decidable (ConnectionLingers conf a s) :=
  decidable_of_iff ((conf.keepalive && s.resp.keepalive) = false ∧ lingersOn conf s = true ∧
      a.readEvent = true ∧ a.shutdown = true ∧ (s.readReady && !a.lingers) = false)
    ⟨fun h => ⟨h.1, h.2.1, h.2.2.1, h.2.2.2.1, h.2.2.2.2⟩, fun h => ⟨h.1, h.2, h.3, h.4, h.5⟩⟩

instance (conf : HttpConf) (a : FinalizeAnswers) (s : Http) :
    Decidable (LingersAfter conf a s) :=
  inferInstanceAs (Decidable (_ ∧ _))

/-- Entering the lingering close keeps the request, with nothing left to read, or
frees it. -/
theorem setLingeringClose_cases (a : FinalizeAnswers) {s : Http} (halive : Alive s)
    (hcount : s.count = 1) :
    (a.readEvent = true ∧ a.shutdown = true ∧ (s.readReady && !a.lingers) = false ∧
      setLingeringClose a s = { s with reader := .lingering, readReady := false }) ∨
    (¬ (a.readEvent = true ∧ a.shutdown = true ∧ (s.readReady && !a.lingers) = false) ∧
      Over (setLingeringClose a s)) := by
  have hclose : Over (closeRequest { s with reader := .lingering }) :=
    closeRequest_last ⟨halive.freed, halive.exited, halive.useAfterFree, halive.underflow⟩ hcount
  unfold setLingeringClose
  by_cases hread : a.readEvent = false
  · rw [if_pos hread]
    exact Or.inr ⟨fun h => absurd h.1 (by rw [hread]; decide), hclose⟩
  rw [if_neg hread]
  by_cases hshut : a.shutdown = false
  · rw [if_pos hshut]
    exact Or.inr ⟨fun h => absurd h.2.1 (by rw [hshut]; decide), hclose⟩
  rw [if_neg hshut]
  have hread' : a.readEvent = true := by simpa using hread
  have hshut' : a.shutdown = true := by simpa using hshut
  by_cases hready : s.readReady = true
  · rw [if_pos hready]
    by_cases hlingers : a.lingers = true
    · rw [if_pos hlingers]
      exact Or.inl ⟨hread', hshut', by simp [hlingers], rfl⟩
    · rw [if_neg hlingers]
      exact Or.inr ⟨fun h => absurd h.2.2 (by simp [hready, hlingers]), hclose⟩
  · have hquiet : s.readReady = false := Bool.eq_false_iff.mpr hready
    rw [if_neg hready]
    refine Or.inl ⟨hread', hshut', by simp [hquiet], ?_⟩
    rw [← hquiet]

/-- A request that discards its body is not kept alive. -/
def NoKeepalive (s : Http) : Prop := s.discardBody = true → s.resp.keepalive = false

/-- Finalizing the connection for the last user. -/
theorem finalizeConnection_last (conf : HttpConf) (a : FinalizeAnswers) {s : Http}
    (halive : Alive s) (hcount : s.count = 1) (hdiscard : NoKeepalive s) :
    (ConnectionLingers conf a s ∧
      finalizeConnection conf a s = { s with reader := .lingering, readReady := false }) ∨
    (¬ ConnectionLingers conf a s ∧ Over (finalizeConnection conf a s)) := by
  unfold finalizeConnection
  rw [if_neg (fun h => h hcount)]
  by_cases hkeep : (conf.keepalive && s.resp.keepalive) = true
  · rw [if_pos hkeep]
    have hover : s.discardBody ≠ true := by
      intro hdisc
      rw [hdiscard hdisc, Bool.and_false] at hkeep
      cases hkeep
    unfold setKeepalive
    rw [if_neg hover]
    refine Or.inr ⟨fun h => ?_, ⟨Or.inl rfl, halive.useAfterFree, halive.underflow⟩⟩
    have := h.noKeepalive
    rw [hkeep] at this
    cases this
  rw [if_neg hkeep]
  by_cases hlinger : lingersOn conf s = true
  · rw [if_pos hlinger]
    rcases setLingeringClose_cases a halive hcount with ⟨hread, hshut, hstays, h⟩ | ⟨hnot, h⟩
    · exact Or.inl ⟨⟨Bool.eq_false_iff.mpr hkeep, hlinger, hread, hshut, hstays⟩, h⟩
    · exact Or.inr ⟨fun hl => hnot ⟨hl.readEvent, hl.shutdown, hl.stays⟩, h⟩
  · rw [if_neg hlinger]
    exact Or.inr ⟨fun h => hlinger h.lingers, closeRequest_last halive hcount⟩

/-- Finalizing the connection for another user. -/
theorem finalizeConnection_shared (conf : HttpConf) (a : FinalizeAnswers) {s : Http}
    (hcount : s.count = 2) :
    finalizeConnection conf a s =
      { s with
        readHandler := if s.discardBody then .discardBody else s.readHandler
        count := 1 } := by
  unfold finalizeConnection
  rw [if_pos (by omega)]
  by_cases hdiscard : s.discardBody = true
  · rw [if_pos hdiscard, if_pos hdiscard, closeRequest_shared]
    exact hcount
  · rw [if_neg hdiscard, if_neg hdiscard, closeRequest_shared hcount]

/-- The counting functions do not move the content phase. -/
@[simp] theorem closeRequest_inPhase (s : Http) : (closeRequest s).inPhase = s.inPhase := by
  unfold closeRequest freeRequest
  split
  · rfl
  · split <;> rfl

@[simp] theorem setLingeringClose_inPhase (a : FinalizeAnswers) (s : Http) :
    (setLingeringClose a s).inPhase = s.inPhase := by
  unfold setLingeringClose
  dsimp only
  split
  · simp
  split
  · simp
  split
  · split <;> simp
  · rfl

@[simp] theorem finalizeConnection_inPhase (conf : HttpConf) (a : FinalizeAnswers) (s : Http) :
    (finalizeConnection conf a s).inPhase = s.inPhase := by
  unfold finalizeConnection setKeepalive
  split
  · rw [closeRequest_inPhase]
    split <;> rfl
  · split
    · split <;> rfl
    · split <;> simp

@[simp] theorem finalizeRequest_inPhase (conf : HttpConf) (a : FinalizeAnswers) (rc : Rc)
    (s : Http) : (finalizeRequest conf a rc s).inPhase = s.inPhase := by
  unfold finalizeRequest setWriteHandler
  split
  · rfl
  · split
    · by_cases hevent : a.writeEvent = true
      · simp [hevent]
      · simp only [hevent, if_false, call, Bool.false_eq_true]
        split
        · simp
        · split <;> simp [terminateRequest]
    · split <;> simp

/-- **Finalization after an error.** -/
theorem finalizeRequest_terminates (conf : HttpConf) (a : FinalizeAnswers) {rc : Rc} {s : Http}
    (h : rc = .error ∨ rc = .requestTimeOut ∨ rc = .clientClosedRequest ∨ s.resp.error = true) :
    finalizeRequest conf a rc s = terminateRequest s := by
  unfold finalizeRequest
  rw [if_pos h]

/-- The codes that finalize a request without an error. -/
def Rc.Fine (rc : Rc) : Prop :=
  rc ≠ .error ∧ rc ≠ .requestTimeOut ∧ rc ≠ .clientClosedRequest

/-- A fine code without a connection error takes the other branches. -/
theorem Rc.Fine.not_terminates {rc : Rc} (hrc : rc.Fine) {s : Http}
    (herr : s.resp.error = false) :
    ¬ (rc = .error ∨ rc = .requestTimeOut ∨ rc = .clientClosedRequest ∨ s.resp.error = true) := by
  rintro (h | h | h | h)
  · exact hrc.1 h
  · exact hrc.2.1 h
  · exact hrc.2.2 h
  · rw [herr] at h
    cases h

/-- **Finalization of a buffered response** installs the writer, or gives a
reference up and terminates when the write event cannot be registered. -/
theorem finalizeRequest_buffered (conf : HttpConf) (a : FinalizeAnswers) {rc : Rc} {s : Http}
    (halive : Alive s) (hrc : rc.Fine) (herr : s.resp.error = false)
    (hbuffered : s.resp.buffered = true)
    (hevent : a.writeEvent = false → s.count = 2) :
    finalizeRequest conf a rc s =
      if a.writeEvent = true then
        { s with readHandler := s.writingReader, writeHandler := .writer, writeTimer := true }
      else
        { s with
          readHandler := s.writingReader, writeHandler := .terminate, writeTimer := true
          count := 1, posted := true } := by
  unfold finalizeRequest setWriteHandler
  rw [if_neg (hrc.not_terminates herr), if_pos hbuffered]
  by_cases hwrite : a.writeEvent = true
  · simp [hwrite]
  · have hcount := hevent (Bool.eq_false_iff.mpr hwrite)
    simp [hwrite, closeRequest, hcount, call, terminateRequest, halive.freed, halive.exited]

/-- **Finalization with another user left** gives one reference up. -/
theorem finalizeRequest_shared (conf : HttpConf) (a : FinalizeAnswers) {rc : Rc} {s : Http}
    (hrc : rc.Fine) (herr : s.resp.error = false) (hbuffered : s.resp.buffered = false)
    (hcount : s.count = 2) (hreads : s.discardBody = true → s.readHandler = .discardBody) :
    finalizeRequest conf a rc s =
      { s with writeHandler := .empty, writeTimer := false, count := 1 } := by
  unfold finalizeRequest
  rw [if_neg (hrc.not_terminates herr), if_neg (by rw [hbuffered]; exact Bool.false_ne_true)]
  by_cases heof : s.readEof = true
  · rw [if_pos heof, closeRequest_shared]
    exact hcount
  · rw [if_neg heof, finalizeConnection_shared]
    · by_cases hdiscard : s.discardBody = true
      · simp [hdiscard, hreads hdiscard]
      · simp [hdiscard]
    · exact hcount

/-- **Finalization by the last user** frees the request, unless a lingering
close keeps it. -/
theorem finalizeRequest_last (conf : HttpConf) (a : FinalizeAnswers) {rc : Rc} {s : Http}
    (halive : Alive s) (hrc : rc.Fine) (herr : s.resp.error = false)
    (hbuffered : s.resp.buffered = false) (hcount : s.count = 1) (hdiscard : NoKeepalive s) :
    (LingersAfter conf a s ∧ finalizeRequest conf a rc s =
      { s with
        writeHandler := .empty, writeTimer := false, reader := .lingering, readReady := false }) ∨
    (¬ LingersAfter conf a s ∧ Over (finalizeRequest conf a rc s)) := by
  unfold finalizeRequest
  rw [if_neg (hrc.not_terminates herr), if_neg (by rw [hbuffered]; exact Bool.false_ne_true)]
  have halive' : Alive { s with writeHandler := .empty, writeTimer := false } :=
    ⟨halive.freed, halive.exited, halive.useAfterFree, halive.underflow⟩
  by_cases heof : s.readEof = true
  · rw [if_pos heof]
    refine Or.inr ⟨fun h => ?_, closeRequest_last halive' hcount⟩
    rw [h.1] at heof
    cases heof
  · rw [if_neg heof]
    rcases finalizeConnection_last conf a halive' hcount hdiscard with ⟨hlingers, h⟩ | ⟨hnot, h⟩
    · refine Or.inl ⟨⟨Bool.eq_false_iff.mpr heof, ?_⟩, h⟩
      exact ⟨hlingers.1, hlingers.2, hlingers.3, hlingers.4, hlingers.5⟩
    · refine Or.inr ⟨fun hl => hnot ?_, h⟩
      exact ⟨hl.2.1, hl.2.2, hl.2.3, hl.2.4, hl.2.5⟩

/-- What discarding the body does not change. -/
structure DiscardFrame (s t : Http) : Prop where
  freed : t.freed = s.freed
  exited : t.exited = s.exited
  useAfterFree : t.useAfterFree = s.useAfterFree
  underflow : t.underflow = s.underflow
  reader : t.reader = s.reader
  posted : t.posted = s.posted
  inPhase : t.inPhase = s.inPhase
  thread : t.thread = s.thread
  cleanup : t.cleanup = s.cleanup
  response : t.resp = { s.resp with error := t.resp.error }

theorem discardRequestBody_frame (p : PageAnswers) (s : Http) :
    DiscardFrame s (discardRequestBody p s) := by
  unfold discardRequestBody
  split
  · exact ⟨rfl, rfl, rfl, rfl, rfl, rfl, rfl, rfl, rfl, rfl⟩
  · cases p.discard with
    | refused waits => cases waits <;> exact ⟨rfl, rfl, rfl, rfl, rfl, rfl, rfl, rfl, rfl, rfl⟩
    | inHeader | whole | closed | more =>
        exact ⟨rfl, rfl, rfl, rfl, rfl, rfl, rfl, rfl, rfl, rfl⟩

/-- The page keeps the method and the keepalive, and its result is no status. -/
theorem sendSpecialResponse_kept (conf : FilterConf) (p : PageAnswers) (status : SpecialStatus)
    (r : Response) :
    (sendSpecialResponse conf p status r).2.method = r.method ∧
      (sendSpecialResponse conf p status r).2.keepalive = r.keepalive ∧
      ((sendSpecialResponse conf p status r).1 = .ok ∨
        (sendSpecialResponse conf p status r).1 = .error ∨
        (sendSpecialResponse conf p status r).1 = .again) := by
  unfold sendSpecialResponse
  generalize pageBufs conf p.padded status = page
  have hmethod : (sendHeader conf p.header (announcePage page r)).2.method = r.method :=
    sendHeader_method ..
  have hkeep : (sendHeader conf p.header (announcePage page r)).2.keepalive = r.keepalive :=
    sendHeader_keepalive ..
  have hrc := sendHeader_rc conf p.header (announcePage page r)
  simp only
  cases hsend : sendHeader conf p.header (announcePage page r) with
  | mk rc r' =>
      rw [hsend] at hmethod hkeep hrc
      simp only
      split
      · exact ⟨hmethod, hkeep, hrc⟩
      split
      · exact ⟨hmethod, hkeep, Or.inr (Or.inl rfl)⟩
      · exact ⟨(outputFilter_method ..).trans hmethod, (outputFilter_keepalive ..).trans hkeep,
          outputFilter_rc ..⟩

/-- A call of the output filter without a new chain that returns no error
leaves the connection without one, and what the socket does not take is
pending. -/
theorem outputFilter_nil (conf : FilterConf) (w : WriteAnswers) {r : Response}
    (h : (outputFilter conf w [] r).1 ≠ .error) :
    (outputFilter conf w [] r).1.Fine ∧ (outputFilter conf w [] r).2.error = false ∧
      (¬ (w.send.failed = false ∧ (contents r.out).length ≤ w.send.taken) →
        (outputFilter conf w [] r).2.buffered = true) := by
  by_cases herr : r.error = true
  · rw [outputFilter, writeFilter_refused conf w [] herr] at h
    exact absurd rfl h
  have hfine : r.error = false := Bool.eq_false_iff.mpr herr
  rcases writeFilter_nil conf w hfine with ⟨_, hw⟩ | ⟨hpacked, hout, hw⟩
  · rw [outputFilter, hw] at h
    exact absurd rfl h
  by_cases hready : r.writeReady = true
  · by_cases hfail : w.send.failed = true
    · rw [outputFilter, hw, writeOut_failed hready hfail] at h
      exact absurd rfl h
    · have hkeep : w.send.failed = false := Bool.eq_false_iff.mpr hfail
      rw [writeOut_taken hready hkeep] at hw
      have hnil := drain_eq_nil_iff hpacked w.send.taken
      rw [outputFilter, hw]
      by_cases hdrain : drain w.send.taken r.out = []
      · refine ⟨?_, ?_, fun hnot => absurd ⟨hkeep, hnil.mp hdrain⟩ hnot⟩ <;>
          simp [hdrain, Rc.Fine, hfine]
      · refine ⟨?_, ?_, fun _ => ?_⟩ <;> simp [hdrain, Rc.Fine, hfine]
  · have hblocked : r.writeReady = false := Bool.eq_false_iff.mpr hready
    rw [outputFilter, hw, writeOut_blocked hblocked hout]
    exact ⟨⟨by simp, by simp, by simp⟩, hfine, fun _ => rfl⟩

end Toxic
