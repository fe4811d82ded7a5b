import ToxicNginx.KeptConnection

/-!
# The requests a connection is read into

The process that answers on a keepalive connection reads the client's bytes
into `r->header_in`, parses a header, and calls the toxic handler.  Only POST
and PUT read the declared body; for the other methods nothing takes it off the
connection, and `ngx_http_set_keepalive` hands what is left to the next request
line.  The child of `fork()` answers, so it is the process that reads on.

* `HttpRequest`, `WellFormed` — a request as it is sent, and what nginx's
  header parser makes of it;
* `pipelineStep` — a connection and the process that answers on it, with every
  step of `httpStep` between a request's header and the next one, under any
  segmentation of the bytes;
* `DispatchedExactly` — the requests dispatched are the ones sent;
* `Separated` — the steps after which they are: no body is left to be parsed, and
  the process does not end with bytes unread;
* `Reading` — the invariant; `dispatchedExactly_of_guarded` — every run of such
  steps.
-/

namespace Toxic

open StepSystem

/-- A request as the client sends it: the request line and header lines up to
the blank line, and the body that `Content-Length` declares. -/
structure HttpRequest where
  method : Method
  header : Bytes
  body : Bytes
  deriving DecidableEq, Repr

/-- What `ngx_http_process_request_line` and `ngx_http_process_request_headers`
make of the bytes from `header_in->pos` on: more are needed, they are no
request, or a header of some length with a method and a `Content-Length`. -/
inductive HeaderParse
  | again
  | invalid
  | done (length : Nat) (method : Method) (contentLength : Nat)
  deriving DecidableEq, Repr

/-- A request nginx parses as what it is: every proper part of its header needs
more, and the whole header is recognized whatever follows. -/
structure WellFormed (parse : Bytes → HeaderParse) (r : HttpRequest) : Prop where
  nonempty : r.header ≠ []
  again : ∀ part, part <+: r.header → part ≠ r.header → parse part = .again
  done : ∀ rest, parse (r.header ++ rest) = .done r.header.length r.method r.body.length

/-- `r->method & (NGX_HTTP_POST|NGX_HTTP_PUT)`. -/
def Method.readsBody (method : Method) : Bool := method == .post || method == .put

/-- A request as the toxic handler is run for it: the header, the declared length
and the body that was read. -/
structure Dispatched where
  method : Method
  header : Bytes
  contentLength : Nat
  body : Bytes
  deriving DecidableEq, Repr

/-- What the handler should be run for: POST and PUT with their body. -/
def HttpRequest.asDispatched (r : HttpRequest) : Dispatched :=
  ⟨r.method, r.header, r.body.length, if r.method.readsBody then r.body else []⟩

/-- The directives the connection is handled under; `0` is no limit. -/
structure PipelineConf where
  http : HttpConf
  keepaliveRequests : Nat
  clientMaxBodySize : Nat
  deriving DecidableEq, Repr

/-- What the process does with the connection. -/
inductive ReadPhase
  /-- `ngx_http_wait_request_handler` or `ngx_http_keepalive_handler`. -/
  | waiting
  /-- `ngx_http_process_request_line` and what follows it. -/
  | header
  /-- The content phase has the request, with what is read of its body and the value
  of `rb->rest`; `fork()` has not been called for it. -/
  | reading (request : Dispatched) (rest : Nat) (http : Http)
  /-- The script is run for the request. -/
  | handling (http : Http)
  /-- The process has ended, with the connection open. -/
  | ended
  /-- The connection is closed. -/
  | closed
  deriving DecidableEq, Repr

/-- A connection and the process that answers on it: the bytes sent and not
received, the number of bytes taken off `header_in` and the socket, `header_in`
from `pos` to `last`, `c->requests`, whether the thread of an earlier request
runs, and the requests the toxic handler has forked for. -/
structure Pipeline where
  incoming : Bytes
  consumed : Nat
  unread : Bytes
  phase : ReadPhase
  requests : Nat
  watched : Bool
  dispatched : List Dispatched
  deriving DecidableEq, Repr

/-- What happens next: bytes of a header arrive, the bytes in `header_in` are
processed, the process takes a step with the request and `n` bytes off the
connection, the request is left behind, the thread of an earlier request ends the
process, or the connection is closed between two requests. -/
inductive PipelineEvent
  | recv (n : Nat)
  | process (q : Incoming) (readReady readEof : Bool) (baseLen : Int)
  | own (n : Nat) (event : HttpEvent)
  | leave (kept : Bool)
  | exit
  | close
  deriving DecidableEq, Repr

/-- The bytes of the connection, received or not. -/
def Pipeline.stream (s : Pipeline) : Bytes := s.unread ++ s.incoming

/-- `n` bytes are taken off the connection, those in `header_in` first. -/
def Pipeline.take (n : Nat) (s : Pipeline) : Pipeline :=
  { s with
    incoming := s.incoming.drop (n - s.unread.length)
    unread := s.unread.drop n
    consumed := s.consumed + n }

/-- A header after which the request does not come to its content handler: TRACE is
answered with 405, a body that is declared too large with 413, and the connection
is closed. -/
def refusedHeader (conf : PipelineConf) (method : Method) (contentLength : Nat) : Bool :=
  method == .trace ||
    (conf.clientMaxBodySize != 0 && decide (conf.clientMaxBodySize < contentLength))

/-- `r->keepalive` behind `ngx_http_update_location_config`; `q` has it behind
`ngx_http_handler`. -/
def Pipeline.keepalive (conf : PipelineConf) (q : Incoming) (s : Pipeline) : Bool :=
  q.keepalive && decide (s.requests < conf.keepaliveRequests)

/-- `ngx_http_process_request_header` and the phases in front of the content phase. -/
def processHeader (conf : PipelineConf) (parse : Bytes → HeaderParse) (q : Incoming)
    (readReady readEof : Bool) (baseLen : Int) (s : Pipeline) : Option Pipeline :=
  match parse s.unread with
  | .again => none
  | .invalid => some { s with phase := .closed }
  | .done length method contentLength =>
      if refusedHeader conf method contentLength then some { s with phase := .closed }
      else if q.method = method then
        some { s.take length with
          phase := .reading ⟨method, s.unread.take length, contentLength, []⟩ contentLength
            (Http.start { q with keepalive := s.keepalive conf q } (decide (0 < contentLength))
              (!(s.unread.drop length).isEmpty) readReady readEof baseLen) }
      else none

/-- `n` bytes are read into `header_in`. -/
def received (parse : Bytes → HeaderParse) (n : Nat) (s : Pipeline) : Option Pipeline :=
  match s.phase with
  | .waiting =>
      some { s with
        incoming := s.incoming.drop n, unread := s.incoming.take n, phase := .header
        requests := s.requests + 1 }
  | .header =>
      if parse s.unread = .again then
        some { s with
          incoming := s.incoming.drop n, unread := s.unread ++ s.incoming.take n }
      else none
  | _ => none

/-- What the body reader comes to when it has taken `n` of the `rest` bytes of the
body. -/
def BodyRead.fits (body : BodyRead) (n rest : Nat) (s : Pipeline) : Bool :=
  match body with
  | .whole unread => n == rest && unread == !(s.unread.drop n).isEmpty
  | .more => decide (n < rest) && decide (s.unread.length ≤ n)
  | .closed _ | .timedOut | .refused _ _ => decide (n ≤ rest)

/-- The number of bytes a step takes off the connection. -/
def Pipeline.takes (n rest : Nat) (http : Http) (event : HttpEvent) (t : Http) (s : Pipeline) :
    Bool :=
  decide (n ≤ s.stream.length) &&
    match http.bodyRead event with
    | some body => body.fits n rest s
    | none => n == 0 || http.drops event t

/-- A step of the process before `fork()`. -/
def readStep (conf : PipelineConf) (n : Nat) (event : HttpEvent) (request : Dispatched)
    (rest : Nat) (http : Http) (s : Pipeline) : Option Pipeline :=
  (httpStep conf.http http event).bind fun t =>
    if s.takes n rest http event t then
      let read := (http.bodyRead event).isSome
      let request' : Dispatched :=
        if read then { request with body := request.body ++ s.stream.take n } else request
      if t.pc = .forking then
        some { s.take n with phase := .handling t, dispatched := s.dispatched ++ [request'] }
      else
        some { s.take n with phase := .reading request' (if read then rest - n else rest) t }
    else none

/-- A step of the process that runs the script; the child of `fork()` has the thread that
calls it only. -/
def handleStep (conf : PipelineConf) (n : Nat) (event : HttpEvent) (http : Http) (s : Pipeline) :
    Option Pipeline :=
  if event = .fork false then none
  else
    (httpStep conf.http http event).bind fun t =>
      if s.takes n 0 http event t then
        some { s.take n with phase := .handling t, watched := s.watched && event != .fork true }
      else none

/-- The end of `ngx_http_set_keepalive`: a pipelined request is processed, otherwise the
process waits for the next one. -/
def Pipeline.next (http : Http) (s : Pipeline) : Pipeline :=
  let s' := { s with watched := s.watched || http.thread }
  if s.unread.isEmpty then { s' with phase := .waiting }
  else { s' with phase := .header, requests := s.requests + 1 }

/-- What is left when the process ends: a connection that was to be read on, or one that
was to be closed. -/
def Pipeline.endsAs (s : Pipeline) : ReadPhase :=
  match s.phase with
  | .reading _ _ http | .handling http =>
      if http.reader = .keepalive ∨ http.reader = .request then .ended else .closed
  | _ => .ended

/-- The request is over: the process has ended, the connection is kept, or it is
closed; `kept` says whether `ngx_http_set_keepalive` gets what it needs. -/
def leftBehind (kept : Bool) (http : Http) (s : Pipeline) : Option Pipeline :=
  if http.exited then some { s with phase := s.endsAs }
  else if http.freed && http.pc == .idle then
    if http.reader = .keepalive ∧ kept = true then some (s.next http)
    else some { s with phase := .closed }
  else none

/-- One step of a connection and the process that answers on it. -/
def pipelineStep (conf : PipelineConf) (parse : Bytes → HeaderParse) (s : Pipeline) :
    PipelineEvent → Option Pipeline
  | .recv n => if 0 < n ∧ n ≤ s.incoming.length then received parse n s else none
  | .process q readReady readEof baseLen =>
      if s.phase = .header then processHeader conf parse q readReady readEof baseLen s else none
  | .own n event =>
      match s.phase with
      | .reading request rest http => readStep conf n event request rest http s
      | .handling http => handleStep conf n event http s
      | _ => none
  | .leave kept =>
      match s.phase with
      | .reading _ _ http | .handling http => leftBehind kept http s
      | _ => none
  | .exit =>
      if s.watched ∧ s.phase ≠ .ended ∧ s.phase ≠ .closed then some { s with phase := s.endsAs }
      else none
  | .close =>
      if s.phase = .waiting ∨ s.phase = .header then some { s with phase := .closed } else none

/-- The bytes of a list of requests. -/
def encode (requests : List HttpRequest) : Bytes := requests.flatMap fun r => r.header ++ r.body

/-- The connection is accepted, and the client sends its requests. -/
def Pipeline.start (sent : List HttpRequest) : Pipeline where
  incoming := encode sent
  consumed := 0
  unread := []
  phase := .waiting
  requests := 0
  watched := false
  dispatched := []

/-- What the reading of a connection must satisfy in every state: the requests
dispatched are the first ones sent; the bytes given to the header parser begin
where the last dispatched request ends, its body included; and when the process
waits for bytes and none is to come, or has ended with the connection open, every
request was dispatched. -/
structure DispatchedExactly (parse : Bytes → HeaderParse) (sent : List HttpRequest)
    (s : Pipeline) : Prop where
  dispatched : s.dispatched <+: sent.map HttpRequest.asDispatched
  aligned : s.phase = .header → s.unread ≠ [] →
    s.consumed = (encode (sent.take s.dispatched.length)).length
  waits : s.incoming = [] → s.phase = .waiting ∨ (s.phase = .header ∧ parse s.unread = .again) →
    s.dispatched = sent.map HttpRequest.asDispatched
  ends : s.phase = .ended → s.dispatched = sent.map HttpRequest.asDispatched

/-- A test of the request in hand. -/
def Pipeline.inHand (s : Pipeline) (test : Http → Bool) : Bool :=
  match s.phase with
  | .reading _ _ http | .handling http => test http
  | _ => false

/-- `fork()` has not been called for the request in hand. -/
def Pipeline.unforked (s : Pipeline) : Bool :=
  match s.phase with
  | .reading _ _ _ => true
  | _ => false

/-- Every byte sent was taken off the connection, and no request waits for its body. -/
def Pipeline.drained (s : Pipeline) : Prop := s.stream = [] ∧ s.unforked = false

instance (s : Pipeline) : Decidable s.drained := inferInstanceAs (Decidable (_ ∧ _))

/-- The request whose header is processed leaves no body on a connection that is read
on. -/
def Pipeline.leavesNoBody (conf : PipelineConf) (parse : Bytes → HeaderParse) (q : Incoming)
    (s : Pipeline) : Bool :=
  match parse s.unread with
  | .done _ method contentLength =>
      refusedHeader conf method contentLength || method.readsBody || contentLength == 0 ||
        !(conf.http.keepalive && s.keepalive conf q)
  | .again | .invalid => true

/-- The steps after which requests are dispatched as they are sent: a request other than
POST and PUT that is kept alive declares no body, the process ends when nothing of
the connection is left to read, and nothing is finalized that was freed. -/
def Separated (conf : PipelineConf) (parse : Bytes → HeaderParse) (s : Pipeline) :
    PipelineEvent → Prop
  | .process q _ _ _ => s.leavesNoBody conf parse q = true
  | .own _ (.finalize _) => s.inHand Http.freed = false
  | .leave _ => s.inHand Http.exited = true → s.endsAs = .ended → s.drained
  | .exit => s.endsAs = .ended → s.drained
  | _ => True

instance (conf : PipelineConf) (parse : Bytes → HeaderParse) (s : Pipeline)
    (event : PipelineEvent) : Decidable (Separated conf parse s event) :=
  match event with
  | .process _ _ _ _ | .own _ (.finalize _) => inferInstanceAs (Decidable (_ = _))
  | .leave _ => inferInstanceAs (Decidable (_ = _ → _ = _ → _))
  | .exit => inferInstanceAs (Decidable (_ = _ → _))
  | .own _ (.handler _ _) | .own _ (.fork _) | .own _ (.execute _ _) | .own _ (.special _)
  | .own _ (.runPosted _ _) | .own _ (.writable _ _ _) | .own _ (.readable _ _ _ _)
  | .own _ (.lingering _) | .own _ (.poll _) | .recv _ | .close =>
      inferInstanceAs (Decidable True)

@[simp] theorem encode_nil : encode [] = [] := rfl

@[simp] theorem encode_cons (r : HttpRequest) (rest : List HttpRequest) :
    encode (r :: rest) = r.header ++ (r.body ++ encode rest) := by
  simp [encode]

@[simp] theorem encode_append (left right : List HttpRequest) :
    encode (left ++ right) = encode left ++ encode right := List.flatMap_append

/-- Taking bytes leaves those behind them. -/
theorem Pipeline.take_stream (n : Nat) (s : Pipeline) :
    (s.take n).stream = s.stream.drop n := by
  unfold Pipeline.stream Pipeline.take
  rw [List.drop_append]

/-- What is in `header_in` is a part of the header of the next request that
needs more, or has all of it. -/
theorem WellFormed.parsed {parse : Bytes → HeaderParse} {r : HttpRequest} (h : WellFormed parse r)
    {unread incoming behind : Bytes} (hstream : unread ++ incoming = r.header ++ behind) :
    (parse unread = .again ∧ incoming ≠ []) ∨
    ∃ tail, unread = r.header ++ tail ∧
      parse unread = .done r.header.length r.method r.body.length := by
  have hunread : unread <+: r.header ++ behind := ⟨incoming, hstream⟩
  rcases List.prefix_or_prefix_of_prefix hunread (List.prefix_append _ _) with hpart | hwhole
  · by_cases heq : unread = r.header
    · right
      refine ⟨[], by rw [heq, List.append_nil], ?_⟩
      have := h.done []
      rw [List.append_nil] at this
      rw [heq]
      exact this
    · left
      refine ⟨h.again unread hpart heq, ?_⟩
      intro hnil
      rw [hnil, List.append_nil] at hstream
      obtain ⟨tail, htail⟩ := hpart
      have hlen := congrArg List.length hstream
      have hlen' := congrArg List.length htail
      simp only [List.length_append] at hlen hlen'
      apply heq
      have htailNil : tail = [] := List.length_eq_zero_iff.mp (by omega)
      rw [htailNil, List.append_nil] at htail
      exact htail
  · right
    obtain ⟨tail, htail⟩ := hwhole
    exact ⟨tail, htail.symm, htail ▸ h.done tail⟩

/-- What the process leaves of the body of a request on the connection. -/
def HttpRequest.left (r : HttpRequest) : Bytes := if r.method.readsBody then [] else r.body

/-- The bytes of the connection behind a request the script is run for: all that was sent
behind it, with a body only when the connection is closed; or a lingering close has
begun to drop them. -/
def Behind (conf : HttpConf) (front : List HttpRequest) (r : HttpRequest)
    (later : List HttpRequest) (http : Http) (s : Pipeline) : Prop :=
  (s.stream = r.left ++ encode later ∧
    s.consumed + r.left.length = (encode (front ++ [r])).length ∧
    (r.left = [] ∨ Closing conf http)) ∨
  (Closing conf http ∧ (http.reader = .lingering ∨ http.reader = .closed))

/-- The reading of a connection, by phase: `front` are the requests dispatched, `r` is
the one in hand, and the others are to come. -/
inductive Reading (conf : PipelineConf) (sent : List HttpRequest) (s : Pipeline) : Prop
  /-- Between two requests, or in the header of the next one. -/
  | between (front rest : List HttpRequest) (hsent : sent = front ++ rest)
      (hphase : (s.phase = .waiting ∧ s.unread = []) ∨ (s.phase = .header ∧ s.unread ≠ []))
      (hstream : s.stream = encode rest) (hconsumed : s.consumed = (encode front).length)
      (hdispatched : s.dispatched = front.map HttpRequest.asDispatched)
  /-- Before `fork()`. -/
  | awaiting (front later : List HttpRequest) (r : HttpRequest) (read : Bytes) (rest : Nat)
      (http : Http) (hsent : sent = front ++ r :: later)
      (hphase : s.phase = .reading ⟨r.method, r.header, r.body.length, read⟩ rest http)
      (hawaits : Awaiting http)
      (hpost : http.pc = .handler → http.isPost = r.method.readsBody)
      (hbody : http.pc = .handler ∨ r.method.readsBody = true)
      (hread : r.method.readsBody = true ∨ read = []) (hrest : read.length + rest = r.body.length)
      (hstream : read ++ s.stream = r.body ++ encode later)
      (hconsumed : s.consumed = (encode front).length + r.header.length + read.length)
      (hkept : r.left = [] ∨ Closing conf.http http)
      (hdispatched : s.dispatched = front.map HttpRequest.asDispatched)
  /-- The body of the request in hand was refused. -/
  | lost (front rest : List HttpRequest) (request : Dispatched) (n : Nat) (http : Http)
      (hsent : sent = front ++ rest) (hphase : s.phase = .reading request n http)
      (hlost : Lost conf.http http)
      (hdispatched : s.dispatched = front.map HttpRequest.asDispatched)
  /-- Behind `fork()`. -/
  | handling (front later : List HttpRequest) (r : HttpRequest) (http : Http)
      (hsent : sent = front ++ r :: later) (hphase : s.phase = .handling http)
      (hserved : Served http)
      (hlingers : http.reader = .lingering → http.kept conf.http = false)
      (hbehind : Behind conf.http front r later http s)
      (hdispatched : s.dispatched = (front ++ [r]).map HttpRequest.asDispatched)
  | ended (hphase : s.phase = .ended)
      (hdispatched : s.dispatched = sent.map HttpRequest.asDispatched)
  | closed (front rest : List HttpRequest) (hsent : sent = front ++ rest)
      (hphase : s.phase = .closed) (hdispatched : s.dispatched = front.map HttpRequest.asDispatched)

/-- A list of well-formed requests without bytes is none. -/
theorem encode_eq_nil {parse : Bytes → HeaderParse} {rest : List HttpRequest}
    (hwell : ∀ r ∈ rest, WellFormed parse r) (h : encode rest = []) : rest = [] := by
  cases rest with
  | nil => rfl
  | cons r rest =>
      rw [encode_cons] at h
      exact absurd (List.append_eq_nil_iff.mp h).1 (hwell r List.mem_cons_self).nonempty

/-- The requests dispatched are the first ones sent. -/
theorem dispatched_first {sent front rest : List HttpRequest} {dispatched : List Dispatched}
    (hsent : sent = front ++ rest) (h : dispatched = front.map HttpRequest.asDispatched) :
    dispatched <+: sent.map HttpRequest.asDispatched := by
  rw [h, hsent, List.map_append]
  exact List.prefix_append _ _

/-- **The invariant is what is asked of the connection.** -/
theorem Reading.exactly {conf : PipelineConf} {parse : Bytes → HeaderParse}
    {sent : List HttpRequest} (hwell : ∀ r ∈ sent, WellFormed parse r) {s : Pipeline}
    (h : Reading conf sent s) : DispatchedExactly parse sent s := by
  -- in hand a request is neither waited for nor left behind
  have hbusy : ∀ front rest, sent = front ++ rest →
      s.dispatched = front.map HttpRequest.asDispatched → s.phase ≠ .header →
      s.phase ≠ .waiting → s.phase ≠ .ended → DispatchedExactly parse sent s := by
    intro front rest hsent hdispatched hheader hwaiting hended
    refine ⟨dispatched_first hsent hdispatched, fun hat => absurd hat hheader, fun _ hat => ?_,
      fun hat => absurd hat hended⟩
    rcases hat with hat | ⟨hat, _⟩
    · exact absurd hat hwaiting
    · exact absurd hat hheader
  cases h with
  | between front rest hsent hphase hstream hconsumed hdispatched =>
      refine ⟨dispatched_first hsent hdispatched, fun _ _ => ?_, fun hnil hwaits => ?_,
        fun hat => ?_⟩
      · rw [hdispatched, hsent, List.length_map, List.take_left]
        exact hconsumed
      · have hrest : rest = [] := by
          rw [Pipeline.stream, hnil, List.append_nil] at hstream
          rcases hphase with ⟨_, hunread⟩ | ⟨hat, hunread⟩
          · refine @encode_eq_nil parse _ (fun r hr => hwell r ?_) (hstream ▸ hunread)
            rw [hsent]
            exact List.mem_append_right _ hr
          · -- a header that needs more has bytes to come
            cases rest with
            | nil => rfl
            | cons r rest =>
                have hr : WellFormed parse r := hwell r (by rw [hsent]; simp)
                have hall : s.unread ++ [] = r.header ++ (r.body ++ encode rest) := by
                  rw [List.append_nil, hstream, encode_cons]
                rcases hr.parsed hall with ⟨_, hmore⟩ | ⟨_, _, hdone⟩
                · exact absurd rfl hmore
                · rcases hwaits with hat' | ⟨_, hagain⟩
                  · rw [hat] at hat'
                    cases hat'
                  · rw [hdone] at hagain
                    cases hagain
        rw [hdispatched, hsent, hrest, List.append_nil]
      · rcases hphase with ⟨hat', _⟩ | ⟨hat', _⟩ <;> rw [hat] at hat' <;> cases hat'
  | awaiting front later r read rest http hsent hphase _ _ _ _ _ _ _ _ hdispatched =>
      refine hbusy front _ hsent hdispatched ?_ ?_ ?_ <;> rw [hphase] <;> exact nofun
  | lost front rest request n http hsent hphase _ hdispatched =>
      refine hbusy front _ hsent hdispatched ?_ ?_ ?_ <;> rw [hphase] <;> exact nofun
  | handling front later r http hsent hphase _ _ _ hdispatched =>
      refine hbusy (front ++ [r]) later (by rw [hsent]; simp) hdispatched ?_ ?_ ?_ <;>
        rw [hphase] <;> exact nofun
  | ended hphase hdispatched =>
      refine ⟨by rw [hdispatched], fun hat => ?_, fun _ _ => hdispatched, fun _ => hdispatched⟩
      rw [hphase] at hat
      cases hat
  | closed front rest hsent hphase hdispatched =>
      refine hbusy front rest hsent hdispatched ?_ ?_ ?_ <;> rw [hphase] <;> exact nofun

/-- Bytes of a header arrive. -/
theorem Reading.received {conf : PipelineConf} {parse : Bytes → HeaderParse}
    {sent : List HttpRequest} {s t : Pipeline} {n : Nat} (h : Reading conf sent s) (hn : 0 < n)
    (hle : n ≤ s.incoming.length) (hstep : Toxic.received parse n s = some t) :
    Reading conf sent t := by
  have htake : s.incoming.take n ≠ [] := by
    intro hnil
    have := congrArg List.length hnil
    rw [List.length_take, List.length_nil] at this
    omega
  unfold Toxic.received at hstep
  cases h with
  | between front rest hsent hphase hstream hconsumed hdispatched =>
      rcases hphase with ⟨hat, hunread⟩ | ⟨hat, hunread⟩
      · simp only [hat, Option.some.injEq] at hstep
        subst hstep
        refine .between front rest hsent (Or.inr ⟨rfl, htake⟩) ?_ hconsumed hdispatched
        rw [← hstream, Pipeline.stream, Pipeline.stream, hunread, List.nil_append]
        exact List.take_append_drop n s.incoming
      · simp only [hat, Option.ite_none_right_eq_some, Option.some.injEq] at hstep
        obtain ⟨_, rfl⟩ := hstep
        refine .between front rest hsent (Or.inr ⟨rfl, by simp [hunread]⟩) ?_ hconsumed hdispatched
        rw [← hstream, Pipeline.stream, Pipeline.stream, List.append_assoc,
          List.take_append_drop]
  | awaiting _ _ _ _ _ _ _ hphase => simp [hphase] at hstep
  | lost _ _ _ _ _ _ hphase => simp [hphase] at hstep
  | handling _ _ _ _ _ hphase => simp [hphase] at hstep
  | ended hphase => simp [hphase] at hstep
  | closed _ _ _ hphase => simp [hphase] at hstep

/-- The length of the requests up to one more. -/
theorem encode_snoc_length (front : List HttpRequest) (r : HttpRequest) :
    (encode (front ++ [r])).length = (encode front).length + r.header.length + r.body.length := by
  simp only [encode_append, encode_cons, encode_nil, List.append_nil, List.length_append]
  omega

/-- A whole header in `header_in` is processed. -/
theorem Reading.processed {conf : PipelineConf} {parse : Bytes → HeaderParse}
    {sent : List HttpRequest} (hwell : ∀ r ∈ sent, WellFormed parse r) {s t : Pipeline}
    {q : Incoming} {readReady readEof : Bool} {baseLen : Int} (h : Reading conf sent s)
    (hat : s.phase = .header) (hbody : s.leavesNoBody conf parse q = true)
    (hstep : processHeader conf parse q readReady readEof baseLen s = some t) :
    Reading conf sent t := by
  cases h with
  | between front rest hsent hphase hstream hconsumed hdispatched =>
      have hunread : s.unread ≠ [] := by
        rcases hphase with ⟨hat', _⟩ | ⟨_, hunread⟩
        · rw [hat] at hat'
          cases hat'
        · exact hunread
      unfold processHeader at hstep
      cases rest with
      | nil =>
          rw [encode_nil, Pipeline.stream] at hstream
          exact absurd (List.append_eq_nil_iff.mp hstream).1 hunread
      | cons r later =>
          have hr : WellFormed parse r := hwell r (by rw [hsent]; simp)
          rw [encode_cons] at hstream
          rcases hr.parsed hstream with ⟨hagain, _⟩ | ⟨tail, hheader, hdone⟩
          · simp [hagain] at hstep
          · simp only [hdone] at hstep
            split at hstep
            · obtain rfl := Option.some.inj hstep
              exact .closed front _ hsent rfl hdispatched
            next hrefused =>
              split at hstep
              next hmethod =>
                obtain rfl := Option.some.inj hstep
                have htail : tail ++ s.incoming = r.body ++ encode later := by
                  rw [Pipeline.stream, hheader, List.append_assoc] at hstream
                  exact List.append_cancel_left hstream
                have hhead : s.unread.take r.header.length = r.header := by
                  rw [hheader, List.take_left]
                let http := Http.start { q with keepalive := s.keepalive conf q }
                  (decide (0 < r.body.length)) (!(s.unread.drop r.header.length).isEmpty)
                  readReady readEof baseLen
                have hpost : http.isPost = r.method.readsBody := by
                  rw [← hmethod]
                  rfl
                refine .awaiting front later r [] r.body.length http hsent ?_
                  (Awaiting.start _ _ _ _ _ _) (fun _ => hpost) (Or.inl rfl) (Or.inr rfl) (by simp)
                  ?_ ?_ ?_ hdispatched
                · rw [hhead]
                · rw [List.nil_append]
                  change (s.take r.header.length).stream = _
                  rw [Pipeline.take_stream, Pipeline.stream, hheader, List.append_assoc,
                    List.drop_left, htail]
                · change s.consumed + r.header.length = _
                  rw [hconsumed]
                  rfl
                · -- a body that stays is on a connection that is closed
                  unfold Pipeline.leavesNoBody at hbody
                  simp only [hdone, hrefused, Bool.false_or, Bool.or_eq_true,
                    Bool.not_eq_true', beq_iff_eq, or_assoc] at hbody
                  unfold HttpRequest.left
                  rcases hbody with hpost | hempty | hoff
                  · exact Or.inl (if_pos hpost)
                  · left
                    split
                    · rfl
                    · exact List.length_eq_zero_iff.mp hempty
                  · exact Or.inr ⟨hoff, nofun⟩
              next => cases hstep
  | awaiting _ _ _ _ _ _ _ hphase => rw [hat] at hphase; cases hphase
  | lost _ _ _ _ _ _ hphase => rw [hat] at hphase; cases hphase
  | handling _ _ _ _ _ hphase => rw [hat] at hphase; cases hphase
  | ended hphase => rw [hat] at hphase; cases hphase
  | closed _ _ _ hphase => rw [hat] at hphase; cases hphase

theorem Pipeline.takes_cases {n rest : Nat} {http t : Http} {event : HttpEvent} {s : Pipeline}
    (h : s.takes n rest http event t = true) :
    n ≤ s.stream.length ∧
      ((∃ body, http.bodyRead event = some body ∧ body.fits n rest s = true) ∨
        (http.bodyRead event = none ∧ (n = 0 ∨ http.drops event t = true))) := by
  simp only [Pipeline.takes, Bool.and_eq_true, decide_eq_true_eq] at h
  refine ⟨h.1, ?_⟩
  cases hread : http.bodyRead event with
  | some body =>
      left
      rw [hread] at h
      exact ⟨body, rfl, h.2⟩
  | none =>
      right
      rw [hread] at h
      simpa using h.2

/-- The body reader takes no more than the rest of the body. -/
theorem BodyRead.fits_le {body : BodyRead} {n rest : Nat} {s : Pipeline}
    (h : body.fits n rest s = true) : n ≤ rest := by
  cases body with
  | whole | more | closed | timedOut | refused =>
      simp only [BodyRead.fits, Bool.and_eq_true, beq_iff_eq, decide_eq_true_eq] at h
      omega

/-- A step of the process before `fork()`. -/
theorem Reading.read {conf : PipelineConf} {sent : List HttpRequest} {s t : Pipeline} {n : Nat}
    {event : HttpEvent} {request : Dispatched} {rest : Nat} {http : Http}
    (h : Reading conf sent s) (hat : s.phase = .reading request rest http)
    (hstep : readStep conf n event request rest http s = some t) : Reading conf sent t := by
  obtain ⟨m, hown, htakes⟩ := Option.bind_eq_some_iff.mp hstep
  rw [Option.ite_none_right_eq_some] at htakes
  obtain ⟨htakes, hafter⟩ := htakes
  obtain ⟨hlen, hbytes⟩ := Pipeline.takes_cases htakes
  cases h with
  | between _ _ _ hphase =>
      rcases hphase with ⟨hphase, _⟩ | ⟨hphase, _⟩ <;> rw [hat] at hphase <;> cases hphase
  | handling _ _ _ _ _ hphase => rw [hat] at hphase; cases hphase
  | ended hphase => rw [hat] at hphase; cases hphase
  | closed _ _ _ hphase => rw [hat] at hphase; cases hphase
  | lost front later request' n' http' hsent hphase hlost hdispatched =>
      obtain ⟨rfl, rfl, rfl⟩ := ReadPhase.reading.inj (hat.symm.trans hphase)
      have hlost' := hlost.step hown
      rw [if_neg hlost'.unforked] at hafter
      obtain rfl := Option.some.inj hafter
      exact .lost front later _ _ m hsent rfl hlost' hdispatched
  | awaiting front later r read rest' http' hsent hphase hawaits hpost hbody hread hrest hstream
      hconsumed hkept hdispatched =>
      obtain ⟨rfl, rfl, rfl⟩ := ReadPhase.reading.inj (hat.symm.trans hphase)
      have hkept' : r.left = [] ∨ Closing conf.http m := hkept.imp_right fun h => h.step hown
      -- a request whose body is read is a POST or PUT
      have hposts : (http.pc = .handler → http.isPost = true) → r.method.readsBody = true := by
        intro hp
        rcases hbody with hat | hpost'
        · rw [← hpost hat]
          exact hp hat
        · exact hpost'
      cases hawaits.step hown with
      | lost hlost =>
          rw [if_neg hlost.unforked] at hafter
          obtain rfl := Option.some.inj hafter
          exact .lost front (r :: later) _ _ m hsent rfl hlost hdispatched
      | waits hp hkeeps hreads hpending =>
          have hlate := hpending.late
          have hunforked : m.pc ≠ .forking := by
            intro hpc
            rw [hpc] at hlate
            cases hlate
          have hcalled : m.pc ≠ .handler := by
            intro hpc
            rw [hpc] at hlate
            cases hlate
          rw [if_neg hunforked] at hafter
          obtain rfl := Option.some.inj hafter
          rcases hbytes with ⟨body, hsome, hfits⟩ | ⟨hnone, hzero | hdrops⟩
          · have hle := BodyRead.fits_le hfits
            refine .awaiting front later r (read ++ s.stream.take n) (rest - n) m hsent ?_
              (Or.inr ⟨hreads, hpending⟩) (fun hpc => absurd hpc hcalled) (Or.inr (hposts hp))
              (Or.inl (hposts hp)) ?_ ?_ ?_ hkept' hdispatched
            · simp [hsome]
            · rw [List.length_append, List.length_take, Nat.min_eq_left hlen]
              omega
            · change read ++ s.stream.take n ++ (s.take n).stream = _
              rw [Pipeline.take_stream, List.append_assoc, List.take_append_drop, hstream]
            · change s.consumed + n = _
              rw [List.length_append, List.length_take, Nat.min_eq_left hlen]
              omega
          · subst hzero
            refine .awaiting front later r read rest m hsent ?_ (Or.inr ⟨hreads, hpending⟩)
              (fun hpc => absurd hpc hcalled) (Or.inr (hposts hp)) (Or.inl (hposts hp)) hrest ?_
              hconsumed hkept' hdispatched
            · simp [hnone]
            · change read ++ (s.take 0).stream = _
              rw [Pipeline.take_stream, List.drop_zero, hstream]
          · rw [hkeeps] at hdrops
            cases hdrops
      | unread hpc hget hnone hkeeps hopen hforks hserved =>
          have hzero : n = 0 := by
            rcases hbytes with ⟨body, hsome, _⟩ | ⟨_, hzero | hdrops⟩
            · rw [hnone] at hsome
              cases hsome
            · exact hzero
            · rw [hkeeps] at hdrops
              cases hdrops
          have hmethod : r.method.readsBody = false := (hpost hpc).symm.trans hget
          obtain rfl : read = [] := hread.resolve_left (by rw [hmethod]; exact Bool.false_ne_true)
          subst hzero
          rw [if_pos hforks] at hafter
          obtain rfl := Option.some.inj hafter
          refine .handling front later r m hsent rfl hserved (fun hl => absurd hl hopen)
            (Or.inl ⟨?_, ?_, hkept'⟩) ?_
          · change (s.take 0).stream = _
            rw [Pipeline.take_stream, List.drop_zero, HttpRequest.left, hmethod,
              if_neg Bool.false_ne_true]
            exact hstream
          · change s.consumed + 0 + r.left.length = _
            rw [encode_snoc_length, hconsumed, HttpRequest.left, hmethod,
              if_neg Bool.false_ne_true, List.length_nil]
            omega
          · simp [hnone, hdispatched, HttpRequest.asDispatched, hmethod]
      | whole hp hwhole hopen hforks hserved =>
          obtain ⟨unread, hsome⟩ := hwhole
          have hn : n = rest := by
            rcases hbytes with ⟨body, hsome', hfits⟩ | ⟨hnone, _⟩
            · rw [hsome] at hsome'
              obtain rfl := Option.some.inj hsome'
              simp only [BodyRead.fits, Bool.and_eq_true, beq_iff_eq] at hfits
              exact hfits.1
            · rw [hsome] at hnone
              cases hnone
          have hmethod := hposts hp
          have hleft : r.left = [] := if_pos hmethod
          -- what was read before and now is the body
          have hwhole : read ++ s.stream.take n = r.body ∧ s.stream.drop n = encode later := by
            have hall : (read ++ s.stream.take n) ++ s.stream.drop n = r.body ++ encode later := by
              rw [List.append_assoc, List.take_append_drop, hstream]
            refine List.append_inj hall ?_
            rw [List.length_append, List.length_take, Nat.min_eq_left hlen]
            omega
          rw [if_pos hforks] at hafter
          obtain rfl := Option.some.inj hafter
          refine .handling front later r m hsent rfl hserved (fun hl => absurd hl hopen)
            (Or.inl ⟨?_, ?_, Or.inl hleft⟩) ?_
          · change (s.take n).stream = _
            rw [Pipeline.take_stream, hwhole.2, hleft, List.nil_append]
          · change s.consumed + n + r.left.length = _
            rw [encode_snoc_length, hconsumed, hleft, List.length_nil]
            omega
          · simp [hsome, hdispatched, HttpRequest.asDispatched, hmethod, hwhole.1]

/-- A step of the process that runs the script. -/
theorem Reading.handle {conf : PipelineConf} {sent : List HttpRequest} {s t : Pipeline} {n : Nat}
    {event : HttpEvent} {http : Http} (h : Reading conf sent s) (hat : s.phase = .handling http)
    (hstep : handleStep conf n event http s = some t) : Reading conf sent t := by
  unfold handleStep at hstep
  split at hstep
  next => cases hstep
  next =>
    obtain ⟨m, hown, htakes⟩ := Option.bind_eq_some_iff.mp hstep
    rw [Option.ite_none_right_eq_some, Option.some.injEq] at htakes
    obtain ⟨htakes, rfl⟩ := htakes
    obtain ⟨_, hbytes⟩ := Pipeline.takes_cases htakes
    cases h with
    | between _ _ _ hphase =>
        rcases hphase with ⟨hphase, _⟩ | ⟨hphase, _⟩ <;> rw [hat] at hphase <;> cases hphase
    | awaiting _ _ _ _ _ _ _ hphase => rw [hat] at hphase; cases hphase
    | lost _ _ _ _ _ _ hphase => rw [hat] at hphase; cases hphase
    | ended hphase => rw [hat] at hphase; cases hphase
    | closed _ _ _ hphase => rw [hat] at hphase; cases hphase
    | handling front later r http' hsent hphase hserved hlingers hbehind hdispatched =>
        obtain rfl := ReadPhase.handling.inj (hat.symm.trans hphase)
        obtain ⟨hnone, hdrops⟩ := hserved.drops hown
        have hmoves := httpStep_movesReader hserved.bodyless.2 hown
        have hlingers' : m.reader = .lingering → m.kept conf.http = false := by
          intro hl
          rcases hmoves.lingers hl with hs | hoff
          · exact Bool.eq_false_iff.mpr fun hk => by
              rw [hmoves.keepalive hk] at hlingers
              cases hlingers hs
          · exact hoff
        refine .handling front later r m hsent rfl (hserved.step hown) hlingers' ?_ hdispatched
        rcases hbehind with ⟨hstream, hconsumed, hkept⟩ | ⟨hclosing, hreader⟩
        · have hn : n = 0 ∨ m.reader = .lingering := by
            rcases hbytes with ⟨body, hsome, _⟩ | ⟨_, hzero | hd⟩
            · rw [hnone] at hsome
              cases hsome
            · exact Or.inl hzero
            · exact Or.inr (hdrops hd)
          rcases hn with hzero | hl
          · subst hzero
            refine Or.inl ⟨?_, hconsumed, hkept.imp_right fun h => h.step hown⟩
            change (s.take 0).stream = _
            rw [Pipeline.take_stream, List.drop_zero, hstream]
          · refine Or.inr ⟨⟨hlingers' hl, ?_⟩, Or.inl hl⟩
            rw [hl]
            exact nofun
        · have hclosing' := hclosing.step hown
          refine Or.inr ⟨hclosing', ?_⟩
          cases hr : m.reader with
          | lingering => exact Or.inl rfl
          | closed => exact Or.inr rfl
          | keepalive => exact absurd hr hclosing'.reader
          | request =>
              have hs := hmoves.request hr
              rcases hreader with h | h <;> rw [hs] at h <;> cases h

/-- The end of the process: the connection is closed, or nothing is left of it. -/
theorem Reading.ends {conf : PipelineConf} {parse : Bytes → HeaderParse} {sent : List HttpRequest}
    (hwell : ∀ r ∈ sent, WellFormed parse r) {s : Pipeline} (h : Reading conf sent s)
    (hended : s.phase ≠ .ended) (hclosed : s.phase ≠ .closed)
    (hdrained : s.endsAs = .ended → s.drained) :
    Reading conf sent { s with phase := s.endsAs } := by
  -- with a request in hand the process ends on a connection that is open or closed
  have hinHand : ∀ http : Http,
      s.endsAs = (if http.reader = .keepalive ∨ http.reader = .request then .ended else .closed) →
      (s.endsAs = .ended ∧ (http.reader = .keepalive ∨ http.reader = .request)) ∨
        s.endsAs = .closed := by
    intro http hends
    split at hends
    next hopen => exact Or.inl ⟨hends, hopen⟩
    next => exact Or.inr hends
  -- before `fork()` it does not end on an open one
  have hunforked : ∀ request rest http front later, s.phase = .reading request rest http →
      sent = front ++ later → s.dispatched = front.map HttpRequest.asDispatched →
      Reading conf sent { s with phase := s.endsAs } := by
    intro request rest http front later hphase hsent hdispatched
    rcases hinHand http (by rw [Pipeline.endsAs, hphase]) with ⟨hends, _⟩ | hends
    · have hnone := (hdrained hends).2
      rw [Pipeline.unforked, hphase] at hnone
      cases hnone
    · exact .closed front later hsent hends hdispatched
  cases h with
  | between front rest hsent hphase hstream hconsumed hdispatched =>
      have hends : s.endsAs = .ended := by
        rcases hphase with ⟨hat, _⟩ | ⟨hat, _⟩ <;> rw [Pipeline.endsAs, hat]
      have hrest : rest = [] := by
        refine @encode_eq_nil parse _ (fun r hr => hwell r ?_)
          (hstream.symm.trans (hdrained hends).1)
        rw [hsent]
        exact List.mem_append_right _ hr
      refine .ended hends ?_
      rw [hsent, hrest, List.append_nil]
      exact hdispatched
  | awaiting front later r read rest http hsent hphase _ _ _ _ _ _ _ _ hdispatched =>
      exact hunforked _ _ _ _ _ hphase hsent hdispatched
  | lost front later request rest http hsent hphase _ hdispatched =>
      exact hunforked _ _ _ _ _ hphase hsent hdispatched
  | handling front later r http hsent hphase _ _ hbehind hdispatched =>
      have hsent' : sent = (front ++ [r]) ++ later := by rw [hsent]; simp
      rcases hinHand http (by rw [Pipeline.endsAs, hphase]) with ⟨hends, hopen⟩ | hends
      · rcases hbehind with ⟨hstream, _, _⟩ | ⟨_, hover⟩
        · have hnil := hstream.symm.trans (hdrained hends).1
          have hlater : later = [] := by
            refine @encode_eq_nil parse _ (fun q hq => hwell q ?_)
              (List.append_eq_nil_iff.mp hnil).2
            rw [hsent']
            exact List.mem_append_right _ hq
          refine .ended hends ?_
          rw [hsent', hlater, List.append_nil]
          exact hdispatched
        · rcases hover with hr | hr <;> rw [hr] at hopen <;> simp at hopen
      · exact .closed (front ++ [r]) later hsent' hends hdispatched
  | ended hphase => exact absurd hphase hended
  | closed _ _ _ hphase => exact absurd hphase hclosed

/-- The connection is closed. -/
theorem Reading.closes {conf : PipelineConf} {sent : List HttpRequest} {s : Pipeline}
    (h : Reading conf sent s) (hended : s.phase ≠ .ended) :
    Reading conf sent { s with phase := .closed } := by
  cases h with
  | between front rest hsent _ _ _ hdispatched => exact .closed front rest hsent rfl hdispatched
  | awaiting front later r _ _ _ hsent _ _ _ _ _ _ _ _ _ hdispatched =>
      exact .closed front (r :: later) hsent rfl hdispatched
  | lost front rest _ _ _ hsent _ _ hdispatched => exact .closed front rest hsent rfl hdispatched
  | handling front later r _ hsent _ _ _ _ hdispatched =>
      exact .closed (front ++ [r]) later (by rw [hsent]; simp) rfl hdispatched
  | ended hphase => exact absurd hphase hended
  | closed front rest hsent _ hdispatched => exact .closed front rest hsent rfl hdispatched

/-- The next request of a connection that is kept alive. -/
theorem Reading.next {conf : PipelineConf} {sent front later : List HttpRequest}
    {r : HttpRequest} {http : Http} {s : Pipeline} (hsent : sent = front ++ r :: later)
    (hbehind : Behind conf.http front r later http s) (hreader : http.reader = .keepalive)
    (hdispatched : s.dispatched = (front ++ [r]).map HttpRequest.asDispatched) :
    Reading conf sent (s.next http) := by
  rcases hbehind with ⟨hstream, hconsumed, hkept⟩ | ⟨hclosing, _⟩
  · have hleft : r.left = [] := hkept.resolve_right fun hclosing => hclosing.reader hreader
    rw [hleft, List.nil_append] at hstream
    rw [hleft, List.length_nil, Nat.add_zero] at hconsumed
    have hsent' : sent = (front ++ [r]) ++ later := by rw [hsent]; simp
    unfold Pipeline.next
    dsimp only
    split
    next hunread =>
      exact .between (front ++ [r]) later hsent' (Or.inl ⟨rfl, List.isEmpty_iff.mp hunread⟩)
        hstream hconsumed hdispatched
    next hunread =>
      refine .between (front ++ [r]) later hsent' (Or.inr ⟨rfl, fun hnil => hunread ?_⟩)
        hstream hconsumed hdispatched
      rw [hnil]
      rfl
  · exact absurd hreader hclosing.reader

/-- The request is left behind. -/
theorem Reading.leaves {conf : PipelineConf} {parse : Bytes → HeaderParse}
    {sent : List HttpRequest} (hwell : ∀ r ∈ sent, WellFormed parse r) {s t : Pipeline}
    {kept : Bool} {http : Http} (h : Reading conf sent s)
    (hat : (∃ request rest, s.phase = .reading request rest http) ∨ s.phase = .handling http)
    (hdrained : http.exited = true → s.endsAs = .ended → s.drained)
    (hstep : leftBehind kept http s = some t) : Reading conf sent t := by
  have hopen : s.phase ≠ .ended ∧ s.phase ≠ .closed := by
    rcases hat with ⟨_, _, hat⟩ | hat <;> rw [hat] <;> exact ⟨nofun, nofun⟩
  unfold leftBehind at hstep
  split at hstep
  next hexited =>
    obtain rfl := Option.some.inj hstep
    exact h.ends hwell hopen.1 hopen.2 (hdrained hexited)
  split at hstep
  · split at hstep
    next hkeeps =>
      obtain rfl := Option.some.inj hstep
      obtain ⟨hreader, _⟩ := hkeeps
      cases h with
      | between _ _ _ hphase =>
          rcases hat with ⟨_, _, hat⟩ | hat <;> rcases hphase with ⟨hphase, _⟩ | ⟨hphase, _⟩ <;>
            rw [hat] at hphase <;> cases hphase
      | awaiting front later r read rest http' hsent hphase hawaits =>
          rcases hat with ⟨_, _, hat⟩ | hat
          · obtain ⟨-, -, rfl⟩ := ReadPhase.reading.inj (hat.symm.trans hphase)
            rcases hawaits.reader with hr | hr <;> rw [hreader] at hr <;> cases hr
          · rw [hat] at hphase
            cases hphase
      | lost front later request rest http' hsent hphase hlost =>
          rcases hat with ⟨_, _, hat⟩ | hat
          · obtain ⟨-, -, rfl⟩ := ReadPhase.reading.inj (hat.symm.trans hphase)
            exact absurd hreader hlost.reader
          · rw [hat] at hphase
            cases hphase
      | handling front later r http' hsent hphase _ _ hbehind hdispatched =>
          rcases hat with ⟨_, _, hat⟩ | hat
          · rw [hat] at hphase
            cases hphase
          · obtain rfl := ReadPhase.handling.inj (hat.symm.trans hphase)
            exact .next hsent hbehind hreader hdispatched
      | ended hphase => exact absurd hphase hopen.1
      | closed _ _ _ hphase => exact absurd hphase hopen.2
    next =>
      obtain rfl := Option.some.inj hstep
      exact h.closes hopen.1
  · cases hstep

/-- **Every step** of a connection keeps the invariant. -/
theorem Reading.step {conf : PipelineConf} {parse : Bytes → HeaderParse} {sent : List HttpRequest}
    (hwell : ∀ r ∈ sent, WellFormed parse r) (s : Pipeline) (event : PipelineEvent) (t : Pipeline)
    (h : Reading conf sent s) (hok : Separated conf parse s event)
    (hstep : pipelineStep conf parse s event = some t) : Reading conf sent t := by
  cases event with
  | recv n =>
      rw [pipelineStep, Option.ite_none_right_eq_some] at hstep
      obtain ⟨⟨hn, hle⟩, hstep⟩ := hstep
      exact h.received hn hle hstep
  | process q readReady readEof baseLen =>
      rw [pipelineStep, Option.ite_none_right_eq_some] at hstep
      obtain ⟨hphase, hstep⟩ := hstep
      exact h.processed hwell hphase hok hstep
  | own n event =>
      unfold pipelineStep at hstep
      dsimp only at hstep
      split at hstep
      next hphase => exact h.read hphase hstep
      next hphase => exact h.handle hphase hstep
      next => cases hstep
  | leave kept =>
      unfold pipelineStep at hstep
      dsimp only at hstep
      have hinHand : ∀ http, ((∃ request rest, s.phase = .reading request rest http) ∨
          s.phase = .handling http) → s.inHand Http.exited = http.exited := by
        intro http hat
        rcases hat with ⟨_, _, hat⟩ | hat <;> rw [Pipeline.inHand, hat]
      split at hstep
      next request rest http hphase =>
        have hat : (∃ request rest, s.phase = .reading request rest http) ∨
            s.phase = .handling http :=
          Or.inl ⟨request, rest, hphase⟩
        exact h.leaves hwell hat (fun hexited => hok ((hinHand http hat).trans hexited)) hstep
      next http hphase =>
        have hat : (∃ request rest, s.phase = .reading request rest http) ∨
            s.phase = .handling http :=
          Or.inr hphase
        exact h.leaves hwell hat (fun hexited => hok ((hinHand http hat).trans hexited)) hstep
      next => cases hstep
  | exit =>
      rw [pipelineStep, Option.ite_none_right_eq_some, Option.some.injEq] at hstep
      obtain ⟨⟨_, hended, hclosed⟩, rfl⟩ := hstep
      exact h.ends hwell hended hclosed hok
  | close =>
      rw [pipelineStep, Option.ite_none_right_eq_some, Option.some.injEq] at hstep
      obtain ⟨hphase, rfl⟩ := hstep
      refine h.closes fun hended => ?_
      rcases hphase with hat | hat <;> rw [hended] at hat <;> cases hat

/-- Where a header ends: behind the first blank line. -/
def headerEnd : Bytes → Option Nat
  | [] => none
  | b :: rest =>
      if (crlf ++ crlf).isPrefixOf (b :: rest) then some 4 else (headerEnd rest).map (· + 1)

/-- The number a header line gives for `Content-Length`. -/
def contentLengthOf : Bytes → Nat
  | [] => 0
  | b :: rest =>
      if (bytesOf "Content-Length: ").isPrefixOf (b :: rest) then
        (((b :: rest).drop 16).takeWhile fun b => decide (48 ≤ b) && decide (b ≤ 57)).foldl
          (fun n b => 10 * n + (b.toNat - 48)) 0
      else contentLengthOf rest

/-- The header parser on plain GET and POST requests. -/
def sampleParse (bytes : Bytes) : HeaderParse :=
  match headerEnd bytes with
  | none => .again
  | some n =>
      .done n (if (bytesOf "GET ").isPrefixOf bytes then .get
        else if (bytesOf "POST ").isPrefixOf bytes then .post else .unknown)
        (contentLengthOf (bytes.take n))

/-- A GET request without a body. -/
def sampleGet : HttpRequest :=
  ⟨.get, bytesOf "GET / HTTP/1.1\r\nHost: a\r\n\r\n", []⟩

/-- A POST request with one byte of body. -/
def samplePost : HttpRequest :=
  ⟨.post, bytesOf "POST / HTTP/1.1\r\nHost: a\r\nContent-Length: 1\r\n\r\n", [97]⟩

/-- A GET request with a body that reads as a request. -/
def sampleSmuggler : HttpRequest :=
  ⟨.get, bytesOf "GET / HTTP/1.1\r\nHost: a\r\nContent-Length: 27\r\n\r\n",
    sampleGet.header⟩

/-- Every proper part of a header is a first part of some length. -/
theorem again_of_take {parse : Bytes → HeaderParse} {header : Bytes}
    (h : ∀ n < header.length, parse (header.take n) = .again) (part : Bytes)
    (hpart : part <+: header) (hne : part ≠ header) : parse part = .again := by
  have htake : part = header.take part.length := List.prefix_iff_eq_take.mp hpart
  have hlen : part.length < header.length := by
    have hle := hpart.length_le
    have hneq : part.length ≠ header.length := fun heq => hne (hpart.eq_of_length heq)
    omega
  rw [htake]
  exact h _ hlen

theorem sampleGet_wellFormed : WellFormed sampleParse sampleGet where
  nonempty := by decide +kernel
  again := again_of_take (by decide +kernel)
  done := fun _ => rfl

theorem samplePost_wellFormed : WellFormed sampleParse samplePost where
  nonempty := by decide +kernel
  again := again_of_take (by decide +kernel)
  done := fun _ => rfl

theorem sampleSmuggler_wellFormed : WellFormed sampleParse sampleSmuggler where
  nonempty := by decide +kernel
  again := again_of_take (by decide +kernel)
  done := fun _ => rfl

/-- nginx's defaults. -/
def samplePipelineConf : PipelineConf := ⟨sampleHttpConf, 100, 1048576⟩

/-- A child answers a GET request whose response waits for the socket, and is left with
the connection. -/
def sampleAnswered : List PipelineEvent :=
  sampleChildRun.map (.own 0 ·) ++
    [.own 0 (.runPosted ⟨none, ⟨0, false⟩⟩ sampleFinalize), .leave true]

/-- A GET request is processed. -/
def sampleProcess : PipelineEvent := .process ⟨.get, 1001, 0, true, false, true⟩ false false 0

end Toxic
