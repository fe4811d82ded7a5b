import Mathlib.Data.Set.Insert
import ToxicNginx.HeaderStores
import ToxicNginx.ResponseFraming

/-!
# What one request leaves behind for the next

A child that stays in the event loop calls `toxic_excecute` again, and a child
of it starts from its globals.  `toxic_excecute` resets `out_chain`,
`callbacks[0]` and three flags of `SG`; `base_len`, the settings,
`SG(sapi_headers)`, `SG(callback_func)`, `SG(post_read)`, the last error, the stack
of output handlers and `$_POST` stay as they are, and neither
`php_request_shutdown` nor `sapi_activate` is called in between.

* `Leftover`, `ToxicRequest`, `Leftover.excecute` — what stays, a request, and
  `toxic_excecute` on the two;
* `after`, `respond` — a history of requests, and the reply to the next one;
* `Neutral` — a leftover in which nothing is left that a request can see;
* `SeesSame.step` — two runs of one script from states in which the script sees the
  same;
* `respond_neutral` — a neutral leftover changes no reply;
* `neutral_of_respond` — and where the settings and the header callback are as at the
  start, no other one does;
* `unaffected_of_neutral` — the condition on a set of histories.
-/

namespace Toxic

/-- `$_POST`. -/
abbrev PostVars := List (Bytes × Bytes)

/-- What a process keeps of the requests it has served: `base_len`, the settings,
`SG(sapi_headers)`, `SG(callback_func)`, `SG(post_read)`, the last error,
`OG(handlers)` from the top, `$_POST`. -/
structure Leftover where
  baseLen : Int
  conf : ScriptConf
  headers : SapiHeaders
  callback : Option (List ScriptCall)
  postRead : Bool
  lastError : Option LastError
  handlers : List (OutputHandler Written)
  post : PostVars

/-- The process after `php_embed_init`. -/
def Leftover.fresh (conf : ScriptConf) : Leftover := ⟨0, conf, .fresh, none, false, none, [], []⟩

/-- A toxic request: the key of its callbacks, what nginx knows of it, what
`toxic_parse_post` makes of its body, `none` where that is not called, what its
script does with the `$_POST` it finds, and the memory that each call of
`header_function` gets. -/
structure ToxicRequest where
  key : Bytes
  incoming : Incoming
  post : Option PostVars
  script : PostVars → List ScriptCall
  memory : Nat → Memory

/-- `toxic_excecute` up to the call of `Start`, which takes the key over. -/
def Leftover.begin (g : Leftover) (key : Bytes) : ScriptState where
  conf := g.conf
  output := ⟨g.handlers, key, key, [], [], []⟩
  headers := g.headers
  headersSent := false
  noHeaders := false
  callbackRun := false
  callback := g.callback
  postRead := g.postRead
  lastError := g.lastError
  ended := false
  calls := []
  lines := []
  sentType := none

/-- The MIME type in `SG(sapi_headers)` when `sapi_send_headers` hands it to
`header_callback`. -/
def sentMimetype (conf : ScriptConf) (headers : SapiHeaders) : Option Bytes :=
  if headers.sendDefaultContentType then some (defaultContentType conf) else headers.mimetype

/-- What the callbacks of the request have made of the response: `header_function`
for each line, and `header_callback` when the headers were sent. -/
def ScriptState.response (s : ScriptState) (q : ToxicRequest) : Response :=
  let headers := s.lines.zipIdx.foldl
    (fun headers line =>
      headerFunction (q.memory line.2).hash (q.memory line.2).heap line.1 headers) []
  let r := (Response.start q.incoming).withHeaders headers
  match s.sentType with
  | none => r
  | some mimetype => headerCallback mimetype r

/-- What `exit_request` hands to nginx, and the `$_POST` the script has seen. -/
structure Reply where
  response : Response
  chain : List NgxBuf
  post : PostVars
  deriving DecidableEq, Repr

/-- The strings `callback_output` has got that are not empty. -/
def ScriptState.writes (s : ScriptState) : List Bytes :=
  nonEmpty (s.output.delivered.map (·.map Prod.fst))

/-- `toxic_excecute`: the reply, and what it leaves; `none` when the script has
crashed or has not returned, so that `exit_request` is not reached. -/
def Leftover.excecute (g : Leftover) (q : ToxicRequest) : Option (Reply × Leftover) :=
  -- `parse_str` replaces the array it is given
  let post := q.post.getD g.post
  let s := (q.script post).foldl (scriptStep ngxHttpToxicModule) (g.begin q.key)
  if s.ended then none
  else
    let baseLen := s.writes.foldl (fun base str => addInt base str.length) g.baseLen
    let r := s.response q
    some (⟨{ r with headersOut := { r.headersOut with contentLengthN := baseLen } },
        storedBufs s.writes, post⟩,
      -- `$_POST = array();`
      ⟨baseLen, s.conf, s.headers, s.callback, s.postRead, s.lastError, s.output.handlers, []⟩)

/-- What a history of requests leaves; `none` when one of them had no reply. -/
def after (conf : ScriptConf) (history : List ToxicRequest) : Option Leftover :=
  history.foldlM (fun g q => (g.excecute q).map Prod.snd) (Leftover.fresh conf)

/-- The reply to a request. -/
def respond (g : Leftover) (q : ToxicRequest) : Option Reply :=
  (g.excecute q).map Prod.fst

/-- No request can tell the two histories apart. -/
def Unaffected (conf : ScriptConf) (history history' : List ToxicRequest) : Prop :=
  ∀ g g', after conf history = some g → after conf history' = some g' →
    ∀ q, respond g q = respond g' q

/-- A leftover that changes nothing: `base_len` is 0, the settings are those of the
start, the default content type is to be sent, and there is no header callback, no last
error and no open handler.  The lines in `SG(sapi_headers)`, the status there and
`SG(post_read)` may be anything. -/
structure Neutral (conf : ScriptConf) (g : Leftover) : Prop where
  baseLen : g.baseLen = 0
  conf : g.conf = conf
  type : g.headers.sendDefaultContentType = true
  callback : g.callback = none
  lastError : g.lastError = none
  handlers : g.handlers = []

/-- Two states in which a script sees the same: they differ in the lines and the status
in `SG(sapi_headers)`, in `SG(post_read)`, in the slots that were called, and, unless
they are `typed`, in a content type that the default one will replace. -/
def SeesSame (typed : Bool) (s t : ScriptState) : Prop :=
  ∃ headers postRead calls,
    s = { t with headers := headers, postRead := postRead, calls := calls } ∧
      headers.sendDefaultContentType = t.headers.sendDefaultContentType ∧
      (typed = true ∨ t.headers.sendDefaultContentType = false →
        headers.mimetype = t.headers.mimetype)

/-- A call of a slot that is set is only recorded. -/
theorem call_set {slot : Member} (hset : ngxHttpToxicModule slot ≠ .zero) (s : ScriptState) :
    s.call ngxHttpToxicModule slot = { s with calls := s.calls ++ [slot] } := by
  unfold ScriptState.call
  simp [hset]

/-- A call where the slot is set does nothing else. -/
theorem callIfSet_spec (s : ScriptState) (slot : Member) :
    ∃ calls, s.callIfSet ngxHttpToxicModule slot = { s with calls := calls } := by
  unfold ScriptState.callIfSet
  split
  next => exact ⟨s.calls, rfl⟩
  next hset => exact ⟨_, call_set hset s⟩

/-- Slots are called one after the other; an empty one is the end. -/
theorem foldl_call (slots : List Member) (s : ScriptState) :
    slots.foldl (ScriptState.call ngxHttpToxicModule) s
      = { s with
          calls := s.calls ++ slots
          ended := s.ended || slots.any fun slot => decide (ngxHttpToxicModule slot = .zero) } := by
  induction slots generalizing s with
  | nil => simp
  | cons slot slots ih =>
      rw [List.foldl_cons, ih]
      simp [ScriptState.call, Bool.or_assoc]

/-- Which slots an operation calls does not depend on the list. -/
theorem sapiHeaderOp_calls_congr (env : HeaderEnv) (sent : Bool) (op : HeaderOp)
    (s t : SapiHeaders) : (sapiHeaderOp env sent op s).calls = (sapiHeaderOp env sent op t).calls := by
  unfold sapiHeaderOp
  split
  next => rfl
  next =>
    cases op with
    | setStatus code => rfl
    | deleteAll => rfl
    | delete line =>
        dsimp only
        split
        next => rfl
        next =>
          split
          next => rfl
          next => rfl
    | set replace line responseCode =>
        dsimp only
        split
        next => rfl
        next =>
          split
          next => rfl
          next =>
            split
            next => rfl
            next => rw [sapiHeaderAddOp_calls, sapiHeaderAddOp_calls]

/-- A cookie has no special support. -/
theorem specialHeader_cookie (env : HeaderEnv) (cookie : Bytes) (code : Int32) (s : SapiHeaders) :
    specialHeader env (cutTrailing (bytesOf "Set-Cookie: " ++ cookie)) code s
      = (cutTrailing (bytesOf "Set-Cookie: " ++ cookie), s) := by
  have htype : eqNoCase (bytesOf "Set-Cookie") (bytesOf "Content-Type") = false := by
    decide +kernel
  have hlocation : eqNoCase (bytesOf "Set-Cookie") (bytesOf "Location") = false := by
    decide +kernel
  have hauthenticate : eqNoCase (bytesOf "Set-Cookie") (bytesOf "WWW-Authenticate") = false := by
    decide +kernel
  unfold specialHeader
  simp only [cookie_name, htype, hlocation, hauthenticate, Bool.false_eq_true, if_false]

/-- No call that goes through the SAPI changes the content type; `header()` does not
go through it. -/
theorem sapiCall_type (env : HeaderEnv) (sent : Bool) {call : HeaderCall}
    (hcall : ∀ line replace code, call ≠ .header line replace code) (s : SapiHeaders) :
    (sapiCall env sent call s).headers.sendDefaultContentType = s.sendDefaultContentType ∧
      (sapiCall env sent call s).headers.mimetype = s.mimetype := by
  cases call with
  | header line replace code => exact absurd rfl (hcall line replace code)
  | httpResponseCode code =>
      unfold sapiCall setHttpResponseCode
      dsimp only
      split
      next => exact ⟨rfl, rfl⟩
      next => exact ⟨rfl, rfl⟩
  | headerRemove name =>
      cases name with
      | none =>
          unfold sapiCall sapiHeaderOp
          dsimp only
          split
          next => exact ⟨rfl, rfl⟩
          next => exact ⟨rfl, rfl⟩
      | some name =>
          unfold sapiCall sapiHeaderOp
          dsimp only
          split
          next => exact ⟨rfl, rfl⟩
          next =>
            split
            next => exact ⟨rfl, rfl⟩
            next =>
              split
              next => exact ⟨rfl, rfl⟩
              next => exact ⟨rfl, rfl⟩
  | setcookie cookie =>
      have hzero : Int64.toInt32 0 = 0 := by decide
      unfold sapiCall
      dsimp only
      cases phpSetcookie cookie with
      | none => exact ⟨rfl, rfl⟩
      | some text =>
          unfold sapiHeaderOp
          simp only [hzero, specialHeader_cookie, cookie_not_statusLine, ne_eq, not_true_eq_false,
            if_false, Bool.false_eq_true]
          split
          next => exact ⟨rfl, rfl⟩
          next =>
            split
            next => exact ⟨rfl, rfl⟩
            next =>
              split
              next => exact ⟨rfl, rfl⟩
              next =>
                unfold sapiHeaderAddOp
                split
                next => exact ⟨rfl, rfl⟩
                next => exact ⟨rfl, rfl⟩

/-- Nor do the slots that it calls depend on the lists. -/
theorem sapiCall_calls_congr (env : HeaderEnv) (sent : Bool) {call : HeaderCall}
    (hcall : ∀ line replace code, call ≠ .header line replace code) (s t : SapiHeaders) :
    (sapiCall env sent call s).calls = (sapiCall env sent call t).calls := by
  cases call with
  | header line replace code => exact absurd rfl (hcall line replace code)
  | setcookie cookie =>
      unfold sapiCall
      dsimp only
      cases phpSetcookie cookie with
      | none => rfl
      | some text => exact sapiHeaderOp_calls_congr _ _ _ _ _
  | headerRemove name =>
      cases name with
      | none => exact sapiHeaderOp_calls_congr _ _ _ _ _
      | some name => exact sapiHeaderOp_calls_congr _ _ _ _ _
  | httpResponseCode code => rfl

section SeesSame

variable {typed : Bool} {s t : ScriptState}

/-- The two runs end together. -/
theorem SeesSame.ended (h : SeesSame typed s t) : s.ended = t.ended := by
  obtain ⟨headers, postRead, calls, rfl, -, -⟩ := h
  rfl

/-- A slot that may be empty. -/
theorem SeesSame.callIfSet (h : SeesSame typed s t) (slot : Member) :
    SeesSame typed (s.callIfSet ngxHttpToxicModule slot) (t.callIfSet ngxHttpToxicModule slot) := by
  obtain ⟨headers, postRead, calls, rfl, hdefault, htype⟩ := h
  obtain ⟨calls, hs⟩ := callIfSet_spec
    { t with headers := headers, postRead := postRead, calls := calls } slot
  obtain ⟨calls', ht⟩ := callIfSet_spec t slot
  rw [hs, ht]
  exact ⟨headers, postRead, calls, rfl, hdefault, htype⟩

/-- Operations on the two header lists that call the same slots. -/
theorem SeesSame.applied (h : SeesSame typed s t) {result result' : HeaderResult}
    (hcalls : result.calls = result'.calls)
    (hdefault : result.headers.sendDefaultContentType = result'.headers.sendDefaultContentType)
    (htype : typed = true ∨ result'.headers.sendDefaultContentType = false →
      result.headers.mimetype = result'.headers.mimetype) :
    SeesSame typed (s.applied ngxHttpToxicModule result)
      (t.applied ngxHttpToxicModule result') := by
  obtain ⟨headers, postRead, calls, rfl, -, -⟩ := h
  unfold ScriptState.applied
  rw [foldl_call, foldl_call, hcalls]
  exact ⟨_, _, _, rfl, hdefault, htype⟩

/-- A string is delivered. -/
theorem SeesSame.deliver (h : SeesSame typed s t) (strs : List (List Written)) :
    SeesSame typed (s.deliver ngxHttpToxicModule strs) (t.deliver ngxHttpToxicModule strs) := by
  have htoxic : ngxHttpToxicModule .isToxic ≠ .zero := by decide
  have houtput : ngxHttpToxicModule .toxicOutput ≠ .zero := by decide
  unfold ScriptState.deliver
  simp only [htoxic, ne_eq, not_false_eq_true, if_true, call_set houtput]
  refine SeesSame.callIfSet ?_ .flush
  obtain ⟨headers, postRead, calls, rfl, hdefault, htype⟩ := h
  exact ⟨headers, postRead, _, rfl, hdefault, htype⟩

/-- The default content type is sent; then the content types are the same. -/
theorem SeesSame.sendDefault (h : SeesSame typed s t) :
    SeesSame true (s.sendDefault ngxHttpToxicModule) (t.sendDefault ngxHttpToxicModule) := by
  have hset : ngxHttpToxicModule .sendHeaders ≠ .zero := by decide
  obtain ⟨headers, postRead, calls, rfl, hdefault, htype⟩ := h
  -- either run takes the default type over
  have hresult : ∀ (env : HeaderEnv) (line mimetype : Bytes) (u : SapiHeaders),
      (sapiHeaderAddOp env false line
        { u with
          mimetype := some mimetype, sendDefaultContentType := false }).headers.sendDefaultContentType
          = false ∧
      (sapiHeaderAddOp env false line
        { u with mimetype := some mimetype, sendDefaultContentType := false }).headers.mimetype
          = some mimetype := by
    intro env line mimetype u
    unfold sapiHeaderAddOp
    split
    next => exact ⟨rfl, rfl⟩
    next => exact ⟨rfl, rfl⟩
  unfold ScriptState.sendDefault
  simp only [hset, ne_eq, not_false_eq_true, decide_true, Bool.and_true, hdefault]
  cases hflag : t.headers.sendDefaultContentType with
  | true =>
      simp only [if_true]
      unfold ScriptState.applied
      rw [foldl_call, foldl_call, sapiHeaderAddOp_calls, sapiHeaderAddOp_calls]
      refine ⟨_, _, _, rfl, ?_, fun _ => ?_⟩
      · rw [(hresult _ _ _ _).1, (hresult _ _ _ _).1]
      · rw [(hresult _ _ _ _).2, (hresult _ _ _ _).2]
  | false =>
      simp only [Bool.false_eq_true, if_false]
      exact ⟨headers, postRead, calls, rfl, hdefault, fun _ => htype (Or.inr hflag)⟩

/-- What stands behind the callback of `sapi_send_headers`. -/
theorem SeesSame.sendRest (h : SeesSame true s t) :
    SeesSame typed (s.sendRest ngxHttpToxicModule) (t.sendRest ngxHttpToxicModule) := by
  have hset : ngxHttpToxicModule .sendHeaders ≠ .zero := by decide
  obtain ⟨headers, postRead, calls, rfl, hdefault, htype⟩ := h
  unfold ScriptState.sendRest
  simp only [hset, ne_eq, not_false_eq_true, if_true, call_set hset, htype (Or.inl rfl)]
  exact ⟨_, _, _, rfl, hdefault, fun _ => rfl⟩

/-- Content types that are the same are the same where they must be. -/
theorem SeesSame.of_typed (h : SeesSame true s t) : SeesSame typed s t := by
  obtain ⟨headers, postRead, calls, rfl, hdefault, htype⟩ := h
  exact ⟨headers, postRead, calls, rfl, hdefault, fun _ => htype (Or.inl rfl)⟩

section With

variable {send : ScriptState → ScriptState}

/-- A call that concerns the output. -/
theorem SeesSame.outputCall
    (hsend : ∀ {s t}, SeesSame typed s t → SeesSame typed (send s) (send t))
    (h : SeesSame typed s t) (call : OutputCall) :
    SeesSame typed (s.outputCall send ngxHttpToxicModule call)
      (t.outputCall send ngxHttpToxicModule call) := by
  have hhandled : SeesSame typed (s.handled call) (t.handled call) := by
    obtain ⟨headers, postRead, calls, rfl, hdefault, htype⟩ := h
    exact ⟨headers, postRead, calls, rfl, hdefault, htype⟩
  have houtput : s.output = t.output := by
    obtain ⟨headers, postRead, calls, rfl, -, -⟩ := h
    rfl
  have hsent : (s.handled call).headersSent = (t.handled call).headersSent := by
    obtain ⟨headers, postRead, calls, hs, -, -⟩ := hhandled
    rw [hs]
  unfold ScriptState.outputCall
  rw [houtput]
  split
  next =>
    dsimp only
    rw [hsent]
    have hnext : SeesSame typed
        (if (t.handled call).headersSent = true then s.handled call else send (s.handled call))
        (if (t.handled call).headersSent = true then t.handled call
          else send (t.handled call)) := by
      split
      next => exact hhandled
      next => exact hsend hhandled
    generalize (if (t.handled call).headersSent = true then s.handled call
      else send (s.handled call)) = u at hnext ⊢
    generalize (if (t.handled call).headersSent = true then t.handled call
      else send (t.handled call)) = v at hnext ⊢
    rw [hnext.ended]
    split
    next => exact hnext
    next => exact hnext.deliver _
  next =>
    obtain ⟨headers, postRead, calls, rfl, hdefault, htype⟩ := h
    exact ⟨headers, postRead, calls, rfl, hdefault, htype⟩

/-- The status line of a fatal error, which one of the two runs may find set. -/
theorem SeesSame.fatalStatus (h : SeesSame typed s t) (hsent : t.headersSent = false)
    (left right : Bool) :
    SeesSame typed
      (if left then s.applied ngxHttpToxicModule (sapiHeaderOp
        (s.conf.headerEnv ngxHttpToxicModule) s.sent (.set true internalServerError 0) s.headers)
      else s)
      (if right then t.applied ngxHttpToxicModule (sapiHeaderOp
        (t.conf.headerEnv ngxHttpToxicModule) t.sent (.set true internalServerError 0) t.headers)
      else t) := by
  have hfault : headerFault (cutTrailing internalServerError) = none := by decide +kernel
  have hne : internalServerError ≠ [] := by decide +kernel
  have hstatus : isStatusLine (cutTrailing internalServerError) = true := by decide +kernel
  -- it calls no slot and leaves the content type
  have hone : ∀ (u : ScriptState) (set : Bool), u.headersSent = false → ∃ headers,
      headers.sendDefaultContentType = u.headers.sendDefaultContentType ∧
      headers.mimetype = u.headers.mimetype ∧
        (if set then u.applied ngxHttpToxicModule (sapiHeaderOp
          (u.conf.headerEnv ngxHttpToxicModule) u.sent (.set true internalServerError 0) u.headers)
        else u) = { u with headers := headers } := by
    intro u set hu
    have hnone : u.sent = false := by simp [ScriptState.sent, hu]
    cases set with
    | false => exact ⟨u.headers, rfl, rfl, rfl⟩
    | true =>
        rw [if_pos rfl, hnone]
        unfold ScriptState.applied
        rw [internalServerError_calls]
        refine ⟨_, ?_, ?_, rfl⟩
        · simp only [sapiHeaderOp, Bool.false_eq_true, if_false, hne, hfault, hstatus, if_true]
          exact sapiUpdateResponseCode_default _ _
        · simp only [sapiHeaderOp, Bool.false_eq_true, if_false, hne, hfault, hstatus, if_true]
          exact sapiUpdateResponseCode_mimetype _ _
  have hsent' : s.headersSent = false := by
    obtain ⟨headers, postRead, calls, rfl, -, -⟩ := h
    exact hsent
  obtain ⟨headers, hdefault, htype, hs⟩ := hone s left hsent'
  obtain ⟨headers', hdefault', htype', ht⟩ := hone t right hsent
  rw [hs, ht]
  obtain ⟨_, postRead, calls, rfl, hd, hm⟩ := h
  refine ⟨headers, postRead, calls, rfl, (hdefault.trans hd).trans hdefault'.symm, fun hnot => ?_⟩
  rw [hdefault'] at hnot
  exact (htype.trans (hm hnot)).trans htype'.symm

/-- An error. -/
theorem SeesSame.error
    (hsend : ∀ {s t}, SeesSame typed s t → SeesSame typed (send s) (send t))
    (h : SeesSame typed s t) (kind : ErrorKind) (e : PhpError) :
    SeesSame typed (s.error send ngxHttpToxicModule kind e)
      (t.error send ngxHttpToxicModule kind e) := by
  have hend : ∀ {u v : ScriptState}, SeesSame typed u v →
      SeesSame typed { u with ended := u.ended || kind == .fatal }
        { v with ended := v.ended || kind == .fatal } := by
    intro u v huv
    obtain ⟨headers, postRead, calls, rfl, hdefault, htype⟩ := huv
    exact ⟨headers, postRead, calls, rfl, hdefault, htype⟩
  -- the run behind the message
  have hrest : ∀ {u v : ScriptState}, SeesSame typed u v →
      SeesSame typed
        (if u.ended then u
        else
          let u :=
            if (kind == .parse false || kind == .fatal) && !u.conf.displayErrors &&
                !u.headersSent && u.headers.httpResponseCode == 200 then
              u.applied ngxHttpToxicModule (sapiHeaderOp (u.conf.headerEnv ngxHttpToxicModule)
                u.sent (.set true internalServerError 0) u.headers)
            else u
          { u with ended := u.ended || kind == .fatal })
        (if v.ended then v
        else
          let v :=
            if (kind == .parse false || kind == .fatal) && !v.conf.displayErrors &&
                !v.headersSent && v.headers.httpResponseCode == 200 then
              v.applied ngxHttpToxicModule (sapiHeaderOp (v.conf.headerEnv ngxHttpToxicModule)
                v.sent (.set true internalServerError 0) v.headers)
            else v
          { v with ended := v.ended || kind == .fatal }) := by
    intro u v huv
    rw [huv.ended]
    split
    next => exact huv
    next =>
      apply hend
      cases hsent : v.headersSent with
      | true =>
          have hsent' : u.headersSent = true := by
            obtain ⟨headers, postRead, calls, rfl, -, -⟩ := huv
            exact hsent
          simp only [hsent', Bool.not_true, Bool.and_false, Bool.false_and, Bool.false_eq_true,
            if_false]
          exact huv
      | false => exact huv.fatalStatus hsent _ _
  have hrepeated : s.repeated e = t.repeated e := by
    obtain ⟨headers, postRead, calls, rfl, -, -⟩ := h
    rfl
  have hstored : SeesSame typed { s with lastError := some ⟨e.message s.conf, e.file, e.line⟩ }
      { t with lastError := some ⟨e.message t.conf, e.file, e.line⟩ } := by
    obtain ⟨headers, postRead, calls, rfl, hdefault, htype⟩ := h
    exact ⟨headers, postRead, calls, rfl, hdefault, htype⟩
  have hconf : s.conf = t.conf := by
    obtain ⟨headers, postRead, calls, rfl, -, -⟩ := h
    rfl
  unfold ScriptState.error
  rw [hrepeated]
  simp only [callIfSet_logMessage, ite_self]
  refine hrest ?_
  cases t.repeated e with
  | true =>
      simp only [Bool.not_true, Bool.false_and, Bool.false_eq_true, if_false]
      exact h
  | false =>
      simp only [Bool.not_false, Bool.true_and, if_true, hconf]
      split
      next =>
        rw [hconf] at hstored
        exact hstored.outputCall hsend _
      next =>
        rw [hconf] at hstored
        exact hstored

/-- **One operation** keeps the two runs alike. -/
theorem SeesSame.stepWith
    (hsend : ∀ {s t}, SeesSame typed s t → SeesSame typed (send s) (send t))
    (h : SeesSame typed s t) (call : ScriptCall) :
    SeesSame typed (scriptStepWith send ngxHttpToxicModule s call)
      (scriptStepWith send ngxHttpToxicModule t call) := by
  unfold scriptStepWith
  rw [h.ended]
  split
  next => exact h
  next =>
    have hsent : s.sent = t.sent := by
      obtain ⟨headers, postRead, calls, rfl, -, -⟩ := h
      rfl
    have hconf : s.conf = t.conf := by
      obtain ⟨headers, postRead, calls, rfl, -, -⟩ := h
      rfl
    -- a call that goes through the SAPI
    have hsapi : ∀ call : HeaderCall, (∀ line replace code, call ≠ .header line replace code) →
        SeesSame typed
          (s.applied ngxHttpToxicModule
            (sapiCall (s.conf.headerEnv ngxHttpToxicModule) s.sent call s.headers))
          (t.applied ngxHttpToxicModule
            (sapiCall (t.conf.headerEnv ngxHttpToxicModule) t.sent call t.headers)) := by
      intro call hcall
      obtain ⟨hdefault, htype⟩ := sapiCall_type (t.conf.headerEnv ngxHttpToxicModule) t.sent hcall
        s.headers
      obtain ⟨hdefault', htype'⟩ := sapiCall_type (t.conf.headerEnv ngxHttpToxicModule) t.sent hcall
        t.headers
      rw [hsent, hconf]
      refine h.applied (sapiCall_calls_congr _ _ hcall _ _) ?_ fun hnot => ?_
      · rw [hdefault, hdefault']
        obtain ⟨headers, postRead, calls, rfl, hd, -⟩ := h
        exact hd
      · rw [hdefault'] at hnot
        rw [htype, htype']
        obtain ⟨headers, postRead, calls, rfl, -, hm⟩ := h
        exact hm hnot
    cases call with
    | header call =>
        cases call with
        | header line replace code =>
            have hset : ngxHttpToxicModule .toxicHeaderHandler ≠ .zero := by decide
            simp only [hset, if_false, call_set hset]
            obtain ⟨headers, postRead, calls, rfl, hdefault, htype⟩ := h
            exact ⟨headers, postRead, _, rfl, hdefault, htype⟩
        | setcookie cookie => exact hsapi (.setcookie cookie) (by simp)
        | headerRemove name => exact hsapi (.headerRemove name) (by simp)
        | httpResponseCode code => exact hsapi (.httpResponseCode code) (by simp)
    | echo text => exact h.outputCall hsend _
    | obStart chunkSize cleanable flushable removable => exact h.outputCall hsend _
    | ob fn site =>
        have hhandlers : s.output.handlers = t.output.handlers := by
          obtain ⟨headers, postRead, calls, rfl, -, -⟩ := h
          rfl
        dsimp only
        rw [hhandlers]
        split
        next => exact h.error hsend _ _
        next => exact h.outputCall hsend _
    | flush => exact h.callIfSet .flush
    | error kind e => exact h.error hsend kind e
    | readInput =>
        -- whether the body has been read is seen by no other operation
        obtain ⟨calls, hs⟩ := callIfSet_spec s .readPost
        obtain ⟨calls', ht⟩ := callIfSet_spec t .readPost
        have hcalls : ∀ (c d : List Member) (a b : Bool),
            SeesSame typed { s with calls := c, postRead := a }
              { t with calls := d, postRead := b } := by
          intro c d a b
          obtain ⟨headers, postRead, calls, rfl, hdefault, htype⟩ := h
          exact ⟨headers, a, c, rfl, hdefault, htype⟩
        dsimp only
        rw [hs, ht]
        split
        next =>
          split
          next => exact h
          next => exact hcalls s.calls calls' s.postRead true
        next =>
          split
          next => exact hcalls calls t.calls true t.postRead
          next => exact hcalls calls calls' true true
    | iniSet setting =>
        obtain ⟨headers, postRead, calls, rfl, hdefault, htype⟩ := h
        exact ⟨headers, postRead, calls, rfl, hdefault, htype⟩
    | headerRegisterCallback callback =>
        obtain ⟨headers, postRead, calls, rfl, hdefault, htype⟩ := h
        exact ⟨headers, postRead, calls, rfl, hdefault, htype⟩

end With

/-- An operation of a header callback. -/
theorem SeesSame.headerCallbackStep (h : SeesSame typed s t) (busy : Bool) (call : ScriptCall) :
    SeesSame typed (headerCallbackStep ngxHttpToxicModule busy s call)
      (headerCallbackStep ngxHttpToxicModule busy t call) := by
  have hprints : s.prints call = t.prints call := by
    obtain ⟨headers, postRead, calls, rfl, -, -⟩ := h
    rfl
  unfold Toxic.headerCallbackStep
  rw [hprints]
  split
  next =>
    obtain ⟨headers, postRead, calls, rfl, hdefault, htype⟩ := h
    exact ⟨headers, postRead, calls, rfl, hdefault, htype⟩
  next => exact h.stepWith (fun h => h) call

end SeesSame

/-- **The headers are sent.** -/
theorem SeesSame.sapiSendHeaders {typed : Bool} {s t : ScriptState} (h : SeesSame typed s t) :
    SeesSame typed (sapiSendHeaders ngxHttpToxicModule s)
      (sapiSendHeaders ngxHttpToxicModule t) := by
  have hskip : (s.headersSent || s.noHeaders || s.callbackRun)
      = (t.headersSent || t.noHeaders || t.callbackRun) := by
    obtain ⟨headers, postRead, calls, rfl, -, -⟩ := h
    rfl
  unfold Toxic.sapiSendHeaders
  rw [hskip]
  split
  next => exact h
  next =>
    have hcallback : SeesSame true
        ((s.sendDefault ngxHttpToxicModule).runHeaderCallback ngxHttpToxicModule)
        ((t.sendDefault ngxHttpToxicModule).runHeaderCallback ngxHttpToxicModule) := by
      have hsame := h.sendDefault
      generalize s.sendDefault ngxHttpToxicModule = u at hsame ⊢
      generalize t.sendDefault ngxHttpToxicModule = v at hsame ⊢
      obtain ⟨headers, postRead, calls, rfl, hdefault, htype⟩ := hsame
      unfold ScriptState.runHeaderCallback
      dsimp only
      split
      next => exact ⟨headers, postRead, calls, rfl, hdefault, htype⟩
      next callback _ =>
        exact List.foldl_rel ⟨headers, postRead, calls, rfl, hdefault, htype⟩
          fun call _ _ _ hrun => hrun.headerCallbackStep _ call
    dsimp only
    rw [hcallback.ended]
    split
    next => exact hcallback.of_typed
    next => exact hcallback.sendRest

/-- **One operation of a script** keeps the two runs alike. -/
theorem SeesSame.step {s t : ScriptState} (h : SeesSame false s t) (call : ScriptCall) :
    SeesSame false (scriptStep ngxHttpToxicModule s call) (scriptStep ngxHttpToxicModule t call) :=
  h.stepWith SeesSame.sapiSendHeaders call

/-- **A neutral leftover changes no reply.** -/
theorem respond_neutral {conf : ScriptConf} {g : Leftover} (h : Neutral conf g)
    (hpost : g.post = []) (q : ToxicRequest) : respond g q = respond (Leftover.fresh conf) q := by
  have hstart : SeesSame false (g.begin q.key) ((Leftover.fresh conf).begin q.key) := by
    refine ⟨g.headers, g.postRead, [], ?_, h.type, by simp [Leftover.fresh, Leftover.begin,
      SapiHeaders.fresh]⟩
    unfold Leftover.begin Leftover.fresh
    simp only [h.conf, h.callback, h.lastError, h.handlers]
  have hend := List.foldl_rel (l := q.script (q.post.getD []))
    (r := SeesSame false) hstart fun call _ _ _ hst => hst.step call
  have hfresh : (Leftover.fresh conf).post = [] ∧ (Leftover.fresh conf).baseLen = 0 := ⟨rfl, rfl⟩
  unfold respond Leftover.excecute
  rw [hpost, h.baseLen, hfresh.1, hfresh.2]
  dsimp only
  generalize (q.script (q.post.getD [])).foldl (scriptStep ngxHttpToxicModule) (g.begin q.key) = s
    at hend ⊢
  generalize (q.script (q.post.getD [])).foldl (scriptStep ngxHttpToxicModule)
    ((Leftover.fresh conf).begin q.key) = t at hend ⊢
  obtain ⟨headers, postRead, calls, rfl, -, -⟩ := hend
  split
  next => rfl
  next => rfl

/-- A `GET` request whose script changes these settings and makes one call. -/
def probe (settings : List Setting) (calls : List ScriptCall) : ToxicRequest where
  key := []
  incoming := ⟨.get, 1001, 0, false, false, true⟩
  post := none
  script := fun _ => settings.map ScriptCall.iniSet ++ calls
  memory := fun _ => ⟨0, fun _ => 0⟩

/-- The strings that one call brings out of the handlers. -/
def passedBy (handlers : List (OutputHandler Written)) (call : OutputCall) : List Bytes :=
  nonEmpty ((outputStep ⟨handlers, [], [], [], [], []⟩ call).delivered.map (·.map Prod.fst))

/-- The state in which the call of a probe takes place. -/
def Leftover.ready (g : Leftover) (settings : List Setting) : ScriptState :=
  { g.begin [] with conf := settings.foldl ScriptConf.set g.conf }

/-- The chain tells the strings. -/
theorem storedBufs_inj {left right : List Bytes} (h : storedBufs left = storedBufs right) :
    left = right := by
  have hblocks : ∀ written : List Bytes,
      (storedBufs written).map NgxBuf.block = written.map (· ++ [0]) := by
    intro written
    rcases List.eq_nil_or_concat written with rfl | ⟨earlier, latest, rfl⟩
    · rfl
    · simp [storedBufs, storedBuf, Function.comp_def]
  have hmap := congrArg (List.map NgxBuf.block) h
  rw [hblocks, hblocks] at hmap
  exact List.map_injective_iff.mpr (List.append_left_injective [0]) hmap

/-- Settings are changed one after the other. -/
theorem foldl_iniSet (settings : List Setting) {s : ScriptState} (hrun : s.ended = false) :
    (settings.map ScriptCall.iniSet).foldl (scriptStep ngxHttpToxicModule) s
      = { s with conf := settings.foldl ScriptConf.set s.conf } := by
  induction settings generalizing s with
  | nil => rfl
  | cons setting settings ih =>
      have hstep : scriptStep ngxHttpToxicModule s (.iniSet setting)
          = { s with conf := s.conf.set setting } := by
        simp [scriptStep, scriptStepWith, hrun]
      rw [List.map_cons, List.foldl_cons, hstep, ih (by exact hrun)]
      rfl

/-- The reply to a probe. -/
theorem respond_probe (g : Leftover) (settings : List Setting) (calls : List ScriptCall)
    {s : ScriptState} (hs : calls.foldl (scriptStep ngxHttpToxicModule) (g.ready settings) = s)
    (hrun : s.ended = false) :
    ∃ reply, respond g (probe settings calls) = some reply ∧
      reply.chain = storedBufs s.writes ∧
      reply.response.headersOut.contentType =
        (s.sentType.map fun mimetype => mimetype.getD (bytesOf "text/html")).getD [] ∧
      reply.response.headersOut.contentLengthN
        = s.writes.foldl (fun base str => addInt base str.length) g.baseLen := by
  have hfold : ((probe settings calls).script ((probe settings calls).post.getD g.post)).foldl
      (scriptStep ngxHttpToxicModule) (g.begin (probe settings calls).key) = s := by
    have hscript : (probe settings calls).script ((probe settings calls).post.getD g.post)
        = settings.map ScriptCall.iniSet ++ calls := rfl
    have hkey : (probe settings calls).key = [] := rfl
    rw [hscript, hkey, List.foldl_append, foldl_iniSet settings rfl, ← hs]
    rfl
  unfold respond Leftover.excecute
  dsimp only
  rw [hfold, hrun]
  refine ⟨_, rfl, rfl, ?_, rfl⟩
  unfold ScriptState.response
  cases s.sentType with
  | none => rfl
  | some mimetype => rfl

/-- Without a header callback nothing else happens when the headers are sent. -/
theorem sapiSendHeaders_spec {s : ScriptState} (hstart : s.headersSent = false ∧
      s.noHeaders = false ∧ s.callbackRun = false ∧ s.ended = false) (hnone : s.callback = none) :
    ∃ headers calls, sapiSendHeaders ngxHttpToxicModule s
      = { s with
          headers := headers, calls := calls, headersSent := true
          sentType := some (sentMimetype s.conf s.headers) } ∧
        headers.sendDefaultContentType = false ∧ headers.mimetype = none := by
  have hset : ngxHttpToxicModule .sendHeaders ≠ .zero := by decide
  have hhandler : ngxHttpToxicModule .headerHandler ≠ .zero := by decide
  obtain ⟨hsent, hno, hrun, hended⟩ := hstart
  -- the default content type goes to `header_handler`
  have hdefault : ∃ headers calls, s.sendDefault ngxHttpToxicModule
      = { s with headers := headers, calls := calls } ∧
        headers.sendDefaultContentType = false ∧
          headers.mimetype = sentMimetype s.conf s.headers := by
    unfold ScriptState.sendDefault sentMimetype
    simp only [hset, ne_eq, not_false_eq_true, decide_true, Bool.and_true]
    split
    next hflag =>
      unfold ScriptState.applied
      have hslots : ((s.conf.headerEnv ngxHttpToxicModule).handlerCalls).map SapiCall.slot
          = [.headerHandler] := by
        simp [HeaderEnv.handlerCalls, ScriptConf.headerEnv, hhandler, SapiCall.slot]
      rw [sapiHeaderAddOp_calls, hslots, foldl_call]
      refine ⟨_, s.calls ++ [.headerHandler], by simp [hhandler]; rfl, ?_⟩
      unfold sapiHeaderAddOp
      split
      next => exact ⟨rfl, rfl⟩
      next => exact ⟨rfl, rfl⟩
    next hflag => exact ⟨s.headers, s.calls, rfl, by simpa using hflag, rfl⟩
  obtain ⟨headers, calls, hdefault, hflag, htype⟩ := hdefault
  have hskip : (s.headersSent || s.noHeaders || s.callbackRun) = false := by
    rw [hsent, hno, hrun]
    rfl
  have hcallback : ScriptState.runHeaderCallback ngxHttpToxicModule
      { s with headers := headers, calls := calls }
        = { s with headers := headers, calls := calls } := by
    unfold ScriptState.runHeaderCallback
    simp only [hnone]
  unfold sapiSendHeaders
  rw [hskip, hdefault, hcallback]
  simp only [Bool.false_eq_true, if_false, hended]
  unfold ScriptState.sendRest
  simp only [hset, ne_eq, not_false_eq_true, if_true, call_set hset, htype]
  exact ⟨_, _, rfl, hflag, rfl⟩

/-- A string that is delivered is behind the others. -/
theorem deliver_spec (s : ScriptState) (strs : List (List Written)) :
    ∃ calls, s.deliver ngxHttpToxicModule strs
      = { s with
          calls := calls
          output := { s.output with delivered := s.output.delivered ++ strs } } := by
  have htoxic : ngxHttpToxicModule .isToxic ≠ .zero := by decide
  have houtput : ngxHttpToxicModule .toxicOutput ≠ .zero := by decide
  unfold ScriptState.deliver
  simp only [htoxic, ne_eq, not_false_eq_true, if_true, call_set houtput]
  exact callIfSet_spec _ .flush

/-- What a call that concerns the output leaves at the beginning of a script, where
there is no header callback. -/
theorem outputCall_spec {s : ScriptState} (hstart : s.headersSent = false ∧
      s.noHeaders = false ∧ s.callbackRun = false ∧ s.ended = false) (hnone : s.callback = none)
    (hempty : s.output.delivered = []) (call : OutputCall) :
    (s.outputCall (sapiSendHeaders ngxHttpToxicModule) ngxHttpToxicModule call).output
        = outputStep s.output call ∧
      (s.outputCall (sapiSendHeaders ngxHttpToxicModule) ngxHttpToxicModule call).ended = false ∧
      (s.outputCall (sapiSendHeaders ngxHttpToxicModule) ngxHttpToxicModule call).sentType
        = (if s.output.passesOut call = true then some (sentMimetype s.conf s.headers)
          else s.sentType) := by
  unfold ScriptState.outputCall
  by_cases hpass : s.output.passesOut call = true
  · obtain ⟨headers, calls, hsend, -, -⟩ := sapiSendHeaders_spec (s := s.handled call) hstart hnone
    have hsent : (s.handled call).headersSent = false := hstart.1
    have hafter : (sapiSendHeaders ngxHttpToxicModule (s.handled call)).output
          = (s.handled call).output ∧
        (sapiSendHeaders ngxHttpToxicModule (s.handled call)).ended = false ∧
        (sapiSendHeaders ngxHttpToxicModule (s.handled call)).sentType
          = some (sentMimetype s.conf s.headers) := by
      rw [hsend]
      exact ⟨rfl, hstart.2.2.2, rfl⟩
    rw [if_pos hpass, if_pos hpass]
    dsimp only
    rw [hsent, if_neg Bool.false_ne_true]
    generalize sapiSendHeaders ngxHttpToxicModule (s.handled call) = u at hafter ⊢
    obtain ⟨houtput, hended, htype⟩ := hafter
    obtain ⟨calls', hdeliver⟩ := deliver_spec u
      ((outputStep s.output call).delivered.drop s.output.delivered.length)
    rw [hended, if_neg Bool.false_ne_true, hdeliver]
    refine ⟨?_, hended, htype⟩
    dsimp only
    rw [houtput]
    unfold ScriptState.handled
    rw [hempty]
    rfl
  · rw [if_neg hpass, if_neg hpass]
    exact ⟨rfl, hstart.2.2.2, rfl⟩

/-- Whether a write comes out depends on its length alone, and then what was held
comes out in front of it. -/
theorem outputOp_whole (hs : List (OutputHandler Written)) {n : Nat} (hn : 0 < n) :
    (∀ data : List Written, data.length = n → (outputOp .write hs data).2 = []) ∨
      ∃ held, (∀ data : List Written, data.length = n →
        (outputOp .write hs data).2 = held ++ data) ∧
          (held = [] → ∀ h ∈ hs, h.buffer = [] ∧ h.size ≠ 0 ∧ h.size ≤ n) := by
  induction hs generalizing n with
  | nil => exact Or.inr ⟨[], fun data _ => rfl, by simp⟩
  | cons h hs ih =>
      have hpass : ∀ data : List Written, data.length = n →
          outputOp .write (h :: hs) data =
            if h.size ≠ 0 ∧ h.size ≤ h.buffer.length + n then
              ({ h with buffer := [] } :: (outputOp .write hs (h.buffer ++ data)).1,
                (outputOp .write hs (h.buffer ++ data)).2)
            else ({ h with buffer := h.buffer ++ data } :: hs, []) := by
        intro data hlen
        have hne : data.length ≠ 0 := by omega
        rw [outputOp, handlerOp_write, if_neg hne, hlen]
        by_cases hfull : h.size ≠ 0 ∧ h.size ≤ h.buffer.length + n
        · rw [if_pos hfull, if_pos hfull]
        · rw [if_neg hfull, if_neg hfull]
      by_cases hfull : h.size ≠ 0 ∧ h.size ≤ h.buffer.length + n
      · have hlength : ∀ data : List Written, data.length = n →
            (h.buffer ++ data).length = h.buffer.length + n := by
          intro data hlen
          rw [List.length_append, hlen]
        rcases ih (show 0 < h.buffer.length + n by omega) with hnone | ⟨held, hheld, hempty⟩
        · refine Or.inl fun data hlen => ?_
          rw [hpass data hlen, if_pos hfull]
          exact hnone _ (hlength data hlen)
        · refine Or.inr ⟨held ++ h.buffer, fun data hlen => ?_, fun hnil => ?_⟩
          · rw [hpass data hlen, if_pos hfull, List.append_assoc]
            exact hheld _ (hlength data hlen)
          · obtain ⟨hheldNil, hbuffer⟩ := List.append_eq_nil_iff.mp hnil
            have hrest := hempty hheldNil
            rw [hbuffer, List.length_nil, Nat.zero_add] at hrest hfull
            exact List.forall_mem_cons.mpr ⟨⟨hbuffer, hfull⟩, hrest⟩
      · refine Or.inl fun data hlen => ?_
        rw [hpass data hlen, if_neg hfull]

/-- What one byte brings out. -/
theorem passedBy_echo (handlers : List (OutputHandler Written)) (x : UInt8) :
    passedBy handlers (.echo [x])
      = nonEmpty [(cutLength (outputOp .write handlers [(x, 0)]).2).map Prod.fst] := by
  have hfresh : OutputLayer.fresh ⟨handlers, [], [], [], [], []⟩ [x] = [(x, 0)] := rfl
  unfold passedBy outputStep OutputLayer.echo
  dsimp only
  rw [hfresh]
  unfold phpOutputWrite
  dsimp only
  split
  next hempty =>
    rw [List.isEmpty_iff.mp hempty]
    rfl
  next => rfl

/-- **Two bytes tell** whether handlers pass everything on. -/
theorem passes_of_echo {handlers : List (OutputHandler Written)}
    (h : ∀ x : UInt8, x = 97 ∨ x = 98 → passedBy handlers (.echo [x]) = [[x]]) :
    ∀ b ∈ handlers, b.size = 1 ∧ b.buffer = [] := by
  have hone : ∀ x : UInt8, [((x, 0) : Written)].length = 1 := fun _ => rfl
  rcases outputOp_whole handlers Nat.one_pos with hnone | ⟨held, hheld, hempty⟩
  · have hpass := h 97 (Or.inl rfl)
    rw [passedBy_echo, hnone _ (hone 97)] at hpass
    simp [cutLength, nonEmpty] at hpass
  · cases held with
    | nil =>
        intro b hb
        obtain ⟨hbuffer, hpos, hle⟩ := hempty rfl b hb
        exact ⟨by omega, hbuffer⟩
    | cons first held =>
        -- the first byte held comes out, whichever of the two is written
        have hfirst : ∀ x : UInt8, x = 97 ∨ x = 98 → x = first.1 := by
          intro x hx
          have hpass := h x hx
          rw [passedBy_echo, hheld _ (hone x)] at hpass
          unfold cutLength at hpass
          cases hn : (first :: held ++ [((x, 0) : Written)]).length % 2 ^ 32 with
          | zero =>
              rw [hn] at hpass
              simp [nonEmpty] at hpass
          | succ n =>
              rw [hn] at hpass
              have hhead := congrArg (fun strs => strs.head?.bind List.head?) hpass
              exact Option.some.inj (by simpa [nonEmpty] using hhead.symm)
        have := (hfirst 97 (Or.inl rfl)).trans (hfirst 98 (Or.inr rfl)).symm
        exact absurd this (by decide)

/-- What is written passes through handlers that pass everything on. -/
theorem outputOp_passes {handlers : List (OutputHandler Written)}
    (hpasses : ∀ b ∈ handlers, b.size = 1 ∧ b.buffer = []) (data : List Written) :
    (outputOp .write handlers data).2 = data := by
  induction handlers generalizing data with
  | nil => rfl
  | cons b handlers ih =>
      obtain ⟨⟨hsize, hbuffer⟩, hrest⟩ := List.forall_mem_cons.mp hpasses
      unfold outputOp
      rw [handlerOp_write]
      by_cases hdata : data.length = 0
      · obtain rfl := List.length_eq_zero_iff.mp hdata
        rfl
      · have hfull : b.size ≠ 0 ∧ b.size ≤ b.buffer.length + data.length := by
          omega
        rw [if_neg hdata, if_pos hfull, hbuffer, List.nil_append]
        exact ih hrest data

/-- Through these a text comes out as it is, but for its length. -/
theorem passedBy_passes {handlers : List (OutputHandler Written)}
    (hpasses : ∀ b ∈ handlers, b.size = 1 ∧ b.buffer = []) (text : Bytes) :
    passedBy handlers (.echo text) = nonEmpty [cutLength text] := by
  have hfresh : OutputLayer.fresh ⟨handlers, [], [], [], [], []⟩ text = text.zipIdx := rfl
  have hcut : (cutLength text.zipIdx).map Prod.fst = cutLength text := by
    unfold cutLength
    rw [List.map_take, List.zipIdx_map_fst, List.length_zipIdx]
  unfold passedBy outputStep OutputLayer.echo
  dsimp only
  rw [hfresh]
  unfold phpOutputWrite
  dsimp only
  rw [outputOp_passes hpasses, ← hcut]
  cases text with
  | nil => rfl
  | cons x text => rfl

/-- What a script echoes at its beginning, under these settings. -/
theorem respond_echo {g : Leftover} (hnone : g.callback = none) (settings : List Setting)
    (text : Bytes) :
    ∃ reply, respond g (probe settings [.echo text]) = some reply ∧
      reply.chain = storedBufs (passedBy g.handlers (.echo text)) ∧
      reply.response.headersOut.contentType =
        (if OutputLayer.passesOut ⟨g.handlers, [], [], [], [], []⟩ (.echo text) = true then
          (sentMimetype (settings.foldl ScriptConf.set g.conf) g.headers).getD
            (bytesOf "text/html")
        else []) := by
  obtain ⟨houtput, hrun, htype⟩ := outputCall_spec (s := g.ready settings) ⟨rfl, rfl, rfl, rfl⟩ hnone
    rfl (.echo text)
  have hstep : [ScriptCall.echo text].foldl (scriptStep ngxHttpToxicModule) (g.ready settings)
      = (g.ready settings).outputCall (sapiSendHeaders ngxHttpToxicModule) ngxHttpToxicModule
          (.echo text) := rfl
  obtain ⟨reply, hreply, hchain, hcontent, -⟩ := respond_probe g settings _ hstep hrun
  refine ⟨reply, hreply, ?_, ?_⟩
  · rw [hchain]
    unfold ScriptState.writes passedBy
    rw [houtput]
    rfl
  · have hready : (g.ready settings).output = ⟨g.handlers, [], [], [], [], []⟩ := rfl
    rw [hcontent, htype, hready]
    split
    next => rfl
    next => rfl

/-- An error that is displayed is echoed. -/
theorem error_spec {s : ScriptState} (hstart : s.headersSent = false ∧ s.noHeaders = false ∧
      s.callbackRun = false ∧ s.ended = false) (hnone : s.callback = none)
    (hempty : s.output.delivered = []) {e : PhpError} (hdisplay : s.conf.displayed = true)
    (hrepeated : s.repeated e = false) :
    (s.error (sapiSendHeaders ngxHttpToxicModule) ngxHttpToxicModule .warning e).output
        = outputStep s.output (.echo (e.text s.conf)) ∧
      (s.error (sapiSendHeaders ngxHttpToxicModule) ngxHttpToxicModule .warning e).ended
        = false := by
  obtain ⟨houtput, hrun, -⟩ := outputCall_spec
    (s := { s with lastError := some ⟨e.message s.conf, e.file, e.line⟩ }) hstart hnone hempty
    (.echo (e.text s.conf))
  have hparse : (ErrorKind.warning == .parse false) = false := rfl
  have hfatal : (ErrorKind.warning == .fatal) = false := rfl
  unfold ScriptState.error
  simp only [hrepeated, callIfSet_logMessage, ite_self, Bool.not_false, Bool.true_and, if_true,
    hdisplay, hrun, Bool.false_eq_true, if_false, hparse, hfatal, Bool.or_self, Bool.false_and]
  exact ⟨houtput, trivial⟩

/-- What `php_error_cb` prints without `html_errors`, and with nothing put before or
behind it. -/
def plainText (type message file : Bytes) (line : Nat) : Bytes :=
  [10] ++ type ++ bytesOf ": " ++ message ++ bytesOf " in " ++ file ++ bytesOf " on line " ++
    decimal line ++ [10]

/-- Errors are displayed in this way, and repeated ones or not. -/
def displaySettings (ignoreRepeated : Bool) : List Setting :=
  [.displayErrors true, .displayStartupErrors true, .ignoreRepeatedErrors ignoreRepeated,
    .ignoreRepeatedSource true, .other (bytesOf "html_errors") (bytesOf "0"),
    .other (bytesOf "error_prepend_string") [], .other (bytesOf "error_append_string") [],
    .other (bytesOf "error_reporting") (bytesOf "32767")]

/-- They are displayed then. -/
theorem displaySettings_displayed (ignoreRepeated : Bool) (conf : ScriptConf) :
    ((displaySettings ignoreRepeated).foldl ScriptConf.set conf).displayed = true := by
  simp [displaySettings, ScriptConf.set, ScriptConf.displayed]

/-- A notice of `ob_end_flush`. -/
def flushNotice (message : Bytes) : PhpError where
  message := fun _ => bytesOf "ob_end_flush(): " ++ message
  file := bytesOf "f"
  line := 1
  text := fun _ => plainText (bytesOf "Notice") (bytesOf "ob_end_flush(): " ++ message)
    (bytesOf "f") 1

/-- The notices of `ob_end_flush` for no handler and for one that it may not remove
differ in one byte, behind the same 36. -/
theorem flushNotice_ne (hs : List (OutputHandler Written)) (conf : ScriptConf) {n : Nat} :
    ((flushNotice (ObFunction.failed .obEndFlush ++ bytesOf "default output handler (" ++
      decimal hs.length ++ bytesOf ")")).text conf).take n
        ≠ (flushNotice (ObFunction.noBuffer .obEndFlush)).text conf := by
  intro h
  have hbyte := congrArg (fun text => text[35]?) h
  have hnone : (plainText (bytesOf "Notice")
      (bytesOf "ob_end_flush(): " ++ ObFunction.noBuffer .obEndFlush) (bytesOf "f") 1)[35]?
        = some 100 := by
    decide +kernel
  have hfailed : ((flushNotice (ObFunction.failed .obEndFlush ++ bytesOf "default output handler (" ++
      decimal hs.length ++ bytesOf ")")).text conf)[35]? = some 115 := by
    have hhead : (flushNotice (ObFunction.failed .obEndFlush ++ bytesOf "default output handler (" ++
        decimal hs.length ++ bytesOf ")")).text conf
          = ([10] ++ bytesOf "Notice" ++ bytesOf ": " ++ bytesOf "ob_end_flush(): " ++
              ObFunction.failed .obEndFlush) ++
            (bytesOf "default output handler (" ++ decimal hs.length ++ bytesOf ")" ++
              bytesOf " in " ++ bytesOf "f" ++ bytesOf " on line " ++ decimal 1 ++ [10]) := by
      simp only [flushNotice, plainText, List.append_assoc]
    rw [hhead, List.getElem?_append_left (by decide +kernel)]
    decide +kernel
  rw [List.getElem?_take, hfailed] at hbyte
  replace hbyte := hbyte.trans hnone
  split at hbyte
  next => exact absurd hbyte (by decide)
  next => cases hbyte

section Converse

variable {conf : ScriptConf} {g : Leftover}

/-- Two bytes that come out under the default type tell that nothing is held back. -/
theorem passes_of_respond (hnone : g.callback = none)
    (h : ∀ q, respond g q = respond (Leftover.fresh conf) q) :
    ∀ b ∈ g.handlers, b.size = 1 ∧ b.buffer = [] := by
  refine passes_of_echo fun x _ => ?_
  obtain ⟨reply, hreply, hchain, -⟩ := respond_echo hnone [] [x]
  obtain ⟨reply', hreply', hchain', -⟩ := respond_echo (g := Leftover.fresh conf) rfl [] [x]
  rw [h, hreply'] at hreply
  obtain rfl := Option.some.inj hreply
  have hsame := storedBufs_inj (hchain.symm.trans hchain')
  have hempty : (Leftover.fresh conf).handlers = [] := rfl
  rw [hsame, hempty, passedBy_echo]
  rfl

/-- The type of a first byte tells whether the default one is to be sent. -/
theorem sendDefault_of_respond (hnone : g.callback = none)
    (hpasses : ∀ b ∈ g.handlers, b.size = 1 ∧ b.buffer = [])
    (h : ∀ q, respond g q = respond (Leftover.fresh conf) q) :
    g.headers.sendDefaultContentType = true := by
  by_contra hdefault
  rw [Bool.not_eq_true] at hdefault
  -- the type is the left one, whatever the default is
  have htype : ∀ x : UInt8, g.headers.mimetype.getD (bytesOf "text/html") = [x] := by
    intro x
    obtain ⟨reply, hreply, hchain, htype⟩ :=
      respond_echo hnone [.defaultCharset [], .defaultMimetype [x]] [97]
    obtain ⟨reply', hreply', hchain', htype'⟩ := respond_echo (g := Leftover.fresh conf) rfl
      [.defaultCharset [], .defaultMimetype [x]] [97]
    rw [h, hreply'] at hreply
    obtain rfl := Option.some.inj hreply
    have hout : OutputLayer.passesOut ⟨g.handlers, [], [], [], [], []⟩ (.echo [97]) = true := by
      have hpassed := passedBy_passes hpasses [97]
      unfold passedBy at hpassed
      unfold OutputLayer.passesOut
      cases hdelivered : (outputStep ⟨g.handlers, [], [], [], [], []⟩ (.echo [97])).delivered with
      | nil =>
          rw [hdelivered] at hpassed
          cases hpassed
      | cons str strs => simp
    have hout' : OutputLayer.passesOut ⟨(Leftover.fresh conf).handlers, [], [], [], [], []⟩
        (.echo [97]) = true := by
      have hempty : (Leftover.fresh conf).handlers = [] := rfl
      rw [hempty]
      decide +kernel
    rw [htype', if_pos hout', if_pos hout] at htype
    have hfresh : sentMimetype
        ([Setting.defaultCharset [], .defaultMimetype [x]].foldl ScriptConf.set
          (Leftover.fresh conf).conf) (Leftover.fresh conf).headers = some [x] := by
      simp [sentMimetype, Leftover.fresh, SapiHeaders.fresh, ScriptConf.set, defaultContentType]
    have hleft : ∀ conf : ScriptConf, sentMimetype conf g.headers = g.headers.mimetype := by
      intro conf
      simp [sentMimetype, hdefault]
    rw [hfresh, hleft] at htype
    exact htype.symm
  have hsame := (htype 97).symm.trans (htype 98)
  exact absurd hsame (by decide)

/-- What an error that is displayed comes to in the reply to a probe. -/
theorem respond_error (hnone : g.callback = none) (ignoreRepeated : Bool) (call : ScriptCall)
    {e : PhpError}
    (hcall : scriptStep ngxHttpToxicModule (g.ready (displaySettings ignoreRepeated)) call
      = (g.ready (displaySettings ignoreRepeated)).error (sapiSendHeaders ngxHttpToxicModule)
          ngxHttpToxicModule .warning e)
    (hrepeated : (g.ready (displaySettings ignoreRepeated)).repeated e = false) :
    ∃ reply, respond g (probe (displaySettings ignoreRepeated) [call]) = some reply ∧
      reply.chain = storedBufs (passedBy g.handlers
        (.echo (e.text (g.ready (displaySettings ignoreRepeated)).conf))) := by
  obtain ⟨houtput, hrun⟩ := error_spec (s := g.ready (displaySettings ignoreRepeated))
    ⟨rfl, rfl, rfl, rfl⟩ hnone rfl (displaySettings_displayed ignoreRepeated g.conf) hrepeated
  have hstep : [call].foldl (scriptStep ngxHttpToxicModule)
      (g.ready (displaySettings ignoreRepeated))
        = (g.ready (displaySettings ignoreRepeated)).error (sapiSendHeaders ngxHttpToxicModule)
            ngxHttpToxicModule .warning e := hcall
  obtain ⟨reply, hreply, hchain, -⟩ := respond_probe g _ _ hstep hrun
  refine ⟨reply, hreply, ?_⟩
  rw [hchain]
  unfold ScriptState.writes passedBy
  rw [houtput]
  rfl

/-- Where repeated errors are displayed too, none is kept back. -/
theorem repeated_displaySettings (e : PhpError) :
    (g.ready (displaySettings false)).repeated e = false := by
  have hconf : (g.ready (displaySettings false)).conf.ignoreRepeatedErrors = false := by
    simp [Leftover.ready, displaySettings, ScriptConf.set]
  unfold ScriptState.repeated
  rw [hconf, Bool.false_and]

/-- The notice of a call that removes a handler tells whether there is one. -/
theorem handlers_of_respond (hnone : g.callback = none)
    (hpasses : ∀ b ∈ g.handlers, b.size = 1 ∧ b.buffer = [])
    (h : ∀ q, respond g q = respond (Leftover.fresh conf) q) : g.handlers = [] := by
  cases hhandlers : g.handlers with
  | nil => rfl
  | cons top rest =>
      exfalso
      have htop := hpasses top (by rw [hhandlers]; exact List.mem_cons_self)
      -- without a handler the notice says so
      obtain ⟨reply, hreply, hchain⟩ := respond_error (g := Leftover.fresh conf) rfl false
        (.ob .obEndFlush flushNotice) (e := flushNotice (ObFunction.noBuffer .obEndFlush))
        rfl (repeated_displaySettings _)
      have hnotice : passedBy (Leftover.fresh conf).handlers
          (.echo ((flushNotice (ObFunction.noBuffer .obEndFlush)).text
            ((Leftover.fresh conf).ready (displaySettings false)).conf))
            = [plainText (bytesOf "Notice")
                (bytesOf "ob_end_flush(): " ++ ObFunction.noBuffer .obEndFlush) (bytesOf "f") 1] := by
        rw [passedBy_passes (by simp [Leftover.fresh])]
        have hcut : nonEmpty [cutLength (plainText (bytesOf "Notice")
            (bytesOf "ob_end_flush(): " ++ ObFunction.noBuffer .obEndFlush) (bytesOf "f") 1)]
              = [plainText (bytesOf "Notice")
                (bytesOf "ob_end_flush(): " ++ ObFunction.noBuffer .obEndFlush)
                (bytesOf "f") 1] := by
          decide +kernel
        exact hcut
      rw [hnotice] at hchain
      have hrefusal : ObFunction.refusal .obEndFlush (g.ready (displaySettings false)).output.handlers
          = if top.removable = true then none
            else some (ObFunction.failed .obEndFlush ++ bytesOf "default output handler (" ++
              decimal rest.length ++ bytesOf ")") := by
        have hready : (g.ready (displaySettings false)).output.handlers = top :: rest := hhandlers
        rw [hready]
        rfl
      by_cases hremove : top.removable = true
      · -- a handler that may be removed is, and nothing comes out
        rw [if_pos hremove] at hrefusal
        have hstep : [ScriptCall.ob .obEndFlush flushNotice].foldl (scriptStep ngxHttpToxicModule)
            (g.ready (displaySettings false))
              = (g.ready (displaySettings false)).outputCall (sapiSendHeaders ngxHttpToxicModule)
                  ngxHttpToxicModule (.obEndFlush []) := by
          have hended : (g.ready (displaySettings false)).ended = false := rfl
          rw [List.foldl_cons, List.foldl_nil]
          unfold scriptStep scriptStepWith
          simp only [hended, Bool.false_eq_true, if_false, hrefusal]
          rfl
        obtain ⟨houtput, hrun, -⟩ := outputCall_spec (s := g.ready (displaySettings false))
          ⟨rfl, rfl, rfl, rfl⟩ hnone rfl (.obEndFlush [])
        obtain ⟨reply', hreply', hchain', -⟩ := respond_probe g _ _ hstep hrun
        rw [h, hreply] at hreply'
        obtain rfl := Option.some.inj hreply'
        have hsilent : ScriptState.writes ((g.ready (displaySettings false)).outputCall
            (sapiSendHeaders ngxHttpToxicModule) ngxHttpToxicModule (.obEndFlush [])) = [] := by
          have hready : (g.ready (displaySettings false)).output
              = ⟨top :: rest, [], [], [], [], []⟩ := by
            rw [← hhandlers]
            rfl
          have hdrain : handlerOp .final top [] = ({ top with buffer := [] }, none) := by
            rw [handlerOp_drain (by decide), htop.2]
            rfl
          unfold ScriptState.writes
          rw [houtput, hready]
          simp only [outputStep, hremove, if_true, hdrain]
          rfl
        have hsame := storedBufs_inj (hchain.symm.trans hchain')
        rw [hsilent] at hsame
        cases hsame
      · -- for one that may not, the notice has its name and its level
        rw [if_neg hremove] at hrefusal
        have hstep : scriptStep ngxHttpToxicModule (g.ready (displaySettings false))
            (.ob .obEndFlush flushNotice)
              = (g.ready (displaySettings false)).error (sapiSendHeaders ngxHttpToxicModule)
                  ngxHttpToxicModule .warning (flushNotice (ObFunction.failed .obEndFlush ++
                    bytesOf "default output handler (" ++ decimal rest.length ++ bytesOf ")")) := by
          have hended : (g.ready (displaySettings false)).ended = false := rfl
          unfold scriptStep scriptStepWith
          simp only [hended, Bool.false_eq_true, if_false, hrefusal]
        obtain ⟨reply', hreply', hchain'⟩ :=
          respond_error hnone false _ hstep (repeated_displaySettings _)
        rw [h, hreply] at hreply'
        obtain rfl := Option.some.inj hreply'
        have hsame := storedBufs_inj (hchain.symm.trans hchain')
        rw [passedBy_passes hpasses] at hsame
        unfold nonEmpty at hsame
        have hcut := List.mem_filter.mp (hsame ▸ List.mem_singleton_self _)
        exact flushNotice_ne rest _ (List.mem_singleton.mp hcut.1).symm

/-- A repeated error tells whether there was a last one. -/
theorem lastError_of_respond (h : ∀ q, respond g q = respond (Leftover.fresh conf) q) :
    g.lastError = none := by
  cases hlast : g.lastError with
  | none => rfl
  | some last =>
      exfalso
      -- a file name for which the text has some length that an `unsigned int` shows
      obtain ⟨file, hfile⟩ : ∃ file,
          (plainText (bytesOf "Warning") last.message file 1).length % 2 ^ 32 ≠ 0 := by
        have hlength : ∀ file, (plainText (bytesOf "Warning") last.message file 1).length
            = file.length + (plainText (bytesOf "Warning") last.message [] 1).length := by
          intro file
          simp only [plainText, List.length_append, List.length_nil]
          omega
        by_cases hzero : (plainText (bytesOf "Warning") last.message [] 1).length % 2 ^ 32 = 0
        · refine ⟨[97], ?_⟩
          rw [hlength, List.length_singleton]
          omega
        · exact ⟨[], hzero⟩
      let e : PhpError :=
        ⟨fun _ => last.message, file, 1, fun _ => plainText (bytesOf "Warning") last.message file 1⟩
      have hstep : ∀ g : Leftover, scriptStep ngxHttpToxicModule (g.ready (displaySettings true))
          (.error .warning e) = (g.ready (displaySettings true)).error
            (sapiSendHeaders ngxHttpToxicModule) ngxHttpToxicModule .warning e := fun _ => rfl
      have hfresh : ((Leftover.fresh conf).ready (displaySettings true)).repeated e = false := by
        simp [ScriptState.repeated, Leftover.ready, Leftover.begin, Leftover.fresh]
      have hrepeated : (g.ready (displaySettings true)).repeated e = true := by
        simp [ScriptState.repeated, Leftover.ready, Leftover.begin, hlast, displaySettings,
          ScriptConf.set, e]
      obtain ⟨reply, hreply, hchain⟩ := respond_error (g := Leftover.fresh conf) rfl true _
        (hstep _) hfresh
      have hquiet : (g.ready (displaySettings true)).error (sapiSendHeaders ngxHttpToxicModule)
          ngxHttpToxicModule .warning e = g.ready (displaySettings true) := by
        have hended : (g.ready (displaySettings true)).ended = false := rfl
        have hparse : (ErrorKind.warning == .parse false) = false := rfl
        have hfatal : (ErrorKind.warning == .fatal) = false := rfl
        unfold ScriptState.error
        simp only [hrepeated, Bool.not_true, Bool.false_and, Bool.false_eq_true, if_false, hended,
          hparse, hfatal, Bool.or_self]
        rw [← hended]
      obtain ⟨reply', hreply', hchain', -⟩ := respond_probe g _ [.error .warning e]
        (s := g.ready (displaySettings true)) ((hstep g).trans hquiet) rfl
      rw [h, hreply] at hreply'
      obtain rfl := Option.some.inj hreply'
      have hsame := storedBufs_inj (hchain.symm.trans hchain')
      have hempty : (Leftover.fresh conf).handlers = [] := rfl
      rw [hempty, passedBy_passes (by simp)] at hsame
      have hwrites : (g.ready (displaySettings true)).writes = [] := rfl
      rw [hwrites] at hsame
      have hcut : cutLength (plainText (bytesOf "Warning") last.message file 1) = [] := by
        by_contra hne
        unfold nonEmpty at hsame
        exact List.filter_eq_nil_iff.mp hsame _ (List.mem_singleton_self _) (by simpa using hne)
      have hzero := congrArg List.length hcut
      unfold cutLength at hzero
      rw [List.length_take, List.length_nil] at hzero
      have := Nat.mod_le (plainText (bytesOf "Warning") last.message file 1).length (2 ^ 32)
      omega

/-- **Of the leftovers with the settings of the start and without a header callback,
only a neutral one changes no reply.** -/
theorem neutral_of_respond (hconf : g.conf = conf) (hnone : g.callback = none)
    (h : ∀ q, respond g q = respond (Leftover.fresh conf) q) : Neutral conf g := by
  have hpasses := passes_of_respond hnone h
  have hhandlers := handlers_of_respond hnone hpasses h
  refine ⟨?_, hconf, sendDefault_of_respond hnone hpasses h, hnone,
    lastError_of_respond h, hhandlers⟩
  -- a script that does nothing announces `base_len`
  obtain ⟨reply, hreply, -, -, hlength⟩ :=
    respond_probe g [] [] (s := g.ready []) rfl rfl
  obtain ⟨reply', hreply', -, -, hlength'⟩ :=
    respond_probe (Leftover.fresh conf) [] [] (s := (Leftover.fresh conf).ready []) rfl rfl
  rw [h, hreply'] at hreply
  obtain rfl := Option.some.inj hreply
  exact hlength.symm.trans hlength'

end Converse

/-- A reply clears `$_POST`. -/
theorem after_post {conf : ScriptConf} {history : List ToxicRequest} {g : Leftover}
    (h : after conf history = some g) : g.post = [] := by
  have hone : ∀ {g g' : Leftover} {q : ToxicRequest},
      (g.excecute q).map Prod.snd = some g' → g'.post = [] := by
    intro g g' q hq
    unfold Leftover.excecute at hq
    dsimp only at hq
    split at hq
    next => cases hq
    next =>
      obtain rfl := Option.some.inj hq
      rfl
  have hrun : ∀ (history : List ToxicRequest) (start : Leftover), start.post = [] →
      history.foldlM (fun g q => (g.excecute q).map Prod.snd) start = some g →
        g.post = [] := by
    intro history
    induction history with
    | nil =>
        intro start hstart hg
        obtain rfl := Option.some.inj hg
        exact hstart
    | cons q history ih =>
        intro start _ hg
        rw [List.foldlM_cons] at hg
        obtain ⟨next, hnext, hrest⟩ := Option.bind_eq_some_iff.mp hg
        exact ih next (hone hnext) hrest
  exact hrun history (Leftover.fresh conf) rfl h

/-- The character set is set. -/
def utf8Conf : ScriptConf := { plainConf with defaultCharset := bytesOf "UTF-8" }

end Toxic
