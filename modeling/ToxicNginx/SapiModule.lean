import Mathlib.Logic.Function.Basic
import ToxicNginx.OutputHandlers
import ToxicNginx.SapiHeaders

/-!
# The functions of the SAPI module

`struct _sapi_module_struct` has got three more members, but `php_embed.c` still
lists its initial values by position.  So a value stands in the slot its
position gives it, and a call goes to what stands in the slot.

* `Member`, `structMembers`, `phpEmbedInitializer` — the members in their order,
  the values in theirs; `ngxHttpToxicModule` — what the directive makes of them;
* `meant_iff` — which function members hold a function of their type;
* `scriptStepWith` — one operation of a script, with the calls it makes;
  `sapiSendHeaders`, `headerCallbackStep` — the headers are sent, in which a header callback
  makes operations of its own;
* `WellWired` — every slot that was called holds a function meant for it;
* `Wired`, `WiredRun` — the operations that do not reach a slot in disorder;
* `wellWired_run` — what holds of each operation holds of a sequence;
* `wellWired_iff` — the exact condition for every sequence of operations.
-/

namespace Toxic

/-- The C types in the signatures. -/
inductive CType
  | void
  | int
  | unsignedInt
  | double
  | sizeT
  | charPtr
  | constCharPtr
  | charPtrPtr
  | intPtr
  | unsignedIntPtr
  | voidPtr
  | zvalPtr
  | statPtr
  | uidPtr
  | gidPtr
  | hashTablePtr
  | sapiModulePtr
  | headerPtr
  | headersPtr
  | headerOpEnum
  | headerLine
  | variadic
  deriving DecidableEq, Repr

/-- The type of a function. -/
structure Signature where
  params : List CType
  result : CType
  deriving DecidableEq, Repr

/-- The members of `struct _sapi_module_struct`. -/
inductive Member
  | name
  | prettyName
  | startup
  | shutdown
  | activate
  | deactivate
  | ubWrite
  | toxicOutput
  | isToxic
  | flush
  | getStat
  | getenv
  | sapiError
  | headerHandler
  | sendHeaders
  | sendHeader
  | toxicHeaderHandler
  | readPost
  | readCookies
  | registerServerVariables
  | logMessage
  | getRequestTime
  | terminateProcess
  | phpIniPathOverride
  | blockInterruptions
  | unblockInterruptions
  | defaultPostReader
  | treatData
  | executableLocation
  | phpIniIgnore
  | phpIniIgnoreCwd
  | getFd
  | forceHttp10
  | getTargetUid
  | getTargetGid
  | inputFilter
  | iniDefaults
  | phpinfoAsText
  | iniEntries
  | additionalFunctions
  | inputFilterInit
  deriving DecidableEq, Repr

/-- The members in the order of the struct. -/
def structMembers : List Member :=
  [.name, .prettyName, .startup, .shutdown, .activate, .deactivate, .ubWrite, .toxicOutput,
    .isToxic, .flush, .getStat, .getenv, .sapiError, .headerHandler, .sendHeaders, .sendHeader,
    .toxicHeaderHandler, .readPost, .readCookies, .registerServerVariables, .logMessage,
    .getRequestTime, .terminateProcess, .phpIniPathOverride, .blockInterruptions,
    .unblockInterruptions, .defaultPostReader, .treatData, .executableLocation, .phpIniIgnore,
    .phpIniIgnoreCwd, .getFd, .forceHttp10, .getTargetUid, .getTargetGid, .inputFilter,
    .iniDefaults, .phpinfoAsText, .iniEntries, .additionalFunctions, .inputFilterInit]

/-- The type of a function member; `none` for a member that is no function. -/
def Member.signature : Member → Option Signature
  | .name | .prettyName | .isToxic | .phpIniPathOverride | .executableLocation | .phpIniIgnore
  | .phpIniIgnoreCwd | .phpinfoAsText | .iniEntries | .additionalFunctions => none
  | .startup | .shutdown => some ⟨[.sapiModulePtr], .int⟩
  | .activate | .deactivate | .forceHttp10 => some ⟨[], .int⟩
  | .ubWrite => some ⟨[.constCharPtr, .unsignedInt], .int⟩
  | .toxicOutput => some ⟨[.constCharPtr, .unsignedInt, .constCharPtr, .unsignedInt], .int⟩
  | .flush => some ⟨[.voidPtr], .void⟩
  | .getStat => some ⟨[], .statPtr⟩
  | .getenv => some ⟨[.charPtr, .sizeT], .charPtr⟩
  | .sapiError => some ⟨[.int, .constCharPtr, .variadic], .void⟩
  | .headerHandler => some ⟨[.headerPtr, .headerOpEnum, .headersPtr], .int⟩
  | .sendHeaders => some ⟨[.headersPtr], .int⟩
  | .sendHeader => some ⟨[.headerPtr, .voidPtr], .void⟩
  | .toxicHeaderHandler => some ⟨[.headerLine], .void⟩
  | .readPost => some ⟨[.charPtr, .unsignedInt], .int⟩
  | .readCookies => some ⟨[], .charPtr⟩
  | .registerServerVariables => some ⟨[.zvalPtr], .void⟩
  | .logMessage => some ⟨[.charPtr], .void⟩
  | .getRequestTime => some ⟨[], .double⟩
  | .terminateProcess | .blockInterruptions | .unblockInterruptions | .defaultPostReader =>
      some ⟨[], .void⟩
  | .treatData => some ⟨[.int, .charPtr, .zvalPtr], .void⟩
  | .getFd => some ⟨[.intPtr], .int⟩
  | .getTargetUid => some ⟨[.uidPtr], .int⟩
  | .getTargetGid => some ⟨[.gidPtr], .int⟩
  | .inputFilter =>
      some ⟨[.int, .charPtr, .charPtrPtr, .unsignedInt, .unsignedIntPtr], .unsignedInt⟩
  | .iniDefaults => some ⟨[.hashTablePtr], .void⟩
  | .inputFilterInit => some ⟨[], .unsignedInt⟩

/-- The functions that are put into the struct. -/
inductive Fn
  | phpEmbedStartup
  | phpModuleShutdownWrapper
  | phpEmbedDeactivate
  | phpEmbedUbWrite
  | phpEmbedFlush
  | phpError
  | phpEmbedSendHeader
  | phpEmbedReadCookies
  | phpEmbedRegisterVariables
  | phpEmbedLogMessage
  | toxicOutput
  | toxicSendHeader
  | toxicHeaderFunction
  | phpDefaultPostReader
  | phpDefaultTreatData
  | phpDefaultInputFilter
  deriving DecidableEq, Repr

/-- The type a function is defined with. -/
def Fn.signature : Fn → Signature
  | .phpEmbedStartup | .phpModuleShutdownWrapper => ⟨[.sapiModulePtr], .int⟩
  | .phpEmbedDeactivate => ⟨[], .int⟩
  | .phpEmbedUbWrite => ⟨[.constCharPtr, .unsignedInt], .int⟩
  | .phpEmbedFlush => ⟨[.voidPtr], .void⟩
  | .phpError => ⟨[.int, .constCharPtr, .variadic], .void⟩
  | .phpEmbedSendHeader => ⟨[.headerPtr, .voidPtr], .void⟩
  | .phpEmbedReadCookies => ⟨[], .charPtr⟩
  | .phpEmbedRegisterVariables => ⟨[.zvalPtr], .void⟩
  | .phpEmbedLogMessage => ⟨[.charPtr], .void⟩
  | .toxicOutput => ⟨[.constCharPtr, .unsignedInt, .constCharPtr, .unsignedInt], .int⟩
  | .toxicSendHeader => ⟨[.headersPtr], .int⟩
  | .toxicHeaderFunction => ⟨[.headerLine], .void⟩
  | .phpDefaultPostReader => ⟨[], .void⟩
  | .phpDefaultTreatData => ⟨[.int, .charPtr, .zvalPtr], .void⟩
  | .phpDefaultInputFilter =>
      ⟨[.int, .charPtr, .charPtrPtr, .unsignedInt, .unsignedIntPtr], .unsignedInt⟩

/-- The value of a member; `zero` is `NULL`, or 0. -/
inductive Value
  | zero
  | fn (f : Fn)
  | text (s : String)
  | int (n : Nat)
  | functions
  deriving DecidableEq, Repr

/-- The initial values of `php_embed_module`; `STANDARD_SAPI_MODULE_PROPERTIES`
is empty, so the rest is zero. -/
def phpEmbedInitializer : List Value :=
  [.text "embed", .text "PHP Embedded Library", .fn .phpEmbedStartup,
    .fn .phpModuleShutdownWrapper, .zero, .fn .phpEmbedDeactivate, .fn .phpEmbedUbWrite,
    .fn .phpEmbedFlush, .zero, .zero, .fn .phpError, .zero, .zero, .fn .phpEmbedSendHeader, .zero,
    .fn .phpEmbedReadCookies, .fn .phpEmbedRegisterVariables, .fn .phpEmbedLogMessage, .zero,
    .zero]

/-- A `sapi_module_struct`. -/
abbrev SapiModule := Member → Value

/-- `php_embed_module`: each value in the slot of its position. -/
def phpEmbedModule : SapiModule := fun m =>
  (phpEmbedInitializer[structMembers.idxOf m]?).getD .zero

/-- `sapi_module` after `ngx_http_toxic`: its assignments, those of
`php_embed_init`, and the registrations of `php_module_startup`. -/
def ngxHttpToxicModule : SapiModule :=
  let sf := Function.update phpEmbedModule .toxicOutput (.fn .toxicOutput)
  let sf := Function.update sf .sendHeaders (.fn .toxicSendHeader)
  let sf := Function.update sf .toxicHeaderHandler (.fn .toxicHeaderFunction)
  let sf := Function.update sf .isToxic (.int 1)
  let sf := Function.update sf .getStat .zero
  let sf := Function.update sf .iniEntries (.text "HARDCODED_INI")
  let sf := Function.update sf .additionalFunctions .functions
  let sf := Function.update sf .defaultPostReader (.fn .phpDefaultPostReader)
  let sf := Function.update sf .treatData (.fn .phpDefaultTreatData)
  Function.update sf .inputFilter (.fn .phpDefaultInputFilter)

/-- A slot holds a function with the parameters and the result of the slot. -/
def Meant (m : Member) : Value → Bool
  | .fn f => m.signature == some f.signature
  | _ => false

/-- **The wiring.**  A slot that is not empty holds a function meant for it,
except for three that hold the function of another slot. -/
theorem meant_iff {m : Member} (hfn : m.signature ≠ none) (hset : ngxHttpToxicModule m ≠ .zero) :
    Meant m (ngxHttpToxicModule m) = true ↔
      m ≠ .headerHandler ∧ m ≠ .sendHeader ∧ m ≠ .readPost := by
  revert hfn hset
  cases m <;> decide

/-- How the engine is set up: whether `header_handler`'s caller finds
`SAPI_HEADER_ADD` in the return register, the content type it sends by default,
where errors go, and the other settings by their names. -/
structure ScriptConf where
  handlerAdds : Bool
  defaultCharset : Bytes
  defaultMimetype : Bytes
  displayErrors : Bool
  duringRequestStartup : Bool
  displayStartupErrors : Bool
  logErrors : Bool
  errorLog : Bool
  ignoreRepeatedErrors : Bool
  ignoreRepeatedSource : Bool
  other : Bytes → Option Bytes

/-- A setting with a new value. -/
inductive Setting
  | defaultCharset (value : Bytes)
  | defaultMimetype (value : Bytes)
  | displayErrors (on : Bool)
  | displayStartupErrors (on : Bool)
  | logErrors (on : Bool)
  | errorLog (on : Bool)
  | ignoreRepeatedErrors (on : Bool)
  | ignoreRepeatedSource (on : Bool)
  | other (name value : Bytes)
  deriving DecidableEq, Repr

/-- `ini_set`, for a setting that accepts the value. -/
def ScriptConf.set (conf : ScriptConf) : Setting → ScriptConf
  | .defaultCharset value => { conf with defaultCharset := value }
  | .defaultMimetype value => { conf with defaultMimetype := value }
  | .displayErrors on => { conf with displayErrors := on }
  | .displayStartupErrors on => { conf with displayStartupErrors := on }
  | .logErrors on => { conf with logErrors := on }
  | .errorLog on => { conf with errorLog := on }
  | .ignoreRepeatedErrors on => { conf with ignoreRepeatedErrors := on }
  | .ignoreRepeatedSource on => { conf with ignoreRepeatedSource := on }
  | .other name value => { conf with other := Function.update conf.other name (some value) }

/-- Whether `php_error_cb` prints an error. -/
def ScriptConf.displayed (conf : ScriptConf) : Bool :=
  conf.displayErrors && (!conf.duringRequestStartup || conf.displayStartupErrors)

/-- What `sapi_header_op` finds; the embedded engine has no request method. -/
def ScriptConf.headerEnv (conf : ScriptConf) (sf : SapiModule) : HeaderEnv where
  handler := if sf .headerHandler = .zero then none else some conf.handlerAdds
  requestMethod := none
  protoNum := 1000
  defaultCharset := conf.defaultCharset
  defaultMimetype := conf.defaultMimetype

/-- What `php_error_cb` does behind the message. -/
inductive ErrorKind
  | warning
  | parse (duringEval : Bool)
  | fatal
  deriving DecidableEq, Repr

/-- An error, with what the settings make of it: the message that `php_verror` has
formatted, and what is printed of it, nothing where `error_reporting` leaves it
out. -/
structure PhpError where
  message : ScriptConf → Bytes
  file : Bytes
  line : Int32
  text : ScriptConf → Bytes

/-- `PG(last_error_message)`, `PG(last_error_file)` and `PG(last_error_lineno)`. -/
structure LastError where
  message : Bytes
  file : Bytes
  line : Int32
  deriving DecidableEq, Repr

/-- The functions that take the top handler of the stack. -/
inductive ObFunction
  | obFlush
  | obClean
  | obEndFlush
  | obEndClean
  deriving DecidableEq, Repr

/-- What a function does to the stack where it finds a handler that it may take. -/
def ObFunction.call : ObFunction → OutputCall
  | .obFlush => .obFlush []
  | .obClean => .obClean []
  | .obEndFlush => .obEndFlush []
  | .obEndClean => .obEndClean []

/-- The ability flag that a function asks for. -/
def ObFunction.ability (fn : ObFunction) (h : OutputHandler Written) : Bool :=
  match fn with
  | .obFlush => h.flushable
  | .obClean => h.cleanable
  | .obEndFlush | .obEndClean => h.removable

/-- The notice of a function that finds no handler. -/
def ObFunction.noBuffer : ObFunction → Bytes
  | .obFlush => bytesOf "failed to flush buffer. No buffer to flush"
  | .obClean | .obEndClean => bytesOf "failed to delete buffer. No buffer to delete"
  | .obEndFlush => bytesOf "failed to delete and flush buffer. No buffer to delete or flush"

/-- The beginning of the notice of a function that may not take its handler. -/
def ObFunction.failed : ObFunction → Bytes
  | .obFlush => bytesOf "failed to flush buffer of "
  | .obClean => bytesOf "failed to delete buffer of "
  | .obEndFlush => bytesOf "failed to send buffer of "
  | .obEndClean => bytesOf "failed to discard buffer of "

/-- The notice of a function that fails, with the name and the level of the
handler. -/
def ObFunction.refusal (fn : ObFunction) : List (OutputHandler Written) → Option Bytes
  | [] => some fn.noBuffer
  | h :: hs =>
      if fn.ability h then none
      else
        some (fn.failed ++ bytesOf "default output handler (" ++ decimal hs.length ++ bytesOf ")")

/-- An operation of a script.  An error site is what `php_error_docref` makes of a
message there. -/
inductive ScriptCall
  | header (call : HeaderCall)
  | echo (text : Bytes)
  | obStart (chunkSize : Int) (cleanable flushable removable : Bool)
  | ob (fn : ObFunction) (site : Bytes → PhpError)
  | flush
  | error (kind : ErrorKind) (e : PhpError)
  | readInput
  | iniSet (setting : Setting)
  | headerRegisterCallback (callback : List ScriptCall)

/-- The state of a script: the settings, its output layer, `SG`, the last error,
whether it has ended by a bailout or a crash, the slots of `sapi_module` that were
called, the lines `toxic_header_handler` has got, and the MIME type
`header_callback` has got. -/
structure ScriptState where
  conf : ScriptConf
  output : OutputLayer
  headers : SapiHeaders
  headersSent : Bool
  noHeaders : Bool
  callbackRun : Bool
  /-- `SG(callback_func)`. -/
  callback : Option (List ScriptCall)
  postRead : Bool
  lastError : Option LastError
  ended : Bool
  calls : List Member
  lines : List Bytes
  sentType : Option (Option Bytes)

/-- A slot is called; the call of an empty one is the end. -/
def ScriptState.call (sf : SapiModule) (s : ScriptState) (slot : Member) : ScriptState :=
  { s with calls := s.calls ++ [slot], ended := s.ended || decide (sf slot = .zero) }

/-- A slot is called where it is not empty. -/
def ScriptState.callIfSet (sf : SapiModule) (s : ScriptState) (slot : Member) : ScriptState :=
  if sf slot = .zero then s else s.call sf slot

/-- The slot of a call that `sapi_header_op` makes. -/
def SapiCall.slot : SapiCall → Member
  | .headerHandler => .headerHandler
  | .sapiError _ => .sapiError

/-- The result of an operation on the header list. -/
def ScriptState.applied (sf : SapiModule) (s : ScriptState) (result : HeaderResult) : ScriptState :=
  (result.calls.map SapiCall.slot).foldl (ScriptState.call sf) { s with headers := result.headers }

/-- `SG(headers_sent) && !SG(request_info).no_headers`. -/
def ScriptState.sent (s : ScriptState) : Bool := s.headersSent && !s.noHeaders

/-- `get_default_content_type`. -/
def defaultContentType (conf : ScriptConf) : Bytes :=
  if conf.defaultCharset ≠ [] ∧
      eqNoCase (conf.defaultMimetype.take 5) (bytesOf "text/") then
    conf.defaultMimetype ++ bytesOf "; charset=" ++ conf.defaultCharset
  else conf.defaultMimetype

/-- Whether a call brings a string out of the output handlers. -/
def OutputLayer.passesOut (o : OutputLayer) (call : OutputCall) : Bool :=
  o.delivered.length < (outputStep { o with index := o.key } call).delivered.length

/-- `php_output_op` behind the handlers: the state in which `php_output_header` is
called. -/
def ScriptState.handled (s : ScriptState) (call : OutputCall) : ScriptState :=
  { s with output := { outputStep s.output call with delivered := s.output.delivered } }

/-- The write to the SAPI, and the flush behind it. -/
def ScriptState.deliver (sf : SapiModule) (s : ScriptState) (strs : List (List Written)) :
    ScriptState :=
  let s := if sf .isToxic ≠ .zero then s.call sf .toxicOutput else s.call sf .ubWrite
  let s := { s with output := { s.output with delivered := s.output.delivered ++ strs } }
  s.callIfSet sf .flush

/-- A call that concerns the output.  `send` is `sapi_send_headers`, in which a header
callback may bail out. -/
def ScriptState.outputCall (send : ScriptState → ScriptState) (sf : SapiModule) (s : ScriptState)
    (call : OutputCall) : ScriptState :=
  if s.output.passesOut call then
    let strs := (outputStep s.output call).delivered.drop s.output.delivered.length
    let s := s.handled call
    let s := if s.headersSent then s else send s
    if s.ended then s else s.deliver sf strs
  else { s with output := outputStep s.output call }

/-- The status line of a fatal error. -/
def internalServerError : Bytes := bytesOf "HTTP/1.0 500 Internal Server Error"

/-- Whether an error is one more of the last one. -/
def ScriptState.repeated (s : ScriptState) (e : PhpError) : Bool :=
  s.conf.ignoreRepeatedErrors &&
    match s.lastError with
    | none => false
    | some last =>
        last.message == e.message s.conf &&
          (s.conf.ignoreRepeatedSource || (last.line == e.line && last.file == e.file))

/-- `php_error_cb`. -/
def ScriptState.error (send : ScriptState → ScriptState) (sf : SapiModule) (s : ScriptState)
    (kind : ErrorKind) (e : PhpError) : ScriptState :=
  let display := !s.repeated e
  let s :=
    if display then { s with lastError := some ⟨e.message s.conf, e.file, e.line⟩ } else s
  let s :=
    if display && s.conf.logErrors && !s.conf.errorLog then s.callIfSet sf .logMessage else s
  let s :=
    if display && s.conf.displayed then s.outputCall send sf (.echo (e.text s.conf)) else s
  if s.ended then s
  else
    let s :=
      if (kind == .parse false || kind == .fatal) && !s.conf.displayErrors && !s.headersSent &&
          s.headers.httpResponseCode == 200 then
        s.applied sf (sapiHeaderOp (s.conf.headerEnv sf) s.sent (.set true internalServerError 0)
          s.headers)
      else s
    { s with ended := s.ended || kind == .fatal }

/-- One operation, with `send` for `sapi_send_headers`; nothing follows a crash or a
bailout. -/
def scriptStepWith (send : ScriptState → ScriptState) (sf : SapiModule) (s : ScriptState)
    (call : ScriptCall) : ScriptState :=
  if s.ended then s
  else
    match call with
    | .header (.header line _ _) =>
        if sf .toxicHeaderHandler = .zero then s
        else { s.call sf .toxicHeaderHandler with lines := s.lines ++ [line] }
    | .header call => s.applied sf (sapiCall (s.conf.headerEnv sf) s.sent call s.headers)
    | .echo text => s.outputCall send sf (.echo text)
    | .obStart chunkSize cleanable flushable removable =>
        s.outputCall send sf (.obStart chunkSize cleanable flushable removable)
    | .ob fn site =>
        match fn.refusal s.output.handlers with
        | some message => s.error send sf .warning (site message)
        | none => s.outputCall send sf fn.call
    | .flush => s.callIfSet sf .flush
    | .error kind e => s.error send sf kind e
    | .readInput =>
        -- `sapi_read_post_block`; the engine has read nothing of the body
        if s.postRead then s else { s.callIfSet sf .readPost with postRead := true }
    | .iniSet setting => { s with conf := s.conf.set setting }
    | .headerRegisterCallback callback => { s with callback := some callback }

/-- Whether an operation uses the output handlers. -/
def ScriptState.prints (s : ScriptState) : ScriptCall → Bool
  | .echo text => !text.isEmpty
  | .obStart _ _ _ _ | .ob _ _ => true
  | .error _ _ => s.conf.displayed
  | _ => false

/-- An operation of a header callback, for which `sapi_send_headers` does nothing.
While a handler is open its buffer is the string that is being sent, and what a
callback prints would be put into it: this is not followed. -/
def headerCallbackStep (sf : SapiModule) (busy : Bool) (s : ScriptState) (call : ScriptCall) :
    ScriptState :=
  if busy && s.prints call then { s with ended := true }
  else scriptStepWith (fun s => s) sf s call

/-- `sapi_run_header_callback`, where there is one. -/
def ScriptState.runHeaderCallback (sf : SapiModule) (s : ScriptState) : ScriptState :=
  match s.callback with
  | none => s
  | some calls =>
      calls.foldl (headerCallbackStep sf !s.output.handlers.isEmpty) { s with callbackRun := true }

/-- The default content type is sent, where it is to be. -/
def ScriptState.sendDefault (sf : SapiModule) (s : ScriptState) : ScriptState :=
  if s.headers.sendDefaultContentType && decide (sf .sendHeaders ≠ .zero) then
    let mimetype := defaultContentType s.conf
    s.applied sf (sapiHeaderAddOp (s.conf.headerEnv sf) false
      (bytesOf "Content-type: " ++ mimetype)
      { s.headers with mimetype := some mimetype, sendDefaultContentType := false })
  else s

/-- `sapi_send_headers` from `SG(headers_sent) = 1` on.  What `send_headers` holds is
`toxic_send_header`, which sends nothing itself, hands the content type to
`header_callback` and returns `SAPI_HEADER_SENT_SUCCESSFULLY`. -/
def ScriptState.sendRest (sf : SapiModule) (s : ScriptState) : ScriptState :=
  let s := { s with headersSent := true }
  let s :=
    if sf .sendHeaders ≠ .zero then
      let s := s.call sf .sendHeaders
      { s with sentType := some s.headers.mimetype, headers := { s.headers with mimetype := none } }
    else
      -- `SAPI_HEADER_DO_SEND`: the status line, the fields and the end
      (List.replicate (s.headers.headers.length + 2) Member.sendHeader).foldl
        (ScriptState.call sf) s
  { s with headers := { s.headers with httpStatusLine := none } }

/-- `sapi_send_headers`. -/
def sapiSendHeaders (sf : SapiModule) (s : ScriptState) : ScriptState :=
  if s.headersSent || s.noHeaders || s.callbackRun then s
  else
    let s := (s.sendDefault sf).runHeaderCallback sf
    -- a bailout of the callback
    if s.ended then s else s.sendRest sf

/-- One operation of a script. -/
def scriptStep (sf : SapiModule) : ScriptState → ScriptCall → ScriptState :=
  scriptStepWith (sapiSendHeaders sf) sf

/-- Every slot that was called holds a function meant for it. -/
def WellWired (sf : SapiModule) (s : ScriptState) : Prop :=
  ∀ slot ∈ s.calls, Meant slot (sf slot) = true

/-- `sapi_send_headers` goes on: the headers are neither sent nor suppressed, and no
callback is running. -/
def ScriptState.sends (s : ScriptState) : Bool := !s.headersSent && !s.noHeaders && !s.callbackRun

/-- An output call that reaches no slot in disorder: no byte comes out of the handlers
where the headers cannot be sent in order. -/
def OutputWired (sends : ScriptState → Prop) (s : ScriptState) (call : OutputCall) : Prop :=
  s.output.passesOut call = true → s.headersSent = false → sends (s.handled call)

/-- An error that reaches none. -/
def ErrorWired (sends : ScriptState → Prop) (s : ScriptState) (e : PhpError) : Prop :=
  s.repeated e = false → s.conf.displayed = true →
    OutputWired sends { s with lastError := some ⟨e.message s.conf, e.file, e.line⟩ }
      (.echo (e.text s.conf))

/-- The operations that reach no slot in disorder, where `sends` says when the headers
can be sent: they do not go through `sapi_header_op` with a field, a cookie, a name,
or headers that are sent; no byte comes out of the handlers where the headers cannot be
sent; and the body is not read. -/
def WiredWith (sends : ScriptState → Prop) (s : ScriptState) : ScriptCall → Prop
  | .header (.header _ _ _) => True
  | .header (.setcookie cookie) => phpSetcookie cookie = none
  | .header (.headerRemove none) => False
  | .header (.headerRemove (some name)) => name = [] ∧ s.sent = false
  | .header (.httpResponseCode _) => True
  | .echo text => OutputWired sends s (.echo text)
  | .obStart chunkSize cleanable flushable removable =>
      OutputWired sends s (.obStart chunkSize cleanable flushable removable)
  | .ob fn site =>
      match fn.refusal s.output.handlers with
      | some message => ErrorWired sends s (site message)
      | none => OutputWired sends s fn.call
  | .flush => True
  | .error _ e => ErrorWired sends s e
  | .readInput => s.postRead = true
  | .iniSet _ => True
  | .headerRegisterCallback _ => True

/-- Every operation of a sequence is `ok` where it takes place. -/
def RunWired (step : ScriptState → ScriptCall → ScriptState)
    (ok : ScriptState → ScriptCall → Prop) : ScriptState → List ScriptCall → Prop
  | _, [] => True
  | s, call :: calls => ok s call ∧ RunWired step ok (step s call) calls

/-- An operation of a header callback that reaches no slot in disorder; the headers are
not sent again there. -/
def CallbackWired (busy : Bool) (s : ScriptState) (call : ScriptCall) : Prop :=
  (busy && s.prints call) = true ∨ s.ended = true ∨ WiredWith (fun _ => True) s call

/-- The headers can be sent in order: the default content type is not to be sent, and
every operation of the header callback is one of these. -/
def SendWired (sf : SapiModule) (s : ScriptState) : Prop :=
  s.sends = true → s.headers.sendDefaultContentType = false ∧
    match s.callback with
    | none => True
    | some calls =>
        RunWired (headerCallbackStep sf !s.output.handlers.isEmpty)
          (CallbackWired !s.output.handlers.isEmpty) { s with callbackRun := true } calls

/-- The operations of a script that reach no slot in disorder. -/
def Wired (sf : SapiModule) (s : ScriptState) (call : ScriptCall) : Prop :=
  s.ended = true ∨ WiredWith (SendWired sf) s call

/-- Every operation of a script is one of these, where it takes place. -/
def WiredRun (sf : SapiModule) : ScriptState → List ScriptCall → Prop :=
  RunWired (scriptStep sf) (Wired sf)

/-- The engine after `php_embed_init`. -/
def ScriptState.fresh (conf : ScriptConf) (key : Bytes) : ScriptState where
  conf := conf
  output := OutputLayer.start key []
  headers := .fresh
  headersSent := true
  noHeaders := true
  callbackRun := false
  callback := none
  postRead := false
  lastError := none
  ended := false
  calls := []
  lines := []
  sentType := none

/-- What `toxic_excecute` resets before `Start` is called; of this script no slot
has been called. -/
def ScriptState.begin (s : ScriptState) : ScriptState :=
  { s with
    headersSent := false, callbackRun := false, noHeaders := false, ended := false, calls := []
    lines := [], sentType := none }

/-- A call is well wired when its slot holds a function meant for it. -/
theorem wellWired_call {sf : SapiModule} {s : ScriptState} {slot : Member} :
    WellWired sf (s.call sf slot) ↔ WellWired sf s ∧ Meant slot (sf slot) = true := by
  unfold WellWired ScriptState.call
  rw [List.forall_mem_append, List.forall_mem_singleton]

/-- A call where the slot is not empty. -/
theorem wellWired_callIfSet {sf : SapiModule} {s : ScriptState} {slot : Member}
    (h : sf slot = .zero ∨ Meant slot (sf slot) = true) :
    WellWired sf (s.callIfSet sf slot) ↔ WellWired sf s := by
  unfold ScriptState.callIfSet
  split
  next => rfl
  next hset =>
    rw [wellWired_call]
    exact and_iff_left (h.resolve_left hset)

/-- The calls of a result are made one after the other. -/
theorem wellWired_foldl_call {sf : SapiModule} (slots : List Member) (s : ScriptState) :
    WellWired sf (slots.foldl (ScriptState.call sf) s) ↔
      WellWired sf s ∧ ∀ slot ∈ slots, Meant slot (sf slot) = true := by
  induction slots generalizing s with
  | nil => simp
  | cons slot slots ih =>
      rw [List.foldl_cons, ih, wellWired_call, List.forall_mem_cons, and_assoc]

/-- **A sequence of operations** is well wired when each of them is. -/
theorem wellWired_run {sf : SapiModule} {step : ScriptState → ScriptCall → ScriptState}
    {ok : ScriptState → ScriptCall → Prop}
    (hstep : ∀ s call, WellWired sf (step s call) ↔ WellWired sf s ∧ ok s call)
    (calls : List ScriptCall) (s : ScriptState) :
    WellWired sf (calls.foldl step s) ↔ WellWired sf s ∧ RunWired step ok s calls := by
  induction calls generalizing s with
  | nil => simp [RunWired]
  | cons call calls ih => rw [List.foldl_cons, ih, hstep, RunWired, and_assoc]

/-- Neither slot that `sapi_header_op` calls holds a function meant for it. -/
theorem slot_not_meant (call : SapiCall) :
    Meant call.slot (ngxHttpToxicModule call.slot) = false := by
  cases call with
  | headerHandler => decide
  | sapiError message =>
      have hslot : (SapiCall.sapiError message).slot = .sapiError := rfl
      rw [hslot]
      decide

/-- An operation on the header list is well wired when it calls nothing. -/
theorem wellWired_applied {s : ScriptState} {result : HeaderResult} :
    WellWired ngxHttpToxicModule (s.applied ngxHttpToxicModule result) ↔
      WellWired ngxHttpToxicModule s ∧ result.calls = [] := by
  unfold ScriptState.applied
  rw [wellWired_foldl_call]
  have hall : (∀ slot ∈ result.calls.map SapiCall.slot,
      Meant slot (ngxHttpToxicModule slot) = true) ↔ result.calls = [] := by
    cases hcalls : result.calls with
    | nil => simp
    | cons call calls => simp [slot_not_meant call]
  rw [hall]
  exact Iff.rfl

/-- `header_handler` is called wherever it could be. -/
theorem handlerCalls_ne_nil (conf : ScriptConf) :
    (conf.headerEnv ngxHttpToxicModule).handlerCalls ≠ [] := by
  have hset : ngxHttpToxicModule .headerHandler ≠ .zero := by decide
  simp [HeaderEnv.handlerCalls, ScriptConf.headerEnv, hset]

/-- **A string is delivered.** -/
theorem wellWired_deliver (s : ScriptState) (strs : List (List Written)) :
    WellWired ngxHttpToxicModule (s.deliver ngxHttpToxicModule strs) ↔
      WellWired ngxHttpToxicModule s := by
  have htoxic : ngxHttpToxicModule .isToxic ≠ .zero := by decide
  have hmeant : Meant .toxicOutput (ngxHttpToxicModule .toxicOutput) = true := by decide
  unfold ScriptState.deliver
  simp only [htoxic, ne_eq, not_false_eq_true, if_true]
  rw [wellWired_callIfSet (Or.inl (by decide))]
  exact wellWired_call.trans (and_iff_left hmeant)

section With

variable {send : ScriptState → ScriptState} {sends : ScriptState → Prop}

/-- **A call that concerns the output.** -/
theorem wellWired_outputCall (hsend : ∀ s, WellWired ngxHttpToxicModule (send s) ↔
      WellWired ngxHttpToxicModule s ∧ sends s) (s : ScriptState) (call : OutputCall) :
    WellWired ngxHttpToxicModule (s.outputCall send ngxHttpToxicModule call) ↔
      WellWired ngxHttpToxicModule s ∧ OutputWired sends s call := by
  have hend : ∀ (t : ScriptState) (strs : List (List Written)),
      WellWired ngxHttpToxicModule
        (if t.ended = true then t else t.deliver ngxHttpToxicModule strs) ↔
          WellWired ngxHttpToxicModule t := by
    intro t strs
    split
    next => rfl
    next => exact wellWired_deliver t strs
  have hhandled : WellWired ngxHttpToxicModule (s.handled call) ↔ WellWired ngxHttpToxicModule s :=
    Iff.rfl
  unfold ScriptState.outputCall OutputWired
  by_cases hpass : s.output.passesOut call = true
  · rw [if_pos hpass]
    dsimp only
    rw [hend]
    have hsent : (s.handled call).headersSent = s.headersSent := rfl
    rw [hsent]
    by_cases h : s.headersSent = true
    · rw [if_pos h, hhandled]
      simp [h]
    · rw [if_neg h, hsend, hhandled]
      simp [hpass, h]
  · rw [if_neg hpass]
    simp only [hpass, false_implies, and_true, Bool.false_eq_true]
    exact Iff.rfl

/-- The status line of a fatal error calls nothing. -/
theorem internalServerError_calls (env : HeaderEnv) (s : SapiHeaders) :
    (sapiHeaderOp env false (.set true internalServerError 0) s).calls = [] := by
  have hne : internalServerError ≠ [] := by decide +kernel
  have hfault : headerFault (cutTrailing internalServerError) = none := by decide +kernel
  have hstatus : isStatusLine (cutTrailing internalServerError) = true := by decide +kernel
  simp [sapiHeaderOp, hne, hfault, hstatus]

/-- An error is not logged. -/
theorem callIfSet_logMessage (s : ScriptState) :
    s.callIfSet ngxHttpToxicModule .logMessage = s := by
  have hzero : ngxHttpToxicModule .logMessage = .zero := by decide
  simp [ScriptState.callIfSet, hzero]

/-- **An error.** -/
theorem wellWired_error (hsend : ∀ s, WellWired ngxHttpToxicModule (send s) ↔
      WellWired ngxHttpToxicModule s ∧ sends s) (s : ScriptState) (kind : ErrorKind)
    (e : PhpError) :
    WellWired ngxHttpToxicModule (s.error send ngxHttpToxicModule kind e) ↔
      WellWired ngxHttpToxicModule s ∧ ErrorWired sends s e := by
  -- what follows the message calls nothing
  have hend : ∀ t : ScriptState, WellWired ngxHttpToxicModule
      (if t.ended = true then t
        else
          let u :=
            if (kind == .parse false || kind == .fatal) && !t.conf.displayErrors &&
                !t.headersSent && t.headers.httpResponseCode == 200 then
              t.applied ngxHttpToxicModule (sapiHeaderOp (t.conf.headerEnv ngxHttpToxicModule)
                t.sent (.set true internalServerError 0) t.headers)
            else t
          { u with ended := u.ended || kind == .fatal }) ↔ WellWired ngxHttpToxicModule t := by
    intro t
    split
    next => rfl
    next =>
      dsimp only
      split
      next hfatal =>
        simp only [Bool.and_eq_true, Bool.not_eq_true'] at hfatal
        have hsent : t.sent = false := by simp [ScriptState.sent, hfatal.1.2]
        have happlied : WellWired ngxHttpToxicModule (t.applied ngxHttpToxicModule (sapiHeaderOp
            (t.conf.headerEnv ngxHttpToxicModule) t.sent (.set true internalServerError 0)
            t.headers)) ↔ WellWired ngxHttpToxicModule t := by
          rw [hsent, wellWired_applied]
          exact and_iff_left (internalServerError_calls _ _)
        exact happlied
      next => exact Iff.rfl
  unfold ScriptState.error
  simp only [callIfSet_logMessage, ite_self]
  refine (hend _).trans ?_
  unfold ErrorWired
  cases hrepeated : s.repeated e with
  | true => simp
  | false =>
      simp only [Bool.not_false, if_true, Bool.true_and, true_implies]
      by_cases hdisplay : s.conf.displayed = true
      · simp only [hdisplay, if_true, true_implies]
        exact wellWired_outputCall hsend _ _
      · simp only [hdisplay, if_false, false_implies, and_true, Bool.false_eq_true]
        exact Iff.rfl

/-- A cookie reaches a slot in disorder unless it is refused. -/
theorem setcookie_calls (conf : ScriptConf) (s : ScriptState) (cookie : Cookie) :
    (sapiCall (conf.headerEnv ngxHttpToxicModule) s.sent (.setcookie cookie) s.headers).calls = []
      ↔ phpSetcookie cookie = none := by
  unfold sapiCall
  dsimp only
  cases phpSetcookie cookie with
  | none => simp
  | some text =>
      have hline : bytesOf "Set-Cookie: " ++ text ≠ [] := by
        have : bytesOf "Set-Cookie: " ≠ [] := by decide +kernel
        simp [this]
      unfold sapiHeaderOp
      by_cases hsent : s.sent = true
      · simp [hsent]
      · simp only [hsent, hline, if_false, Bool.false_eq_true, cookie_not_statusLine]
        split
        · simp
        · rw [sapiHeaderAddOp_calls]
          simpa using handlerCalls_ne_nil conf

/-- A name to remove reaches one unless it is empty. -/
theorem headerRemove_calls (conf : ScriptConf) (s : ScriptState) (name : Option Bytes) :
    (sapiCall (conf.headerEnv ngxHttpToxicModule) s.sent (.headerRemove name) s.headers).calls = []
      ↔ name = some [] ∧ s.sent = false := by
  have hcalls := handlerCalls_ne_nil conf
  cases name with
  | none =>
      unfold sapiCall sapiHeaderOp
      dsimp only
      split
      · simp
      · simp [hcalls]
  | some name =>
      unfold sapiCall sapiHeaderOp
      dsimp only
      split
      next hsent => simp [hsent]
      next hsent =>
        by_cases hname : name = []
        · simp [hname, hsent]
        · rw [if_neg hname]
          split
          · simp [hname]
          · simp [hname, hcalls]

/-- The body is read by what no reader is. -/
theorem wellWired_readInput (s : ScriptState) :
    WellWired ngxHttpToxicModule
        (if s.postRead = true then s
          else { s.callIfSet ngxHttpToxicModule .readPost with postRead := true }) ↔
      WellWired ngxHttpToxicModule s ∧ s.postRead = true := by
  split
  next hread => simp [hread]
  next hread =>
    have hset : ngxHttpToxicModule .readPost ≠ .zero := by decide
    have hmeant : Meant .readPost (ngxHttpToxicModule .readPost) = false := by decide
    have hcall : ¬ WellWired ngxHttpToxicModule
        { s.callIfSet ngxHttpToxicModule .readPost with postRead := true } := by
      intro h
      have hwired : WellWired ngxHttpToxicModule (s.callIfSet ngxHttpToxicModule .readPost) := h
      unfold ScriptState.callIfSet at hwired
      rw [if_neg hset, wellWired_call, hmeant] at hwired
      exact Bool.false_ne_true hwired.2
    simp [hread, hcall]

/-- **One operation** is well wired exactly when it is one of these. -/
theorem wellWired_stepWith (hsend : ∀ s, WellWired ngxHttpToxicModule (send s) ↔
      WellWired ngxHttpToxicModule s ∧ sends s) {s : ScriptState} (hrun : s.ended = false)
    (call : ScriptCall) :
    WellWired ngxHttpToxicModule (scriptStepWith send ngxHttpToxicModule s call) ↔
      WellWired ngxHttpToxicModule s ∧ WiredWith sends s call := by
  unfold scriptStepWith
  rw [hrun]
  simp only [Bool.false_eq_true, if_false]
  cases call with
  | header call =>
      cases call with
      | header line replace responseCode =>
          have hset : ngxHttpToxicModule .toxicHeaderHandler ≠ .zero := by decide
          have hmeant :
              Meant .toxicHeaderHandler (ngxHttpToxicModule .toxicHeaderHandler) = true := by
            decide
          simp only [hset, if_false, WiredWith, and_true]
          exact wellWired_call.trans (and_iff_left hmeant)
      | setcookie cookie =>
          rw [wellWired_applied]
          simp [WiredWith, setcookie_calls]
      | headerRemove name =>
          rw [wellWired_applied, headerRemove_calls]
          cases name with
          | none => simp [WiredWith]
          | some name => simp [WiredWith]
      | httpResponseCode code =>
          rw [wellWired_applied]
          simp [WiredWith, sapiCall]
  | echo text => exact wellWired_outputCall hsend s _
  | obStart chunkSize cleanable flushable removable => exact wellWired_outputCall hsend s _
  | ob fn site =>
      unfold WiredWith
      dsimp only
      split
      next message hrefusal => exact wellWired_error hsend s _ _
      next hrefusal => exact wellWired_outputCall hsend s _
  | flush =>
      simp only [WiredWith, and_true]
      exact wellWired_callIfSet (Or.inl (by decide))
  | error kind e => exact wellWired_error hsend s kind e
  | readInput => exact wellWired_readInput s
  | iniSet setting => exact (and_iff_left trivial).symm
  | headerRegisterCallback callback => exact (and_iff_left trivial).symm

end With

/-- **An operation of a header callback.** -/
theorem wellWired_headerCallbackStep (busy : Bool) (s : ScriptState) (call : ScriptCall) :
    WellWired ngxHttpToxicModule (headerCallbackStep ngxHttpToxicModule busy s call) ↔
      WellWired ngxHttpToxicModule s ∧ CallbackWired busy s call := by
  unfold headerCallbackStep CallbackWired
  by_cases hbusy : (busy && s.prints call) = true
  · rw [if_pos hbusy]
    simp only [hbusy, true_or, and_true]
    exact Iff.rfl
  · rw [if_neg hbusy]
    simp only [hbusy, false_or, Bool.false_eq_true]
    cases hended : s.ended with
    | true => simp [scriptStepWith, hended]
    | false =>
        simp only [Bool.false_eq_true, false_or]
        exact wellWired_stepWith (fun s => (and_iff_left trivial).symm) hended call

/-- The default content type reaches `header_handler`. -/
theorem wellWired_sendDefault (s : ScriptState) :
    WellWired ngxHttpToxicModule (s.sendDefault ngxHttpToxicModule) ↔
      WellWired ngxHttpToxicModule s ∧ s.headers.sendDefaultContentType = false := by
  have hset : ngxHttpToxicModule .sendHeaders ≠ .zero := by decide
  unfold ScriptState.sendDefault
  simp only [hset, ne_eq, not_false_eq_true, decide_true, Bool.and_true]
  by_cases hdefault : s.headers.sendDefaultContentType = true
  · rw [if_pos hdefault, wellWired_applied]
    simp [handlerCalls_ne_nil, hdefault]
  · rw [if_neg hdefault]
    simp [hdefault]

/-- **The headers are sent.** -/
theorem wellWired_sapiSendHeaders (s : ScriptState) :
    WellWired ngxHttpToxicModule (sapiSendHeaders ngxHttpToxicModule s) ↔
      WellWired ngxHttpToxicModule s ∧ SendWired ngxHttpToxicModule s := by
  have hset : ngxHttpToxicModule .sendHeaders ≠ .zero := by decide
  have hmeant : Meant .sendHeaders (ngxHttpToxicModule .sendHeaders) = true := by decide
  have hsends : s.sends = !(s.headersSent || s.noHeaders || s.callbackRun) := by
    unfold ScriptState.sends
    rw [Bool.not_or, Bool.not_or]
  unfold sapiSendHeaders SendWired
  rw [hsends]
  by_cases hnone : (s.headersSent || s.noHeaders || s.callbackRun) = true
  · rw [if_pos hnone]
    simp [hnone]
  · rw [if_neg hnone]
    rw [Bool.not_eq_true] at hnone
    simp only [hnone, Bool.not_false, true_implies]
    -- what follows the callback calls nothing in disorder
    have hend : ∀ t : ScriptState, WellWired ngxHttpToxicModule
        (if t.ended = true then t else t.sendRest ngxHttpToxicModule) ↔
          WellWired ngxHttpToxicModule t := by
      intro t
      split
      next => rfl
      next =>
        unfold ScriptState.sendRest
        simp only [hset, ne_eq, not_false_eq_true, if_true]
        have hcall : WellWired ngxHttpToxicModule (ScriptState.call ngxHttpToxicModule
            { t with headersSent := true } .sendHeaders) ↔
              WellWired ngxHttpToxicModule { t with headersSent := true } ∧
                Meant .sendHeaders (ngxHttpToxicModule .sendHeaders) = true := wellWired_call
        exact hcall.trans (and_iff_left hmeant)
    refine (hend _).trans ?_
    have hcallback : ∀ t : ScriptState,
        WellWired ngxHttpToxicModule (t.runHeaderCallback ngxHttpToxicModule) ↔
          WellWired ngxHttpToxicModule t ∧
            match t.callback with
            | none => True
            | some calls =>
                RunWired (headerCallbackStep ngxHttpToxicModule !t.output.handlers.isEmpty)
                  (CallbackWired !t.output.handlers.isEmpty) { t with callbackRun := true }
                  calls := by
      intro t
      unfold ScriptState.runHeaderCallback
      cases t.callback with
      | none => simp
      | some calls => exact wellWired_run (wellWired_headerCallbackStep _) calls _
    rw [hcallback, wellWired_sendDefault]
    -- where the default type is not to be sent, it changes nothing
    by_cases hdefault : s.headers.sendDefaultContentType = true
    · simp [hdefault]
    · have hsame : s.sendDefault ngxHttpToxicModule = s := by
        unfold ScriptState.sendDefault
        simp [hdefault]
      rw [hsame, and_assoc]

/-- **One operation of a script.** -/
theorem wellWired_step (s : ScriptState) (call : ScriptCall) :
    WellWired ngxHttpToxicModule (scriptStep ngxHttpToxicModule s call) ↔
      WellWired ngxHttpToxicModule s ∧ Wired ngxHttpToxicModule s call := by
  unfold Wired
  cases hended : s.ended with
  | true => simp [scriptStep, scriptStepWith, hended]
  | false =>
      simp only [Bool.false_eq_true, false_or]
      exact wellWired_stepWith wellWired_sapiSendHeaders hended call

/-- The engine without a `php.ini`. -/
def plainConf : ScriptConf :=
  ⟨false, [], bytesOf "text/html", true, true, false, false, false, false, false, fun _ => none⟩

end Toxic
