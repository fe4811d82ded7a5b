import ToxicNginx.RequestUri

/-!
# The header of a request

`ngx_http_process_request_line` and `ngx_http_process_request_headers` parse what
is in `r->header_in` byte by byte and act on each line as it ends, until the
header is complete or the request is refused.

* `fieldByte` — `ngx_http_parse_header_line`;
* `validateHost`, `processField`, `processRequestHeader` — what is made of the
  fields;
* `headByte`, `headLoop`, `headCalls` — the two functions, over what has been read
  and over the reads as they come; `headCalls_eq` says that these are the same.
-/

namespace Toxic

/-! ## A line of the header -/

/-- The states of `ngx_http_parse_header_line` on a request of a client. -/
inductive FieldState
  | start
  | name
  | spaceBeforeValue
  | value
  | spaceAfterValue
  | almostDone
  | headerAlmostDone
  deriving DecidableEq, Repr

/-- The fields of `r` that `ngx_http_parse_header_line` sets: the pointers
`header_name_start`, `header_name_end`, `header_start` and `header_end`, and
`invalid_header`. -/
structure FieldLine where
  state : FieldState
  nameStart : Nat
  nameEnd : Nat
  valueStart : Nat
  valueEnd : Nat
  invalid : Bool
  deriving DecidableEq, Repr

/-- In front of the first line. -/
def FieldLine.fresh : FieldLine := ⟨.start, 0, 0, 0, 0, false⟩

/-- What one byte does: the loop goes on, ends with `goto done` or
`goto header_done`, or returns `NGX_HTTP_PARSE_INVALID_HEADER`. -/
inductive FieldStep
  | next (f : FieldLine)
  | done (f : FieldLine)
  | headerDone
  | error
  deriving DecidableEq, Repr

/-- `lowcase`: the lower-case letter of a letter, digits and `-` as they are, and
zero for what cannot be in a name. -/
def lowcase (ch : UInt8) : UInt8 :=
  if 65 ≤ ch ∧ ch ≤ 90 then ch ||| 32
  else if (97 ≤ ch ∧ ch ≤ 122) ∨ digit ch ∨ ch = 45 then ch
  else 0

/-- The next state. -/
def FieldLine.to (f : FieldLine) (state : FieldState) : FieldLine := { f with state := state }

/-- A character of a name, with `underscores_in_headers`. -/
def nameByte (underscores : Bool) (f : FieldLine) (ch : UInt8) : FieldStep :=
  if lowcase ch ≠ 0 then .next f
  else if ch = 95 then .next (if underscores then f else { f with invalid := true })
  else if ch = 0 then .error
  else .next { f with invalid := true }

/-- The end of a line, with the pointers as they are. -/
def lineEndByte (f : FieldLine) (ch : UInt8) (other : FieldStep) : FieldStep :=
  if ch = cr then .next (f.to .almostDone)
  else if ch = lf then .done f
  else if ch = 0 then .error
  else other

/-- The switch of `ngx_http_parse_header_line`, for the byte `ch` at `p`. -/
def fieldByte (underscores : Bool) (f : FieldLine) (p : Nat) (ch : UInt8) : FieldStep :=
  match f.state with
  | .start =>
      let f := { f with nameStart := p, invalid := false }
      if ch = cr then .next { f with valueEnd := p, state := .headerAlmostDone }
      else if ch = lf then .headerDone
      else nameByte underscores (f.to .name) ch
  | .name =>
      if ch = 58 then .next { f with nameEnd := p, state := .spaceBeforeValue }
      else if ch = cr ∨ ch = lf then
        lineEndByte { f with nameEnd := p, valueStart := p, valueEnd := p } ch .error
      else nameByte underscores f ch
  | .spaceBeforeValue =>
      if ch = space then .next f
      else if ch = cr ∨ ch = lf then lineEndByte { f with valueStart := p, valueEnd := p } ch .error
      else if ch = 0 then .error
      else .next { f with valueStart := p, state := .value }
  | .value =>
      if ch = space then .next { f with valueEnd := p, state := .spaceAfterValue }
      else if ch = cr ∨ ch = lf then lineEndByte { f with valueEnd := p } ch .error
      else if ch = 0 then .error
      else .next f
  | .spaceAfterValue =>
      if ch = space then .next f
      else lineEndByte f ch (.next (f.to .value))
  | .almostDone =>
      if ch = lf then .done f
      else if ch = cr then .next f
      else .error
  | .headerAlmostDone => if ch = lf then .headerDone else .error

/-! ## The host -/

/-- The states of `ngx_http_validate_host`. -/
inductive HostState
  | usual
  | literal
  | rest
  deriving DecidableEq, Repr

/-- The variables of `ngx_http_validate_host`.  `dotPos` is the place of the last
dot, if there was one. -/
structure HostScan where
  state : HostState
  dotPos : Option Nat
  hostLen : Nat
  deriving DecidableEq, Repr

/-- The switch of `ngx_http_validate_host`, for the byte at `i`; `none` is
`NGX_DECLINED`. -/
def hostScanByte (s : HostScan) (i : Nat) (ch : UInt8) : Option HostScan :=
  if ch = dot then
    if i ≠ 0 ∧ s.dotPos = some (i - 1) then none else some { s with dotPos := some i }
  else if ch = 58 then
    some (if s.state = .usual then { s with hostLen := i, state := .rest } else s)
  else if ch = 91 then some (if i = 0 then { s with state := .literal } else s)
  else if ch = 93 then
    some (if s.state = .literal then { s with hostLen := i + 1, state := .rest } else s)
  else if ch = 0 ∨ ch = slash then none
  else some s

/-- The loop of `ngx_http_validate_host`. -/
def hostScan (s : HostScan) (i : Nat) : Bytes → Option HostScan
  | [] => some s
  | ch :: rest => (hostScanByte s i ch).bind fun s' => hostScan s' (i + 1) rest

/-- `ngx_tolower`. -/
def ngxTolower (ch : UInt8) : UInt8 := if 65 ≤ ch ∧ ch ≤ 90 then ch ||| 32 else ch

/-- `ngx_http_validate_host`: the host in lower case, without a port and without a
dot at its end. -/
def validateHost (host : Bytes) : Option Bytes :=
  (hostScan ⟨.usual, none, host.length⟩ 0 host).bind fun s =>
    let hostLen :=
      if s.hostLen ≠ 0 ∧ s.dotPos = some (s.hostLen - 1) then s.hostLen - 1 else s.hostLen
    if hostLen = 0 then none else some ((host.take hostLen).map ngxTolower)

/-! ## The fields -/

/-- The handlers of `ngx_http_headers_in`. -/
inductive FieldHandler
  | host
  | connection
  | unique
  | first
  | multi
  deriving DecidableEq, Repr

/-- `ngx_http_headers_in`, by the names in lower case. -/
def headersInTable : List (Bytes × FieldHandler) :=
  [(bytesOf "host", .host), (bytesOf "connection", .connection),
    (bytesOf "if-modified-since", .unique), (bytesOf "if-unmodified-since", .unique),
    (bytesOf "if-match", .unique), (bytesOf "if-none-match", .unique),
    (bytesOf "user-agent", .first), (bytesOf "referer", .first),
    (bytesOf "content-length", .unique), (bytesOf "content-type", .first),
    (bytesOf "range", .first), (bytesOf "if-range", .unique),
    (bytesOf "transfer-encoding", .first), (bytesOf "expect", .unique),
    (bytesOf "upgrade", .first), (bytesOf "accept-encoding", .first), (bytesOf "via", .first),
    (bytesOf "authorization", .unique), (bytesOf "keep-alive", .first),
    (bytesOf "x-forwarded-for", .multi), (bytesOf "cookie", .multi)]

/-- `r->headers_in.connection_type`. -/
inductive ConnectionType
  | none
  | close
  | keepAlive
  deriving DecidableEq, Repr

/-- `r->headers_in`: the list of fields as they were sent, the pointers to single
ones by their name, and what the handlers set besides. -/
structure HeadersIn where
  headers : List (Bytes × Bytes)
  stored : List (Bytes × Bytes)
  server : Bytes
  connectionType : ConnectionType
  deriving DecidableEq, Repr

/-- `ngx_strcasestrn`: the text has the pattern in it, in either case. -/
def strcasestr (pattern : Bytes) : Bytes → Bool
  | [] => pattern.isEmpty
  | ch :: rest =>
      pattern.isPrefixOf ((ch :: rest).map ngxTolower) || strcasestr pattern rest

/-- `*ph = h`, when it was `NULL`. -/
def HeadersIn.store (h : HeadersIn) (name value : Bytes) : HeadersIn :=
  if (h.stored.lookup name).isSome then h else { h with stored := h.stored ++ [(name, value)] }

/-- A field that was parsed: it is pushed onto the list, and its handler is
called; `none` when that answers with 400. -/
def processField (h : HeadersIn) (field : Bytes × Bytes) : Option HeadersIn :=
  let name := field.1.map ngxTolower
  let h := { h with headers := h.headers ++ [field] }
  match headersInTable.lookup name with
  | none | some .multi => some h
  | some .host =>
      (validateHost field.2).map fun host =>
        let h := h.store name field.2
        if h.server ≠ [] then h else { h with server := host }
  | some .connection =>
      some (if strcasestr (bytesOf "close") field.2 then { h with connectionType := .close }
        else if strcasestr (bytesOf "keep-alive") field.2 then
          { h with connectionType := .keepAlive }
        else h)
  | some .unique => if (h.stored.lookup name).isSome then none else some (h.store name field.2)
  | some .first => some (h.store name field.2)

/-- The loop of `ngx_atoof`. -/
def atoofLoop (value : Int) : Bytes → Option Int
  | [] => some value
  | ch :: rest =>
      if ch < 48 ∨ 57 < ch then none else atoofLoop (offT (value * 10 + (ch.toNat - 48))) rest

/-- `ngx_atoof`. -/
def atoof (line : Bytes) : Option Int :=
  if line = [] then none
  else (atoofLoop 0 line).bind fun value => if value < 0 then none else some value

/-- A whole header: its length, the request line, the path, the fields,
`content_length_n` and `chunked`. -/
structure ParsedHeader where
  length : Nat
  line : RequestLine
  uri : RequestUri
  headersIn : HeadersIn
  contentLengthN : Int
  chunked : Bool
  deriving DecidableEq, Repr

/-- What a call comes to: the request goes on, or it is refused with a status. -/
inductive HeaderEnd
  | ok (contentLengthN : Int) (chunked : Bool)
  | refused (status : Nat)
  deriving DecidableEq, Repr

/-- `Transfer-Encoding` in `ngx_http_process_request_header`. -/
def transferEncoding (h : HeadersIn) (contentLengthN : Int) : HeaderEnd :=
  match h.stored.lookup (bytesOf "transfer-encoding") with
  | none => .ok contentLengthN false
  | some value =>
      if value.map ngxTolower = bytesOf "chunked" then .ok (-1) true
      else if value.map ngxTolower = bytesOf "identity" then .ok contentLengthN false
      else .refused 501

/-- `ngx_http_process_request_header`. -/
def processRequestHeader (line : RequestLine) (h : HeadersIn) : HeaderEnd :=
  if (h.stored.lookup (bytesOf "host")).isNone ∧ 1000 < line.httpVersion then .refused 400
  else
    match h.stored.lookup (bytesOf "content-length") with
    | none => if line.method = .trace then .refused 405 else transferEncoding h (-1)
    | some value =>
        match atoof value with
        | none => .refused 400
        | some n => if line.method = .trace then .refused 405 else transferEncoding h n

/-! ## The header -/

/-- The directives that the header is parsed by. -/
structure HeaderConf where
  mergeSlashes : Bool
  underscores : Bool
  ignoreInvalid : Bool
  deriving DecidableEq, Repr

/-- Where the parsing is: in the request line, or in the fields. -/
inductive HeadState
  | line (r : RequestLine)
  | fields (r : RequestLine) (uri : RequestUri) (f : FieldLine) (h : HeadersIn)
  deriving DecidableEq, Repr

/-- What one byte does. -/
inductive HeadStep
  | next (s : HeadState)
  | done (h : ParsedHeader)
  | refused (status : Nat)
  deriving DecidableEq, Repr

/-- `r->headers_in` behind the request line. -/
def HeadersIn.start (server : Bytes) : HeadersIn := ⟨[], [], server, .none⟩

/-- The host of a request line, if it has one. -/
def lineHost (mem : Nat → UInt8) (r : RequestLine) : Option Bytes :=
  match r.hostStart, r.hostEnd with
  | some first, some last => validateHost (slice mem first last)
  | _, _ => some []

/-- `ngx_http_process_request_line` behind a request line that ends at `pos`.  A
request without a version has no fields. -/
def requestLineEnd (conf : HeaderConf) (mem : Nat → UInt8) (base : Nat) (r : RequestLine)
    (pos : Nat) : HeadStep :=
  match processRequestUri mem conf.mergeSlashes r, lineHost mem r with
  | some uri, some server =>
      if r.httpVersion < 1000 then .done ⟨pos - base, r, uri, .start server, -1, false⟩
      else .next (.fields r uri .fresh (.start server))
  | _, _ => .refused 400

/-- `ngx_http_process_request_headers` behind a line of the header. -/
def fieldLineEnd (conf : HeaderConf) (mem : Nat → UInt8) (r : RequestLine) (uri : RequestUri)
    (f : FieldLine) (h : HeadersIn) : HeadStep :=
  if f.invalid && conf.ignoreInvalid then .next (.fields r uri (f.to .start) h)
  else
    match processField h (slice mem f.nameStart f.nameEnd, slice mem f.valueStart f.valueEnd) with
    | none => .refused 400
    | some h' => .next (.fields r uri (f.to .start) h')

/-- A byte of the header, which begins at `base`. -/
def headByte (conf : HeaderConf) (mem : Nat → UInt8) (base : Nat) (s : HeadState) (p : Nat) :
    HeadStep :=
  match s with
  | .line r =>
      match lineByte mem r p with
      | .next r' => .next (.line r')
      | .done r' =>
          match lineDone r' p with
          | .ok r'' pos => requestLineEnd conf mem base r'' pos
          | _ => .refused 400
      | .error _ => .refused 400
  | .fields r uri f h =>
      match fieldByte conf.underscores f p (mem p) with
      | .next f' => .next (.fields r uri f' h)
      | .done f' => fieldLineEnd conf mem r uri f' h
      | .headerDone =>
          match processRequestHeader r h with
          | .ok n chunked => .done ⟨p + 1 - base, r, uri, h, n, chunked⟩
          | .refused status => .refused status
      | .error => .refused 400

/-- What the bytes that have been read come to. -/
inductive HeadResult
  | again (s : HeadState) (pos : Nat)
  | done (h : ParsedHeader)
  | refused (status : Nat)
  deriving DecidableEq, Repr

/-- The loops of the two functions over the bytes from `p` on. -/
def headLoop (conf : HeaderConf) (mem : Nat → UInt8) (base : Nat) (s : HeadState) (p : Nat) :
    Nat → HeadResult
  | 0 => .again s p
  | n + 1 =>
      match headByte conf mem base s p with
      | .next s' => headLoop conf mem base s' (p + 1) n
      | .done h => .done h
      | .refused status => .refused status

/-- The calls of the two functions as the reads come. -/
def headCalls (conf : HeaderConf) (mem : Nat → UInt8) (base : Nat) (s : HeadState) (pos : Nat) :
    List Nat → HeadResult
  | [] => .again s pos
  | n :: reads =>
      match headLoop conf mem base s pos n with
      | .again s' pos' => headCalls conf mem base s' pos' reads
      | result => result

theorem headLoop_add (conf : HeaderConf) (mem : Nat → UInt8) (base : Nat) (s : HeadState)
    (p m n : Nat) :
    headLoop conf mem base s p (m + n) =
      match headLoop conf mem base s p m with
      | .again s' q => headLoop conf mem base s' q n
      | result => result := by
  induction m generalizing s p with
  | zero => rw [Nat.zero_add]; rfl
  | succ m ih =>
      rw [Nat.succ_add, headLoop, headLoop]
      cases headByte conf mem base s p with
      | next s' => exact ih s' (p + 1)
      | done h => rfl
      | refused status => rfl

theorem headLoop_again (conf : HeaderConf) (mem : Nat → UInt8) (base : Nat) (s : HeadState)
    (p n : Nat) (t : HeadState) (q : Nat) (h : headLoop conf mem base s p n = .again t q) :
    q = p + n := by
  induction n generalizing s p with
  | zero =>
      obtain ⟨-, rfl⟩ := HeadResult.again.inj h
      rfl
  | succ n ih =>
      rw [headLoop] at h
      cases hbyte : headByte conf mem base s p with
      | next s' =>
          rw [hbyte] at h
          rw [ih s' (p + 1) h]
          omega
      | done h' =>
          rw [hbyte] at h
          cases h
      | refused status =>
          rw [hbyte] at h
          cases h

/-- **Segmentation.**  A header that is read in parts is parsed as one that is read
at once. -/
theorem headCalls_eq (conf : HeaderConf) (mem : Nat → UInt8) (base : Nat) (s : HeadState) (p : Nat)
    (reads : List Nat) :
    headCalls conf mem base s p reads = headLoop conf mem base s p reads.sum := by
  induction reads generalizing s p with
  | nil => rfl
  | cons n reads ih =>
      rw [headCalls, List.sum_cons, headLoop_add]
      cases headLoop conf mem base s p n with
      | again s' q => exact ih s' q
      | done h => rfl
      | refused status => rfl

end Toxic
