import ToxicNginx.OutputChain
import ToxicNginx.ChunkQueue

/-!
# The header filter and the write filter

The end of nginx's filter chains as a toxic request runs through it:
`ngx_http_header_filter` builds the header block and hands it to
`ngx_http_write_filter`, which also receives the body.  The write filter may
keep what it got in `r->out` (`postpone_output`), or give `r->out` to the
socket, which takes any part of it.

* `Response` — the fields of `r` and of its connection the filters read and
  write, with the bytes the socket has taken;
* `headerBlock` — the text of the header; `statusLine_prefix_iff` says that its
  status line determines the status;
* `writeFilter`, `headerFilter`, `sendHeader`, `outputFilter` — the functions;
* `writeFilter_refused`, `writeFilter_linked` — what one call of the write
  filter does.
-/

namespace Toxic

open ChunkQueue

/-- The request methods of nginx. -/
inductive Method
  | unknown | get | head | post | put | delete | mkcol | copy | move | options
  | propfind | proppatch | lock | unlock | patch | trace
  deriving DecidableEq, Repr

/-- The statuses 400, 413 and 500, which are answered with a special response. -/
inductive SpecialStatus
  | badRequest | requestEntityTooLarge | internalServerError
  deriving DecidableEq, Repr

/-- The result codes of the functions modelled here: those of the nginx core, the
statuses 408 and 499, and those of a special response. -/
inductive Rc
  | ok | error | again | requestTimeOut | clientClosedRequest
  | special (status : SpecialStatus)
  deriving DecidableEq, Repr

/-- `ngx_table_elt_t`. -/
structure TableElt where
  hash : Nat
  key : Bytes
  value : Bytes
  deriving DecidableEq, Repr

/-- The directives the filters read, and the cached date string. -/
structure FilterConf where
  postponeOutput : Nat
  serverTokens : Bool
  keepaliveHeader : Nat
  cachedHttpTime : Bytes
  deriving DecidableEq, Repr

/-- The fields of `r->headers_out` a toxic response sets. -/
structure HeadersOut where
  status : Nat
  contentType : Bytes
  contentLengthN : Int
  headers : List TableElt
  deriving DecidableEq, Repr

/-- The flags of a buffer in `r->out`; `header` marks the header block. -/
structure BufTag where
  lastBuf : Bool
  flush : Bool
  header : Bool
  deriving DecidableEq, Repr

/-- A buffer in `r->out`, in memory: the bytes of it still to be sent. -/
abbrev OutBuf := Chunk UInt8 BufTag

/-- The fields of `r` and `r->connection` that belong to the response, with
the bytes of it the socket has taken. -/
structure Response where
  method : Method
  httpVersion : Nat
  errStatus : Nat
  keepalive : Bool
  headersOut : HeadersOut
  headerSent : Bool
  headerOnly : Bool
  out : List OutBuf
  /-- `c->error`. -/
  error : Bool
  /-- `NGX_HTTP_WRITE_BUFFERED` in `c->buffered`. -/
  buffered : Bool
  /-- `c->write->ready`. -/
  writeReady : Bool
  /-- `c->sent`. -/
  sent : Nat
  wire : Bytes
  deriving DecidableEq, Repr

/-- The characters of an ASCII string. -/
def bytesOf (s : String) : Bytes := s.toList.map fun c => c.toNat.toUInt8

/-- `CRLF`. -/
def crlf : Bytes := [13, 10]

/-- `%ui`, `%O` and `%T` of a number that is not negative. -/
def decimal (n : Nat) : Bytes := (Nat.toDigits 10 n).map fun c => c.toNat.toUInt8

/-- `%03ui`. -/
def decimal03 (n : Nat) : Bytes :=
  List.replicate (3 - (Nat.toDigits 10 n).length) 48 ++ decimal n

/-- The reason phrases of `ngx_http_status_lines`; a status without an entry
has an empty one. -/
def statusReason : Nat → String
  | 200 => "OK"
  | 201 => "Created"
  | 202 => "Accepted"
  | 204 => "No Content"
  | 206 => "Partial Content"
  | 301 => "Moved Permanently"
  | 302 => "Moved Temporarily"
  | 303 => "See Other"
  | 304 => "Not Modified"
  | 307 => "Temporary Redirect"
  | 400 => "Bad Request"
  | 401 => "Unauthorized"
  | 402 => "Payment Required"
  | 403 => "Forbidden"
  | 404 => "Not Found"
  | 405 => "Not Allowed"
  | 406 => "Not Acceptable"
  | 408 => "Request Time-out"
  | 409 => "Conflict"
  | 410 => "Gone"
  | 411 => "Length Required"
  | 412 => "Precondition Failed"
  | 413 => "Request Entity Too Large"
  | 414 => "Request-URI Too Large"
  | 415 => "Unsupported Media Type"
  | 416 => "Requested Range Not Satisfiable"
  | 500 => "Internal Server Error"
  | 501 => "Not Implemented"
  | 502 => "Bad Gateway"
  | 503 => "Service Temporarily Unavailable"
  | 504 => "Gateway Time-out"
  | 507 => "Insufficient Storage"
  | _ => ""

/-- The text of the status line behind `HTTP/1.1 `: an entry of the table, or
`%03ui ` when there is none. -/
def statusText (status : Nat) : Bytes :=
  decimal03 status ++ 32 :: bytesOf (statusReason status)

/-- The status line of a response. -/
def statusLine (status : Nat) : Bytes := bytesOf "HTTP/1.1 " ++ statusText status

/-- The `Connection` header and, for keepalive, `Keep-Alive`. -/
def connectionHeader (conf : FilterConf) (r : Response) : Bytes :=
  if r.headersOut.status = 101 then bytesOf "Connection: upgrade" ++ crlf
  else if r.keepalive then
    bytesOf "Connection: keep-alive" ++ crlf ++
      (if conf.keepaliveHeader = 0 then []
       else bytesOf "Keep-Alive: timeout=" ++ decimal conf.keepaliveHeader ++ crlf)
  else bytesOf "Connection: close" ++ crlf

/-- The header block of a response. -/
def headerBlock (conf : FilterConf) (r : Response) : Bytes :=
  statusLine r.headersOut.status ++ crlf ++
    ((if conf.serverTokens then bytesOf "Server: nginx/1.6.2" else bytesOf "Server: nginx") ++ crlf ++
    (bytesOf "Date: " ++ conf.cachedHttpTime ++ crlf ++
    ((if r.headersOut.contentType = [] then []
      else bytesOf "Content-Type: " ++ r.headersOut.contentType ++ crlf) ++
    ((if r.headersOut.contentLengthN < 0 then []
      else bytesOf "Content-Length: " ++ decimal r.headersOut.contentLengthN.toNat ++ crlf) ++
    (connectionHeader conf r ++
    ((r.headersOut.headers.filter (·.hash ≠ 0)).flatMap
      fun h => h.key ++ bytesOf ": " ++ h.value ++ crlf) ++ crlf)))))

/-- What the socket does with a `send_chain` call: it takes up to `taken`
bytes and then has an error or not. -/
structure SendAnswer where
  taken : Nat
  failed : Bool
  deriving DecidableEq, Repr

/-- The outside answers to one call of the write filter: the number of chain
links the pool can still give, `none` for no limit, and the socket. -/
structure WriteAnswers where
  links : Option Nat
  send : SendAnswer
  deriving DecidableEq, Repr

/-- The outside answers to one call of the header filter: whether the pool
gives the header buffer, and the write filter's. -/
structure HeaderAnswers where
  headerBuf : Bool
  write : WriteAnswers
  deriving DecidableEq, Repr

/-- The loop of the write filter over the incoming chain: the buffers it links
behind `r->out`, and whether it reaches the end. -/
def linkChain : Option Nat → List OutBuf → List OutBuf × Bool
  | _, [] => ([], true)
  | some 0, _ :: _ => ([], false)
  | links, b :: new =>
      if b.bytes.isEmpty then ([b], false)
      else
        let rest := linkChain (links.map (· - 1)) new
        (b :: rest.1, rest.2)

/-- `c->send_chain(c, r->out, 0)`: the rest of the chain, or `none` for
`NGX_CHAIN_ERROR`.  An error leaves the buffers sent before it in place. -/
def sendChain (s : SendAnswer) (r : Response) : Option (List OutBuf) × Response :=
  if r.writeReady = false then
    (some r.out, r)
  else
    let r' := { r with
      sent := r.sent + min s.taken (contents r.out).length
      wire := r.wire ++ (contents r.out).take s.taken }
    if s.failed then
      (none, { r' with out := consume s.taken r.out })
    else
      (some (drain s.taken r.out), { r' with writeReady := decide ((contents r.out).length ≤ s.taken) })

/-- The end of `ngx_http_write_filter`: give `r->out` to the socket. -/
def writeOut (s : SendAnswer) (r : Response) : Rc × Response :=
  match sendChain s r with
  | (none, r') => (.error, { r' with error := true })
  | (some chain, r') =>
      if chain.isEmpty then
        (.ok, { r' with out := [], buffered := false })
      else
        (.again, { r' with out := chain, buffered := true })

/-- `ngx_http_write_filter(r, in)` without a rate limit. -/
def writeFilter (conf : FilterConf) (w : WriteAnswers) (new : List OutBuf) (r : Response) :
    Rc × Response :=
  if r.error then
    (.error, r)
  else if r.out.any (·.bytes.isEmpty) then
    (.error, r)
  else
    let linked := linkChain w.links new
    let r' := { r with out := r.out ++ linked.1 }
    if linked.2 = false then
      (.error, r')
    else
      let size := (contents r'.out).length
      let last := r'.out.any (·.tag.lastBuf)
      let flush := r'.out.any (·.tag.flush)
      if !last && !flush && !new.isEmpty && decide (size < conf.postponeOutput) then
        (.ok, r')
      else if size = 0 then
        if last || flush then (.ok, { r' with out := [], buffered := false })
        else (.error, r')
      else
        writeOut w.send r'

/-- The effect of the method and the status on the header. -/
def statusRules (r : Response) : Response :=
  if r.headersOut.status = 204 then
    { r with
      headerOnly := true
      headersOut := { r.headersOut with contentType := [], contentLengthN := -1 } }
  else if r.headersOut.status = 304 then
    { r with headerOnly := true }
  else
    r

/-- The header as `ngx_http_header_filter` is about to write it. -/
def prepareHeader (r : Response) : Response :=
  statusRules
    (if r.method = .head then { r with headerSent := true, headerOnly := true }
     else { r with headerSent := true })

/-- `ngx_http_header_filter`. -/
def headerFilter (conf : FilterConf) (a : HeaderAnswers) (r : Response) : Rc × Response :=
  if r.headerSent then
    (.ok, r)
  else if r.httpVersion < 1000 then
    (.ok, { r with headerSent := true })
  else
    let r' := prepareHeader r
    if a.headerBuf = false then
      (.error, r')
    else
      writeFilter conf a.write [⟨headerBlock conf r', ⟨r'.headerOnly, false, true⟩⟩] r'

/-- `ngx_http_send_header`. -/
def sendHeader (conf : FilterConf) (a : HeaderAnswers) (r : Response) : Rc × Response :=
  if r.headerSent then
    (.error, r)
  else
    headerFilter conf a
      (if r.errStatus = 0 then r
       else { r with headersOut := { r.headersOut with status := r.errStatus } })

/-- `ngx_http_output_filter`. -/
def outputFilter (conf : FilterConf) (w : WriteAnswers) (new : List OutBuf) (r : Response) :
    Rc × Response :=
  match writeFilter conf w new r with
  | (.error, r') => (.error, { r' with error := true })
  | result => result

/-- The number in front of the first blank of a text. -/
def readStatus (text : Bytes) : Nat :=
  (text.takeWhile (· ≠ 32)).foldl (fun n b => 10 * n + (b.toNat - 48)) 0

/-- A digit keeps its code as a byte and is no blank. -/
theorem digit_byte {c : Char} (hc : c.isDigit) :
    c.toNat.toUInt8.toNat = c.toNat ∧ c.toNat.toUInt8 ≠ 32 := by
  obtain ⟨hlow, hhigh⟩ : 48 ≤ c.toNat ∧ c.toNat ≤ 57 := by
    rw [Char.isDigit_iff_toNat] at hc
    exact hc
  have hbyte : c.toNat.toUInt8.toNat = c.toNat := by
    rw [Nat.toUInt8_eq, UInt8.toNat_ofNat']
    omega
  refine ⟨hbyte, fun heq => ?_⟩
  rw [heq] at hbyte
  have : (32 : UInt8).toNat = 32 := rfl
  omega

/-- The digits of a number are read back. -/
theorem foldl_decimal (n : Nat) :
    (decimal n).foldl (fun k b => 10 * k + (b.toNat - 48)) 0 = n := by
  have hread : ∀ (cs : List Char) (k : Nat), (∀ c ∈ cs, c.isDigit) →
      (cs.map fun c => c.toNat.toUInt8).foldl (fun k b => 10 * k + (b.toNat - 48)) k
        = Nat.ofDigitChars 10 cs k := by
    intro cs
    induction cs with
    | nil => intro k _; rfl
    | cons c cs ih =>
        intro k hcs
        rw [List.map_cons, List.foldl_cons, (digit_byte (hcs c List.mem_cons_self)).1,
          Nat.ofDigitChars_cons]
        exact ih _ fun d hd => hcs d (List.mem_cons_of_mem _ hd)
  rw [decimal, hread _ _ fun c hc => Nat.isDigit_of_mem_toDigits (by decide) (by decide) hc,
    Nat.ofDigitChars_toDigits (by decide) (by decide)]

/-- The status is read back from its text. -/
theorem readStatus_statusText (status : Nat) (rest : Bytes) :
    readStatus (statusText status ++ rest) = status := by
  have hdigits : ∀ c ∈ Nat.toDigits 10 status, c.isDigit :=
    fun c hc => Nat.isDigit_of_mem_toDigits (by decide) (by decide) hc
  have hno : ∀ b ∈ decimal03 status, decide (b ≠ 32) = true := by
    intro b hb
    rcases List.mem_append.mp hb with hb | hb
    · rw [List.eq_of_mem_replicate hb]
      decide
    · obtain ⟨c, hc, rfl⟩ := List.mem_map.mp hb
      exact decide_eq_true (digit_byte (hdigits c hc)).2
  have htake : (statusText status ++ rest).takeWhile (· ≠ 32) = decimal03 status := by
    rw [statusText, List.append_assoc, List.takeWhile_append_of_pos hno]
    simp
  have hzeros : ∀ n, (List.replicate n (48 : UInt8)).foldl
      (fun n b => 10 * n + (b.toNat - 48)) 0 = 0 := by
    intro n
    induction n with
    | zero => rfl
    | succ n ih => rw [List.replicate_succ, List.foldl_cons]; exact ih
  rw [readStatus, htake, decimal03, List.foldl_append, hzeros, foldl_decimal]

/-- A response begins with the status line of exactly one status. -/
theorem statusLine_prefix_iff (status status' : Nat) (rest : Bytes) :
    statusLine status <+: statusLine status' ++ rest ↔ status = status' := by
  constructor
  · rintro ⟨tail, htail⟩
    have htext : statusText status ++ tail = statusText status' ++ rest := by
      simpa [statusLine] using htail
    rw [← readStatus_statusText status tail, htext, readStatus_statusText]
  · rintro rfl
    exact List.prefix_append _ _

/-- The pool still has a link for each of `n` buffers. -/
def LinksFit (links : Option Nat) (n : Nat) : Prop := ∀ k, links = some k → n ≤ k

instance (links : Option Nat) (n : Nat) : Decidable (LinksFit links n) :=
  match links with
  | none => isTrue fun _ h => nomatch h
  | some k => decidable_of_iff (n ≤ k) ⟨fun h _ hk => Option.some.inj hk ▸ h, fun h => h k rfl⟩

/-- A chain of non-empty buffers is linked whole when the links suffice. -/
theorem linkChain_fit {new : List OutBuf} (hnew : Packed new) {links : Option Nat}
    (hfit : LinksFit links new.length) : linkChain links new = (new, true) := by
  induction new generalizing links with
  | nil => cases links <;> rfl
  | cons b new ih =>
      have hb : b.bytes.isEmpty = false := by
        simpa using hnew b List.mem_cons_self
      cases links with
      | none =>
          have hrest : linkChain none new = (new, true) := ih hnew.tail (fun _ h => nomatch h)
          simp only [linkChain, hb, Option.map_none, hrest]
          rfl
      | some k =>
          have hk : new.length + 1 ≤ k := hfit k rfl
          obtain ⟨m, rfl⟩ : ∃ m, k = m + 1 := ⟨k - 1, by omega⟩
          have hrest : linkChain (some m) new = (new, true) := ih hnew.tail (fun j hj => by
            obtain rfl := Option.some.inj hj
            omega)
          simp only [linkChain, hb, Option.map_some, Nat.add_sub_cancel, hrest]
          rfl

/-- Otherwise a proper part of it is linked. -/
theorem linkChain_short {new : List OutBuf} (hnew : Packed new) {links : Option Nat}
    (hfit : ¬ LinksFit links new.length) :
    ∃ part, part <+: new ∧ linkChain links new = (part, false) := by
  induction new generalizing links with
  | nil => exact absurd (fun k _ => Nat.zero_le k) hfit
  | cons b new ih =>
      have hb : b.bytes.isEmpty = false := by
        simpa using hnew b List.mem_cons_self
      cases links with
      | none => exact absurd (fun _ h => nomatch h) hfit
      | some k =>
          cases k with
          | zero => exact ⟨[], List.nil_prefix, rfl⟩
          | succ m =>
              have hshort : ¬ LinksFit (some m) new.length := fun h =>
                hfit fun j hj => by
                  obtain rfl := Option.some.inj hj
                  have := h m rfl
                  simp only [List.length_cons]
                  omega
              obtain ⟨part, hpart, hrest⟩ := ih hnew.tail hshort
              refine ⟨b :: part, List.prefix_cons_inj b |>.mpr hpart, ?_⟩
              simp only [linkChain, hb, Option.map_some, Nat.add_sub_cancel, hrest]
              rfl

/-- After an error the write filter does nothing. -/
theorem writeFilter_refused (conf : FilterConf) (w : WriteAnswers) (new : List OutBuf)
    {r : Response} (herr : r.error = true) : writeFilter conf w new r = (.error, r) := by
  simp [writeFilter, herr]

/-- A packed chain has no zero size buffer. -/
theorem packed_any_isEmpty {q : List OutBuf} (h : Packed q) :
    q.any (·.bytes.isEmpty) = false := by
  simp only [List.any_eq_false, List.isEmpty_iff]
  exact h

/-- When the links do not suffice, some of the chain stays behind `r->out` and
nothing is sent. -/
theorem writeFilter_short (conf : FilterConf) {w : WriteAnswers} {new : List OutBuf}
    {r : Response} (herr : r.error = false) (hout : Packed r.out) (hnew : Packed new)
    (hfit : ¬ LinksFit w.links new.length) :
    ∃ part, part <+: new ∧
      writeFilter conf w new r = (.error, { r with out := r.out ++ part }) := by
  obtain ⟨part, hpart, hlink⟩ := linkChain_short hnew hfit
  refine ⟨part, hpart, ?_⟩
  simp only [writeFilter, herr, packed_any_isEmpty hout, hlink, if_true, Bool.false_eq_true, if_false]

/-- The chain may be kept: no buffer of it is the last one or asks for a
flush, and it is smaller than `postpone_output`. -/
def Postponed (conf : FilterConf) (q : List OutBuf) : Prop :=
  (∀ b ∈ q, b.tag.lastBuf = false ∧ b.tag.flush = false) ∧
    (contents q).length < conf.postponeOutput

instance (conf : FilterConf) (q : List OutBuf) : Decidable (Postponed conf q) :=
  inferInstanceAs (Decidable (_ ∧ _))

/-- When the links suffice, the chain is kept or given to the socket. -/
theorem writeFilter_linked (conf : FilterConf) {w : WriteAnswers} {new : List OutBuf}
    {r : Response} (herr : r.error = false) (hout : Packed r.out) (hnew : Packed new)
    (hne : new ≠ []) (hfit : LinksFit w.links new.length) :
    writeFilter conf w new r =
      if Postponed conf (r.out ++ new) then (.ok, { r with out := r.out ++ new })
      else writeOut w.send { r with out := r.out ++ new } := by
  have hlink := linkChain_fit hnew hfit
  have hsize : (contents (r.out ++ new)).length ≠ 0 :=
    Nat.pos_iff_ne_zero.mp ((hout.append hnew).contents_length_pos (by simp [hne]))
  have hpost : (!(r.out ++ new).any (·.tag.lastBuf) && !(r.out ++ new).any (·.tag.flush)
        && !new.isEmpty && decide ((contents (r.out ++ new)).length < conf.postponeOutput)) = true
      ↔ Postponed conf (r.out ++ new) := by
    simp only [Bool.and_eq_true, Bool.not_eq_true', List.any_eq_false, decide_eq_true_eq,
      List.isEmpty_eq_false_iff, Postponed, Bool.not_eq_true]
    constructor
    · rintro ⟨⟨⟨hlast, hflush⟩, _⟩, hlt⟩
      exact ⟨fun b hb => ⟨hlast b hb, hflush b hb⟩, hlt⟩
    · rintro ⟨hflags, hlt⟩
      exact ⟨⟨⟨fun b hb => (hflags b hb).1, fun b hb => (hflags b hb).2⟩, hne⟩, hlt⟩
  simp only [writeFilter, herr, packed_any_isEmpty hout, hlink, Bool.false_eq_true, Bool.true_eq_false,
    if_false, hpost, hsize]

/-- Without a new chain, what is in `r->out` goes to the socket; an empty or
an unpacked `r->out` is an error. -/
theorem writeFilter_nil (conf : FilterConf) (w : WriteAnswers) {r : Response}
    (herr : r.error = false) :
    ((¬ Packed r.out ∨ r.out = []) ∧ writeFilter conf w [] r = (.error, r)) ∨
    (Packed r.out ∧ r.out ≠ [] ∧ writeFilter conf w [] r = writeOut w.send r) := by
  by_cases hpacked : Packed r.out
  · have hlink : linkChain w.links ([] : List OutBuf) = ([], true) := by unfold linkChain; rfl
    by_cases hout : r.out = []
    · refine Or.inl ⟨Or.inr hout, ?_⟩
      simp [writeFilter, herr, hout, hlink]
      rw [← herr, ← hout]
    · refine Or.inr ⟨hpacked, hout, ?_⟩
      have hsize : (contents r.out).length ≠ 0 :=
        Nat.pos_iff_ne_zero.mp (hpacked.contents_length_pos hout)
      simp only [writeFilter, herr, packed_any_isEmpty hpacked, hlink]
      simp [hsize]
      rw [← herr]
  · refine Or.inl ⟨Or.inl hpacked, ?_⟩
    have hany : r.out.any (·.bytes.isEmpty) = true := by
      by_contra hnone
      refine hpacked fun c hc hnil => hnone ?_
      exact List.any_eq_true.mpr ⟨c, hc, by simp [hnil]⟩
    simp [writeFilter, herr, hany]

/-- A socket that is not ready keeps everything buffered. -/
theorem writeOut_blocked {s : SendAnswer} {r : Response} (hready : r.writeReady = false)
    (hout : r.out ≠ []) : writeOut s r = (.again, { r with buffered := true }) := by
  simp [writeOut, sendChain, hready, hout]

/-- A socket error records itself and leaves the chain in place. -/
theorem writeOut_failed {s : SendAnswer} {r : Response} (hready : r.writeReady = true)
    (hfail : s.failed = true) :
    writeOut s r = (.error, { r with
      sent := r.sent + min s.taken (contents r.out).length
      wire := r.wire ++ (contents r.out).take s.taken
      out := consume s.taken r.out
      error := true }) := by
  simp [writeOut, sendChain, hready, hfail]

/-- A socket without an error takes a part of the chain, and the chain is
buffered exactly when something of it is left. -/
theorem writeOut_taken {s : SendAnswer} {r : Response} (hready : r.writeReady = true)
    (hfail : s.failed = false) :
    writeOut s r =
      (if drain s.taken r.out = [] then .ok else .again, { r with
        sent := r.sent + min s.taken (contents r.out).length
        wire := r.wire ++ (contents r.out).take s.taken
        out := drain s.taken r.out
        writeReady := decide ((contents r.out).length ≤ s.taken)
        buffered := decide (drain s.taken r.out ≠ []) }) := by
  by_cases hdrain : drain s.taken r.out = [] <;>
    simp [writeOut, sendChain, hready, hfail, hdrain]

/-- Sending does not touch the request line. -/
@[simp] theorem sendChain_method (s : SendAnswer) (r : Response) :
    (sendChain s r).2.method = r.method := by
  unfold sendChain
  split
  · rfl
  · split <;> rfl

@[simp] theorem writeOut_method (s : SendAnswer) (r : Response) :
    (writeOut s r).2.method = r.method := by
  have h := sendChain_method s r
  unfold writeOut
  split
  next hsend => rw [hsend] at h; exact h
  next hsend =>
    rw [hsend] at h
    split <;> exact h

@[simp] theorem writeFilter_method (conf : FilterConf) (w : WriteAnswers) (new : List OutBuf)
    (r : Response) : (writeFilter conf w new r).2.method = r.method := by
  unfold writeFilter
  split
  · rfl
  split
  · rfl
  dsimp only
  split
  · rfl
  split
  · rfl
  split
  · split <;> rfl
  · exact writeOut_method _ _

@[simp] theorem prepareHeader_method (r : Response) : (prepareHeader r).method = r.method := by
  unfold prepareHeader statusRules
  split <;> split <;> (try split) <;> rfl

@[simp] theorem sendHeader_method (conf : FilterConf) (a : HeaderAnswers) (r : Response) :
    (sendHeader conf a r).2.method = r.method := by
  unfold sendHeader headerFilter
  by_cases herr : r.errStatus = 0 <;> simp only [herr, if_true, if_false]
  all_goals
    split
    · rfl
    split
    · rfl
    split <;> simp

@[simp] theorem outputFilter_method (conf : FilterConf) (w : WriteAnswers) (new : List OutBuf)
    (r : Response) : (outputFilter conf w new r).2.method = r.method := by
  have h := writeFilter_method conf w new r
  unfold outputFilter
  split
  next hwrite => rw [hwrite] at h; exact h
  next => exact h

/-- Sending keeps `r->keepalive`. -/
@[simp] theorem writeOut_keepalive (s : SendAnswer) (r : Response) :
    (writeOut s r).2.keepalive = r.keepalive := by
  unfold writeOut sendChain
  by_cases hready : r.writeReady = false <;> by_cases hfail : s.failed = true <;>
    simp only [hready, hfail, if_true, if_false, Bool.false_eq_true, Bool.true_eq_false] <;>
    first | rfl | (split <;> rfl)

@[simp] theorem writeFilter_keepalive (conf : FilterConf) (w : WriteAnswers)
    (new : List OutBuf) (r : Response) :
    (writeFilter conf w new r).2.keepalive = r.keepalive := by
  unfold writeFilter
  split
  · rfl
  split
  · rfl
  dsimp only
  split
  · rfl
  split
  · rfl
  split
  · split <;> rfl
  · exact writeOut_keepalive _ _

@[simp] theorem sendHeader_keepalive (conf : FilterConf) (a : HeaderAnswers) (r : Response) :
    (sendHeader conf a r).2.keepalive = r.keepalive := by
  have hrules : ∀ r : Response, (statusRules r).keepalive = r.keepalive := by
    intro r
    unfold statusRules
    split
    · rfl
    · split <;> rfl
  have hprepare : ∀ r : Response, (prepareHeader r).keepalive = r.keepalive := by
    intro r
    unfold prepareHeader
    rw [hrules]
    split <;> rfl
  have hheader : ∀ r : Response, (headerFilter conf a r).2.keepalive = r.keepalive := by
    intro r
    unfold headerFilter
    split
    · rfl
    split
    · rfl
    dsimp only
    split
    · exact hprepare r
    · rw [writeFilter_keepalive, hprepare]
  unfold sendHeader
  split
  · rfl
  · rw [hheader]
    split <;> rfl

@[simp] theorem outputFilter_keepalive (conf : FilterConf) (w : WriteAnswers)
    (new : List OutBuf) (r : Response) :
    (outputFilter conf w new r).2.keepalive = r.keepalive := by
  have h := writeFilter_keepalive conf w new r
  unfold outputFilter
  split
  next hwrite =>
    rw [hwrite] at h
    exact h
  next => exact h

/-- The filters return no status. -/
theorem writeFilter_rc (conf : FilterConf) (w : WriteAnswers) (new : List OutBuf)
    (r : Response) :
    (writeFilter conf w new r).1 = .ok ∨ (writeFilter conf w new r).1 = .error ∨
      (writeFilter conf w new r).1 = .again := by
  have hout : ∀ r : Response, (writeOut w.send r).1 = .ok ∨ (writeOut w.send r).1 = .error ∨
      (writeOut w.send r).1 = .again := by
    intro r
    unfold writeOut
    split
    · exact Or.inr (Or.inl rfl)
    · split
      · exact Or.inl rfl
      · exact Or.inr (Or.inr rfl)
  unfold writeFilter
  split
  · exact Or.inr (Or.inl rfl)
  split
  · exact Or.inr (Or.inl rfl)
  dsimp only
  split
  · exact Or.inr (Or.inl rfl)
  split
  · exact Or.inl rfl
  split
  · split
    · exact Or.inl rfl
    · exact Or.inr (Or.inl rfl)
  · exact hout _

theorem sendHeader_rc (conf : FilterConf) (a : HeaderAnswers) (r : Response) :
    (sendHeader conf a r).1 = .ok ∨ (sendHeader conf a r).1 = .error ∨
      (sendHeader conf a r).1 = .again := by
  have hheader : ∀ r : Response, (headerFilter conf a r).1 = .ok ∨
      (headerFilter conf a r).1 = .error ∨ (headerFilter conf a r).1 = .again := by
    intro r
    unfold headerFilter
    split
    · exact Or.inl rfl
    split
    · exact Or.inl rfl
    dsimp only
    split
    · exact Or.inr (Or.inl rfl)
    · exact writeFilter_rc ..
  unfold sendHeader
  split
  · exact Or.inr (Or.inl rfl)
  · exact hheader _

theorem outputFilter_rc (conf : FilterConf) (w : WriteAnswers) (new : List OutBuf)
    (r : Response) :
    (outputFilter conf w new r).1 = .ok ∨ (outputFilter conf w new r).1 = .error ∨
      (outputFilter conf w new r).1 = .again := by
  have h := writeFilter_rc conf w new r
  unfold outputFilter
  split
  · exact Or.inr (Or.inl rfl)
  · exact h

end Toxic
