import ToxicNginx.DrainWatch
import ToxicNginx.MessageHead
import ToxicNginx.RequestHistory

/-!
# The framing fields of a response

The length and the type of a response come from members of `r->headers_out` that
`exit_request` and `header_callback` set, its `Connection` from the header filter,
and behind them stands every line of the script as `header_function` has copied
it, whatever its name.

* `scriptResult` — what a request with these `header()` calls and writes leaves for
  `exit_request`;
* `FramingKept` — a response that is sent, read back by a client, has one length,
  which is that of its body, one type, which is the last one of the script, and no
  second framing;
* `writtenType`, `writtenLength` — the fields that nginx writes itself;
* `scriptHead` — what the lines of the script come to in the head;
* `headerBlock_eq`, `stream_sent`, `readHead_response` — the block, the bytes of a
  response, and what is read of them;
* `countedLength_eq_iff` — when the length of nginx is that of the body;
* `keepsFraming_plain_iff` — the condition for an ordinary script;
* `framingKept_iff` — the exact condition.
-/

namespace Toxic

open ChunkQueue

/-- A call of `header()`, with the memory its element gets. -/
structure HeaderLine where
  line : Bytes
  replace : Bool
  responseCode : Int64
  memory : Memory

/-- The configuration.  `ngx_time_update` formats the date in one line, and the
default content type is one of `php.ini`. -/
structure HeadConf where
  filter : FilterConf
  script : ScriptConf
  chunkedTransferEncoding : Bool
  date : 10 ∉ filter.cachedHttpTime
  contentType : 10 ∉ defaultContentType script

/-- The configuration without directives and without a `php.ini`. -/
instance : Inhabited HeadConf where
  default :=
    { filter := ⟨1460, true, 0, bytesOf "Mon, 28 Sep 1970 06:00:00 GMT"⟩
      script := ⟨true, bytesOf "UTF-8", bytesOf "text/html", true, false, false, true, false, false,
        false, fun _ => none⟩
      chunkedTransferEncoding := true
      date := by decide
      contentType := by decide +kernel }

/-- `SG(sapi_headers)` when a request begins: as `sapi_activate` left it, or as the
first output of the process did. -/
def sapiAtStart (conf : ScriptConf) (printed : Bool) : SapiHeaders :=
  if printed then (sapiSendHeaders ngxHttpToxicModule (ScriptState.fresh conf []).begin).headers
  else .fresh

/-- The two stores after the `header()` calls of a request. -/
def scriptHeaders (conf : ScriptConf) (printed : Bool) (calls : List HeaderLine) : ToxicHeaders :=
  calls.foldl
    (fun t c => toxicCall conf c.memory (.header c.line c.replace c.responseCode) t)
    ⟨[], sapiAtStart conf printed, false⟩

/-- What a script leaves for `exit_request`.  `header()` reaches the list of the
response whether there was output before or not. -/
def scriptResult (conf : ScriptConf) (printed : Bool) (calls : List HeaderLine)
    (writes : List Bytes) : ScriptResult :=
  let t := scriptHeaders conf printed calls
  { responseCode := none
    mimetype := sentMimetype conf t.sapi
    headers := t.headersOut
    writes := writes }

/-- The content type that the script set last. -/
def lastContentType (calls : List HeaderLine) : Option Bytes :=
  (calls.filter fun c => isNamed (bytesOf "Content-Type") c.line).getLast?.map fun c =>
    trimBlanks (restOf (cutTrailing c.line))

/-- A head with these lines frames this body. -/
structure WellFramed (lastType : Option Bytes) (lines : List Bytes) (body : Bytes) : Prop where
  length : ∃ value, valuesOf (bytesOf "Content-Length") lines = [value] ∧
    readLength value = some body.length
  type : ∃ value, valuesOf (bytesOf "Content-Type") lines = [value] ∧
    ∀ set, lastType = some set → value = set
  encoding : valuesOf (bytesOf "Transfer-Encoding") lines = []
  connection : (valuesOf (bytesOf "Connection") lines).length ≤ 1

/-- The status that the response gets. -/
def responseStatus (q : Incoming) (writes : List Bytes) : Nat :=
  if q.errStatus = 0 then (if nonEmpty writes = [] then 0 else 200) else q.errStatus

/-- `ngx_http_chunked_header_filter`, for a main request: whether it makes the response
a chunked one, in the head of which `ngx_http_header_filter` then has a
`Transfer-Encoding`. -/
def makesChunked (conf : HeadConf) (q : Incoming) (status : Nat) (contentLengthN : Int) : Bool :=
  if status = 304 ∨ status = 204 ∨ status < 200 ∨ q.method = .head then false
  else decide (contentLengthN = -1) && decide (1001 ≤ q.httpVersion) && conf.chunkedTransferEncoding

/-- Every response with a head that the filters accept is framed, whatever the
socket takes of it. -/
def FramingKept (conf : HeadConf) (q : Incoming) (printed : Bool) (calls : List HeaderLine)
    (writes : List Bytes) (baseLen : Int32) : Prop :=
  ∀ a : ExitAnswers,
    let s := toxicResponse conf.filter a q (scriptResult conf.script printed calls writes)
      (addWrites baseLen.toInt writes)
    1000 ≤ q.httpVersion → s.headerRc ≠ .error → s.final.error = false →
      makesChunked conf q (responseStatus q writes) (addWrites baseLen.toInt writes) = false ∧
      ∃ lines body, readHead [] s.final.stream = some (lines, body) ∧
        WellFramed (lastContentType calls) lines body

/-- The type that `header_callback` takes over: the default, as the script's never gets
there. -/
def ownType (conf : ScriptConf) (printed : Bool) : Bytes :=
  if printed then bytesOf "text/html" else defaultContentType conf

/-- The `Content-Type` that nginx writes. -/
def writtenType (conf : ScriptConf) (q : Incoming) (printed : Bool) (writes : List Bytes) :
    Option Bytes :=
  if responseStatus q writes = 204 ∨ nonEmpty writes = [] ∨ ownType conf printed = [] then none
  else some (ownType conf printed)

/-- The `int` that `base_len` comes to. -/
def countedLength (writes : List Bytes) (baseLen : Int32) : Int :=
  (baseLen.toInt + ((nonEmpty writes).map List.length).sum).bmod (2 ^ 32)

/-- The number of the `Content-Length` that nginx writes. -/
def writtenLength (q : Incoming) (writes : List Bytes) (baseLen : Int32) : Option Nat :=
  if responseStatus q writes = 204 ∨ countedLength writes baseLen < 0 then none
  else some (countedLength writes baseLen).toNat

/-- What the header filter writes for a call: nothing for a line without a name, or
when the stale hash of the element is 0; the memory of the key for an empty
value. -/
def HeaderLine.text (c : HeaderLine) : Bytes :=
  let k := keyIndex c.line
  if c.memory.hash = 0 ∨ k = 0 then []
  else if c.line.length - 1 - k = 0 then
    (List.range k).map c.memory.heap ++ bytesOf ": " ++ crlf
  else
    strncpy c.line k ++ bytesOf ": " ++
      strncpy (c.line.drop (k + 1)) (c.line.length - 1 - k) ++ crlf

/-- The lines that the script's calls put into the head, and what an empty line
among them leaves for the body. -/
def scriptHead (calls : List HeaderLine) : List Bytes × Bytes :=
  (readHead [] (calls.flatMap HeaderLine.text ++ crlf)).getD ([], [])

/-- The number of bytes behind the head: what an empty line of the script has left,
and every write with its NUL byte. -/
def bytesBehind (calls : List HeaderLine) (writes : List Bytes) : Nat :=
  (scriptHead calls).2.length + ((nonEmpty writes).map (·.length + 1)).sum

/-- Where nginx writes a field itself, the script has no line for it, and the field is
right; where it does not, exactly one line of the script says it. -/
def SaidOnce (own : Bool) (right : Prop) (script : List Bytes) (P : Bytes → Prop) : Prop :=
  if own then script = [] ∧ right else ∃ value, script = [value] ∧ P value

/-- The calls and writes that keep the framing.  The length of nginx is right when
what earlier requests have left in `base_len` is the number of writes that are not
empty, for each has a NUL byte behind it that is not counted, and of the bytes that
an empty line of the script has left. -/
structure KeepsFraming (conf : HeadConf) (q : Incoming) (printed : Bool) (calls : List HeaderLine)
    (writes : List Bytes) (baseLen : Int32) : Prop where
  unchunked : makesChunked conf q (responseStatus q writes) (countedLength writes baseLen) = false
  length : SaidOnce (writtenLength q writes baseLen).isSome
    (baseLen.toInt = (scriptHead calls).2.length + (nonEmpty writes).length ∧
      bytesBehind calls writes < 2 ^ 31)
    (valuesOf (bytesOf "Content-Length") (scriptHead calls).1)
    fun value => readLength value = some (bytesBehind calls writes)
  type : SaidOnce (writtenType conf.script q printed writes).isSome
    (∀ set, lastContentType calls = some set → trimBlanks (ownType conf.script printed) = set)
    (valuesOf (bytesOf "Content-Type") (scriptHead calls).1)
    fun value => ∀ set, lastContentType calls = some set → value = set
  encoding : valuesOf (bytesOf "Transfer-Encoding") (scriptHead calls).1 = []
  connection : valuesOf (bytesOf "Connection") (scriptHead calls).1 = []

/-- Once there was output, the default type is not sent again. -/
theorem sapiAtStart_type (conf : ScriptConf) (printed : Bool) :
    (sapiAtStart conf printed).sendDefaultContentType = !printed ∧
      (sapiAtStart conf printed).mimetype = none := by
  cases printed with
  | false => exact ⟨rfl, rfl⟩
  | true =>
      obtain ⟨headers, calls, hsend, hdefault, hnone⟩ := sapiSendHeaders_spec
        (s := (ScriptState.fresh conf []).begin) ⟨rfl, rfl, rfl, rfl⟩ rfl
      unfold sapiAtStart
      rw [if_pos rfl, hsend]
      exact ⟨hdefault, hnone⟩

/-- What the header filter writes of a list of elements. -/
def elementsText (headers : List TableElt) : Bytes :=
  (headers.filter (·.hash ≠ 0)).flatMap fieldLine

/-- **One call** adds its text. -/
theorem elementsText_headerFunction (c : HeaderLine) (headers : List TableElt) :
    elementsText (headerFunction c.memory.hash c.memory.heap c.line headers)
      = elementsText headers ++ c.text := by
  have hadd : ∀ e : TableElt, elementsText (headers ++ [e])
      = elementsText headers ++ if e.hash = 0 then [] else fieldLine e := by
    intro e
    by_cases he : e.hash = 0 <;> simp [elementsText, he]
  unfold headerFunction HeaderLine.text
  dsimp only
  by_cases hkey : keyIndex c.line = 0
  · simp [hkey]
  · by_cases hhash : c.memory.hash = 0
    · by_cases hempty : c.line.length - 1 - keyIndex c.line = 0 <;>
        simp [hkey, hhash, hempty, hadd]
    · by_cases hempty : c.line.length - 1 - keyIndex c.line = 0 <;>
        simp [hkey, hhash, hempty, hadd, fieldLine]

/-- **Every sequence of calls** leaves `SG(sapi_headers)` as it was, and in the list
of the response the texts of the calls. -/
theorem scriptHeaders_spec (conf : ScriptConf) (printed : Bool) (calls : List HeaderLine) :
    (scriptHeaders conf printed calls).sapi = sapiAtStart conf printed ∧
      elementsText (scriptHeaders conf printed calls).headersOut
        = calls.flatMap HeaderLine.text := by
  induction calls using List.reverseRecOn with
  | nil => exact ⟨rfl, rfl⟩
  | append_singleton calls c ih =>
      obtain ⟨hsapi, htext⟩ := ih
      have hstep : scriptHeaders conf printed (calls ++ [c])
          = toxicCall conf c.memory (.header c.line c.replace c.responseCode)
              (scriptHeaders conf printed calls) := by
        simp [scriptHeaders]
      rw [hstep]
      refine ⟨hsapi, ?_⟩
      rw [toxicCall, elementsText_headerFunction, htext, List.flatMap_append,
        List.flatMap_singleton]

/-- The type that `header_callback` finds. -/
theorem scriptResult_mimetype (conf : ScriptConf) (printed : Bool) (calls : List HeaderLine)
    (writes : List Bytes) :
    (scriptResult conf printed calls writes).mimetype.getD (bytesOf "text/html")
      = ownType conf printed := by
  obtain ⟨hdefault, hnone⟩ := sapiAtStart_type conf printed
  unfold scriptResult sentMimetype
  dsimp only
  rw [(scriptHeaders_spec conf printed calls).1, hdefault, hnone]
  cases printed with
  | false => rfl
  | true => rfl

/-- A field that nginx writes. -/
def ownField (name : String) (value : Bytes) : Bytes := bytesOf name ++ bytesOf ": " ++ value

/-- The `Connection` field, and the one that goes with it. -/
def connectionLines (conf : FilterConf) (keepalive : Bool) (status : Nat) : List Bytes :=
  if status = 101 then [ownField "Connection" (bytesOf "upgrade")]
  else if keepalive then
    ownField "Connection" (bytesOf "keep-alive") ::
      if conf.keepaliveHeader = 0 then []
      else [ownField "Keep-Alive" (bytesOf "timeout=" ++ decimal conf.keepaliveHeader)]
  else [ownField "Connection" (bytesOf "close")]

/-- The value of the `Server` field. -/
def serverName (conf : FilterConf) : Bytes :=
  bytesOf (if conf.serverTokens then "nginx/1.6.2" else "nginx")

/-- The lines that the header filter writes itself. -/
def ownLines (conf : FilterConf) (q : Incoming) (status : Nat) (type : Option Bytes)
    (length : Option Nat) : List Bytes :=
  statusLine status ::
    ownField "Server" (serverName conf) ::
    ownField "Date" conf.cachedHttpTime ::
    (type.toList.map (ownField "Content-Type") ++
      (length.toList.map (fun n => ownField "Content-Length" (decimal n)) ++
        connectionLines conf q.keepalive status))

@[simp] theorem endedLines_append (lines lines' : List Bytes) :
    endedLines (lines ++ lines') = endedLines lines ++ endedLines lines' := by
  simp [endedLines]

@[simp] theorem endedLines_cons (line : Bytes) (lines : List Bytes) :
    endedLines (line :: lines) = line ++ crlf ++ endedLines lines := by
  simp [endedLines]

@[simp] theorem endedLines_nil : endedLines [] = [] := rfl

/-- What the header filter writes of the connection. -/
theorem connectionHeader_eq (conf : FilterConf) (r : Response) :
    connectionHeader conf r
      = endedLines (connectionLines conf r.keepalive r.headersOut.status) := by
  have hupgrade : bytesOf "Connection: upgrade" = ownField "Connection" (bytesOf "upgrade") := by
    decide +kernel
  have hkeep : bytesOf "Connection: keep-alive" = ownField "Connection" (bytesOf "keep-alive") := by
    decide +kernel
  have hclose : bytesOf "Connection: close" = ownField "Connection" (bytesOf "close") := by
    decide +kernel
  have htimeout : bytesOf "Keep-Alive: timeout="
      = bytesOf "Keep-Alive" ++ bytesOf ": " ++ bytesOf "timeout=" := by decide +kernel
  unfold connectionHeader connectionLines
  rw [hupgrade, hkeep, hclose, htimeout]
  split
  · simp
  split
  · by_cases hheader : conf.keepaliveHeader = 0 <;> simp [hheader, ownField]
  · simp

/-- **The header block**: the lines of nginx, and behind them the script's. -/
theorem headerBlock_eq (conf : HeadConf) (q : Incoming) (printed : Bool) (calls : List HeaderLine)
    (writes : List Bytes) (baseLen : Int) :
    headerBlock conf.filter
        (announced q (scriptResult conf.script printed calls writes) baseLen)
      = endedLines (ownLines conf.filter q (responseStatus q writes)
          (writtenType conf.script q printed writes)
          (if responseStatus q writes = 204 ∨ baseLen < 0 then none else some baseLen.toNat)) ++
        (calls.flatMap HeaderLine.text ++ crlf) := by
  generalize hscript : scriptResult conf.script printed calls writes = script
  have hstatus : (announced q script baseLen).headersOut.status = responseStatus q writes := by
    rw [← hscript]
    rfl
  have hserver : (if conf.filter.serverTokens then bytesOf "Server: nginx/1.6.2"
        else bytesOf "Server: nginx") = ownField "Server" (serverName conf.filter) := by
    unfold serverName
    cases conf.filter.serverTokens with
    | false => decide +kernel
    | true => decide +kernel
  have hdate : bytesOf "Date: " = bytesOf "Date" ++ bytesOf ": " := by decide +kernel
  have htypeName : bytesOf "Content-Type: " = bytesOf "Content-Type" ++ bytesOf ": " := by
    decide +kernel
  have hlengthName : bytesOf "Content-Length: " = bytesOf "Content-Length" ++ bytesOf ": " := by
    decide +kernel
  have htype : (if (announced q script baseLen).headersOut.contentType = [] then []
        else bytesOf "Content-Type: " ++
          (announced q script baseLen).headersOut.contentType ++ crlf)
      = endedLines
          ((writtenType conf.script q printed writes).toList.map (ownField "Content-Type")) := by
    have hmime := scriptResult_mimetype conf.script printed calls writes
    rw [hscript] at hmime
    have hwrites : script.writes = writes := by rw [← hscript]; rfl
    have hfinal : finalStatus q script = responseStatus q writes := by rw [← hscript]; rfl
    unfold announced finalHeaders writtenType
    dsimp only
    rw [hfinal, hwrites, hmime, htypeName]
    by_cases hnone : responseStatus q writes = 204 ∨ nonEmpty writes = []
    · simp [hnone, ← or_assoc]
    · by_cases hempty : ownType conf.script printed = []
      · simp [hnone, hempty]
      · simp [hnone, hempty, ownField]
  have hlength : (if (announced q script baseLen).headersOut.contentLengthN < 0 then []
        else bytesOf "Content-Length: " ++
          decimal (announced q script baseLen).headersOut.contentLengthN.toNat ++ crlf)
      = endedLines ((if responseStatus q writes = 204 ∨ baseLen < 0 then none
          else some baseLen.toNat : Option Nat).toList.map
            fun n => ownField "Content-Length" (decimal n)) := by
    have hfinal : finalStatus q script = responseStatus q writes := by rw [← hscript]; rfl
    unfold announced finalHeaders
    dsimp only
    rw [hfinal, hlengthName]
    by_cases h204 : responseStatus q writes = 204
    · simp [h204]
    · by_cases hneg : baseLen < 0 <;> simp [h204, hneg, ownField]
  have hfields : ((announced q script baseLen).headersOut.headers.filter (·.hash ≠ 0)).flatMap
      (fun h => h.key ++ bytesOf ": " ++ h.value ++ crlf) = calls.flatMap HeaderLine.text := by
    rw [← (scriptHeaders_spec conf.script printed calls).2, ← hscript]
    rfl
  unfold headerBlock
  rw [hserver, htype, hlength, hfields, connectionHeader_eq, hstatus, hdate]
  simp only [ownLines, endedLines_cons, endedLines_append, List.append_assoc, ownField]
  rfl

/-- A status line is no field of a name that begins with another letter. -/
theorem isNamed_statusLine {name : Bytes} {c : UInt8} (hname : name.head? = some c)
    (hc : toLower c ≠ 104) (status : Nat) : isNamed name (statusLine status) = false := by
  have hline : statusLine status = 72 :: ((bytesOf "HTTP/1.1 ").tail ++ statusText status) := by
    have : bytesOf "HTTP/1.1 " = 72 :: (bytesOf "HTTP/1.1 ").tail := by decide +kernel
    rw [statusLine, this]
    rfl
  cases name with
  | nil => cases hname
  | cons n name =>
      obtain rfl := Option.some.inj hname
      rw [hline]
      exact isNamed_head (Ne.symm hc) _ name

/-- A field of nginx has one value under its name, and none under another. -/
theorem valuesOf_ownField (name : Bytes) {key : String} (hkey : 58 ∉ bytesOf key) (value : Bytes) :
    valuesOf name [ownField key value]
      = if eqNoCase (bytesOf key) name then [trimBlanks value] else [] := by
  obtain ⟨hnamed, hvalue⟩ := isNamed_field hkey value name
  rw [valuesOf_cons, ownField, hnamed, hvalue, valuesOf_nil, List.append_nil]

theorem valuesOf_connectionLines (name : Bytes) (conf : FilterConf) (keepalive : Bool)
    (status : Nat) (hkeep : eqNoCase (bytesOf "Keep-Alive") name = false) :
    (valuesOf name (connectionLines conf keepalive status)).length
      = if eqNoCase (bytesOf "Connection") name then 1 else 0 := by
  have hone : ∀ value, (valuesOf name [ownField "Connection" value]).length
      = if eqNoCase (bytesOf "Connection") name then 1 else 0 := by
    intro value
    rw [valuesOf_ownField name (by decide)]
    split
    · rfl
    · rfl
  have hnone : ∀ value, valuesOf name [ownField "Keep-Alive" value] = [] := by
    intro value
    rw [valuesOf_ownField name (by decide), hkeep]
    rfl
  unfold connectionLines
  split
  · exact hone _
  split
  · split
    · exact hone _
    · rw [← List.singleton_append, valuesOf_append, hnone, List.append_nil]
      exact hone _
  · exact hone _

/-- A name that only the lines of the type, the length and the connection can
have. -/
structure FramingName (name : Bytes) : Prop where
  head : ∃ c, name.head? = some c ∧ toLower c ≠ 104
  server : eqNoCase (bytesOf "Server") name = false
  date : eqNoCase (bytesOf "Date") name = false
  keepAlive : eqNoCase (bytesOf "Keep-Alive") name = false

/-- **What nginx writes** under such a name. -/
theorem valuesOf_ownLines {name : Bytes} (hname : FramingName name) (conf : FilterConf)
    (q : Incoming) (status : Nat) (type : Option Bytes) (length : Option Nat) :
    valuesOf name (ownLines conf q status type length)
      = (if eqNoCase (bytesOf "Content-Type") name then type.toList.map trimBlanks else []) ++
        ((if eqNoCase (bytesOf "Content-Length") name then length.toList.map decimal else []) ++
          valuesOf name (connectionLines conf q.keepalive status)) := by
  obtain ⟨c, hhead, hc⟩ := hname.head
  have hstatus : valuesOf name [statusLine status] = [] := by
    rw [valuesOf_cons, isNamed_statusLine hhead hc]
    rfl
  have hother : ∀ (key : String) (value : Bytes), 58 ∉ bytesOf key →
      eqNoCase (bytesOf key) name = false → valuesOf name [ownField key value] = [] := by
    intro key value hkey hdiff
    rw [valuesOf_ownField name hkey, hdiff]
    rfl
  have htype : valuesOf name (type.toList.map (ownField "Content-Type"))
      = if eqNoCase (bytesOf "Content-Type") name then type.toList.map trimBlanks else [] := by
    cases type with
    | none => simp
    | some type => exact valuesOf_ownField name (by decide) type
  have hlength : valuesOf name (length.toList.map fun n => ownField "Content-Length" (decimal n))
      = if eqNoCase (bytesOf "Content-Length") name then length.toList.map decimal else [] := by
    cases length with
    | none => simp
    | some n =>
        have h := @valuesOf_ownField name "Content-Length" (by decide) (decimal n)
        rw [trimBlanks_decimal] at h
        exact h
  have hsplit : ownLines conf q status type length
      = [statusLine status] ++
        ([ownField "Server" (serverName conf)] ++
          ([ownField "Date" conf.cachedHttpTime] ++
            (type.toList.map (ownField "Content-Type") ++
              (length.toList.map (fun n => ownField "Content-Length" (decimal n)) ++
                connectionLines conf q.keepalive status)))) := rfl
  rw [hsplit]
  simp only [valuesOf_append, hstatus, hother "Server" _ (by decide) hname.server,
    hother "Date" _ (by decide) hname.date, htype, hlength, List.nil_append]

/-- The four names of the framing. -/
theorem framingName_length : FramingName (bytesOf "Content-Length") :=
  ⟨⟨67, by decide, by decide⟩, by decide, by decide, by decide⟩

theorem framingName_type : FramingName (bytesOf "Content-Type") :=
  ⟨⟨67, by decide, by decide⟩, by decide, by decide, by decide⟩

theorem framingName_encoding : FramingName (bytesOf "Transfer-Encoding") :=
  ⟨⟨84, by decide, by decide⟩, by decide, by decide, by decide⟩

theorem framingName_connection : FramingName (bytesOf "Connection") :=
  ⟨⟨67, by decide, by decide⟩, by decide, by decide, by decide⟩

/-- A reason phrase is one line. -/
theorem newline_notMem_statusReason (status : Nat) : 10 ∉ bytesOf (statusReason status) := by
  unfold statusReason
  split <;> decide +kernel

/-- A number is one line. -/
theorem newline_notMem_decimal (n : Nat) : 10 ∉ decimal n := by
  intro h
  have := mem_decimal h
  revert this
  decide

/-- The status line is one line. -/
theorem newline_notMem_statusLine (status : Nat) : 10 ∉ statusLine status := by
  have hversion : 10 ∉ bytesOf "HTTP/1.1 " := by decide +kernel
  have hzeros : ∀ n, 10 ∉ List.replicate n (48 : UInt8) := by
    intro n h
    exact absurd (List.eq_of_mem_replicate h) (by decide)
  simp only [statusLine, statusText, decimal03, List.mem_append, List.mem_cons, not_or]
  exact ⟨hversion, ⟨hzeros _, newline_notMem_decimal _⟩, by decide,
    newline_notMem_statusReason status⟩

/-- A field of nginx is one line when its value is. -/
theorem ownField_line {name : String} (hname : bytesOf name ≠ [] ∧ 10 ∉ bytesOf name)
    {value : Bytes} (hvalue : 10 ∉ value) :
    ownField name value ≠ [] ∧ 10 ∉ ownField name value := by
  have hcolon : 10 ∉ bytesOf ": " := by decide
  unfold ownField
  refine ⟨by simp [hname.1], ?_⟩
  simp only [List.mem_append, not_or]
  exact ⟨⟨hname.2, hcolon⟩, hvalue⟩

/-- **The lines of nginx** are lines. -/
theorem ownLines_line (conf : HeadConf) (q : Incoming) (status : Nat) {type : Option Bytes}
    (htype : ∀ t ∈ type, 10 ∉ t) (length : Option Nat) :
    ∀ line ∈ ownLines conf.filter q status type length, line ≠ [] ∧ 10 ∉ line := by
  intro line hline
  simp only [ownLines, List.mem_cons, List.mem_append, List.mem_map, Option.mem_toList] at hline
  rcases hline with rfl | rfl | rfl | ⟨t, ht, rfl⟩ | ⟨n, _, rfl⟩ | hline
  · exact ⟨by simp [statusLine, statusText], newline_notMem_statusLine status⟩
  · apply ownField_line (by decide)
    unfold serverName
    cases conf.filter.serverTokens with
    | false => decide
    | true => decide
  · exact ownField_line (by decide) conf.date
  · exact ownField_line (by decide) (htype t ht)
  · exact ownField_line (by decide) (newline_notMem_decimal n)
  · have htimeout : 10 ∉ bytesOf "timeout=" ++ decimal conf.filter.keepaliveHeader := by
      rw [List.mem_append, not_or]
      exact ⟨by decide, newline_notMem_decimal _⟩
    unfold connectionLines at hline
    split at hline
    · rw [List.mem_singleton.mp hline]
      exact ownField_line (by decide) (by decide)
    split at hline
    · rcases List.mem_cons.mp hline with rfl | hline
      · exact ownField_line (by decide) (by decide)
      · split at hline
        · cases hline
        · rw [List.mem_singleton.mp hline]
          exact ownField_line (by decide) htimeout
    · rw [List.mem_singleton.mp hline]
      exact ownField_line (by decide) (by decide)

/-- The type that nginx writes is one line. -/
theorem writtenType_line (conf : HeadConf) (q : Incoming) (printed : Bool) (writes : List Bytes) :
    ∀ t ∈ writtenType conf.script q printed writes, 10 ∉ t := by
  have hline : 10 ∉ ownType conf.script printed := by
    have hplain : 10 ∉ bytesOf "text/html" := by decide
    cases printed with
    | false => exact conf.contentType
    | true => exact hplain
  intro t ht
  unfold writtenType at ht
  split at ht
  · cases ht
  · exact Option.some.inj ht ▸ hline

/-- **A response that is sent** is the header block and the body. -/
theorem stream_sent (conf : FilterConf) {a : ExitAnswers} {q : Incoming} {script : ScriptResult}
    {baseLen : Int} (hnew : ¬ q.httpVersion < 1000)
    (hheader : (toxicResponse conf a q script baseLen).headerRc ≠ .error)
    (herror : (toxicResponse conf a q script baseLen).final.error = false) :
    (toxicResponse conf a q script baseLen).final.stream
      = headerBlock conf (announced q script baseLen) ++ contents (bodyBufs script) := by
  have hrc : (sendHeader conf a.header (beforeHeader q script baseLen)).1 ≠ .error := by
    by_cases hprint : nonEmpty script.writes = []
    · rw [toxicResponse_empty conf a q baseLen hprint] at hheader
      exact hheader
    · rw [toxicResponse_body conf a q baseLen hprint] at hheader
      exact hheader
  have haccept : ¬ HeaderRefused a q := by
    intro hrefused
    rw [sendHeader_refused conf script baseLen hnew hrefused] at hrc
    exact hrc rfl
  have hsends : ¬ HeaderSendFails conf a q script baseLen := by
    intro hfails
    have hsend := sendHeader_accepted conf script baseLen hnew haccept
    rw [if_neg hfails.1, writeOut_failed
      (r := { announced q script baseLen with out := [headerBuf conf q script baseLen] })
      hfails.2.1 hfails.2.2] at hsend
    rw [hsend] at hrc
    exact hrc rfl
  obtain ⟨k, rc, r, hsend, -, hafter, -⟩ :=
    sendHeader_afterHeader conf script baseLen hnew haccept hsends
  have hstream : r.stream = headerBlock conf (announced q script baseLen) := hafter.stream
  by_cases hprint : nonEmpty script.writes = []
  · rw [toxicResponse_empty conf a q baseLen hprint, hsend, contents_bodyBufs, hprint]
    simpa using hstream
  · rw [toxicResponse_body conf a q baseLen hprint, hsend] at herror ⊢
    have hout : Packed r.out := by
      rw [hafter.out]
      exact (headerBuf_packed conf q script baseLen).drain k
    rw [← hstream]
    rcases outputFilter_cases conf a.body hout (bodyBufs_packed script) (bodyBufs_last hprint) with
      ⟨herr, _⟩ | ⟨_, _, part, _, h⟩ | ⟨_, _, ⟨_, h⟩ | ⟨_, _, h⟩ | ⟨_, _, h⟩⟩
    · rw [hafter.error] at herr
      cases herr
    · rw [h] at herror
      cases herror
    · rw [h]
      simp [Response.stream]
    · rw [h] at herror
      cases herror
    · rw [h]
      simp only [Response.stream, contents_drain, List.append_assoc, List.take_append_drop,
        contents_append]

/-- The answers of a pool that has memory and of a socket that takes nothing. -/
def keptAnswers : ExitAnswers := ⟨⟨true, ⟨none, ⟨0, false⟩⟩⟩, ⟨none, ⟨0, false⟩⟩⟩

/-- With these a connection that is not broken accepts every response. -/
theorem keptAnswers_accepted (conf : FilterConf) {q : Incoming} (script : ScriptResult)
    (baseLen : Int) (hnew : ¬ q.httpVersion < 1000) (halive : q.error = false) :
    (toxicResponse conf keptAnswers q script baseLen).headerRc ≠ .error ∧
      (toxicResponse conf keptAnswers q script baseLen).final.error = false := by
  have hfit : ∀ n, LinksFit (none : Option Nat) n := fun n k h => absurd h (by simp)
  have haccept : ¬ HeaderRefused keptAnswers q := by
    simp [HeaderRefused, keptAnswers, halive, hfit]
  have hsends : ¬ HeaderSendFails conf keptAnswers q script baseLen := by
    simp [HeaderSendFails, keptAnswers]
  obtain ⟨k, rc, r, hsend, hrc, hafter, -⟩ :=
    sendHeader_afterHeader conf script baseLen hnew haccept hsends
  by_cases hprint : nonEmpty script.writes = []
  · rw [toxicResponse_empty conf keptAnswers q baseLen hprint, hsend]
    exact ⟨hrc, hafter.error⟩
  · rw [toxicResponse_body conf keptAnswers q baseLen hprint, hsend]
    refine ⟨hrc, ?_⟩
    have hout : Packed r.out := by
      rw [hafter.out]
      exact (headerBuf_packed conf q script baseLen).drain k
    rcases outputFilter_cases conf keptAnswers.body hout (bodyBufs_packed script)
        (bodyBufs_last hprint) with
      ⟨herr, _⟩ | ⟨_, hlinks, _⟩ | ⟨_, _, ⟨_, h⟩ | ⟨_, hfail, _⟩ | ⟨_, _, h⟩⟩
    · rw [hafter.error] at herr
      cases herr
    · exact absurd (hfit _) hlinks
    · rw [h]
      exact hafter.error
    · cases hfail
    · rw [h]
      exact hafter.error

/-- The writes add up in an `int`. -/
theorem addWrites_eq_countedLength (writes : List Bytes) (baseLen : Int32) :
    addWrites baseLen.toInt writes = countedLength writes baseLen := by
  have hfold : ∀ (written : List Bytes) (n : Int), n.bmod (2 ^ 32) = n →
      written.foldl (fun n str => addInt n str.length) n
        = (n + ((written.map List.length).sum : Nat)).bmod (2 ^ 32) := by
    intro written
    induction written with
    | nil =>
        intro n hn
        simpa using hn.symm
    | cons str written ih =>
        intro n _
        rw [List.foldl_cons, ih _ (by simp [addInt]), addInt, Int.bmod_add_bmod, List.map_cons,
          List.sum_cons, Nat.cast_add, add_assoc]
  exact hfold _ _ baseLen.toInt_bmod

/-- The text of the calls is made of lines that end. -/
theorem text_ended (calls : List HeaderLine) :
    calls.flatMap HeaderLine.text = [] ∨
      ∃ text, calls.flatMap HeaderLine.text = text ++ crlf := by
  have hone : ∀ c : HeaderLine, c.text = [] ∨ ∃ text, c.text = text ++ crlf := by
    intro c
    unfold HeaderLine.text
    dsimp only
    split
    · exact Or.inl rfl
    split
    · exact Or.inr ⟨_, rfl⟩
    · exact Or.inr ⟨_, rfl⟩
  induction calls using List.reverseRecOn with
  | nil => exact Or.inl rfl
  | append_singleton calls c ih =>
      rw [List.flatMap_append, List.flatMap_singleton]
      rcases hone c with hnone | ⟨text, htext⟩
      · rw [hnone, List.append_nil]
        exact ih
      · rw [htext, ← List.append_assoc]
        exact Or.inr ⟨_, rfl⟩

/-- The script's part of the head always ends. -/
theorem readHead_script (calls : List HeaderLine) :
    readHead [] (calls.flatMap HeaderLine.text ++ crlf) = some (scriptHead calls) := by
  have hsome : (readHead [] (calls.flatMap HeaderLine.text ++ crlf)).isSome = true := by
    rcases text_ended calls with hnone | ⟨text, htext⟩
    · rw [hnone]
      decide
    · have hend : text ++ crlf ++ crlf = (text ++ [13]) ++ 10 :: crlf := by simp [crlf]
      rw [htext, hend]
      exact readHead_isSome [] _
  obtain ⟨head, hhead⟩ := Option.isSome_iff_exists.mp hsome
  rw [scriptHead, hhead, Option.getD_some]

/-- **What a client reads**: the lines of nginx and of the script, and as the body
what is behind them. -/
theorem readHead_response (conf : HeadConf) (q : Incoming) (printed : Bool)
    (calls : List HeaderLine) (writes : List Bytes) (baseLen : Int32) (body : Bytes) :
    readHead [] (headerBlock conf.filter (announced q
        (scriptResult conf.script printed calls writes) (addWrites baseLen.toInt writes)) ++ body)
      = some
        (ownLines conf.filter q (responseStatus q writes) (writtenType conf.script q printed writes)
            (writtenLength q writes baseLen) ++ (scriptHead calls).1,
          (scriptHead calls).2 ++ body) := by
  have hlines := ownLines_line conf q (responseStatus q writes)
    (writtenType_line conf q printed writes) (writtenLength q writes baseLen)
  rw [headerBlock_eq, addWrites_eq_countedLength, List.append_assoc]
  unfold writtenLength at hlines ⊢
  rw [readHead_lines hlines, readHead_append (readHead_script calls) body]
  rfl

/-- The body has a NUL byte more than each write. -/
theorem length_bodyBufs (script : ScriptResult) :
    (contents (bodyBufs script)).length = ((nonEmpty script.writes).map (·.length + 1)).sum := by
  rw [contents_bodyBufs, List.length_flatten, List.map_map]
  congr 1
  apply List.map_congr_left
  intro str _
  simp

/-- The values of both together are one. -/
theorem saidOnce_iff {own : Option Bytes} (script : List Bytes) {P : Bytes → Prop} {right : Prop}
    (hright : ∀ value, own = some value → (P value ↔ right)) :
    (∃ value, own.toList ++ script = [value] ∧ P value) ↔ SaidOnce own.isSome right script P := by
  unfold SaidOnce
  cases own with
  | none => simp
  | some own =>
      simp only [Option.toList_some, List.singleton_append, List.cons.injEq, Option.isSome_some,
        if_true, ← hright own rfl]
      constructor
      · intro h
        obtain ⟨value, ⟨rfl, hnone⟩, hvalue⟩ := h
        exact ⟨hnone, hvalue⟩
      · intro h
        exact ⟨own, ⟨rfl, h.1⟩, h.2⟩

/-- A NUL byte for each write that is not empty. -/
theorem sum_length_succ (written : List Bytes) :
    (written.map (·.length + 1)).sum = (written.map List.length).sum + written.length := by
  induction written with
  | nil => rfl
  | cons str written ih =>
      simp only [List.map_cons, List.sum_cons, List.length_cons, ih]
      omega

/-- **The length of nginx** is that of the body exactly when `base_len` was the
difference, and the body is shorter than an `int` can say. -/
theorem countedLength_eq_iff (calls : List HeaderLine) (writes : List Bytes) (baseLen : Int32) :
    countedLength writes baseLen = bytesBehind calls writes ↔
      baseLen.toInt = (scriptHead calls).2.length + (nonEmpty writes).length ∧
        bytesBehind calls writes < 2 ^ 31 := by
  have hlow := baseLen.le_toInt
  have hhigh := baseLen.toInt_lt
  unfold countedLength bytesBehind
  rw [sum_length_succ, Int.bmod_def]
  generalize baseLen.toInt = base at hlow hhigh ⊢
  generalize ((nonEmpty writes).map List.length).sum = total
  split
  · omega
  · omega

/-- The length that nginx writes, as it is read. -/
theorem readLength_written_iff (q : Incoming) (calls : List HeaderLine) (writes : List Bytes)
    (baseLen : Int32) {value : Bytes}
    (h : (writtenLength q writes baseLen).map decimal = some value) :
    readLength value = some (bytesBehind calls writes) ↔
      baseLen.toInt = (scriptHead calls).2.length + (nonEmpty writes).length ∧
        bytesBehind calls writes < 2 ^ 31 := by
  rw [← countedLength_eq_iff]
  obtain ⟨n, hn, rfl⟩ := Option.map_eq_some_iff.mp h
  rw [readLength_decimal, Option.some.injEq]
  unfold writtenLength at hn
  by_cases hnone : responseStatus q writes = 204 ∨ countedLength writes baseLen < 0
  · rw [if_pos hnone] at hn
    cases hn
  · rw [if_neg hnone] at hn
    obtain rfl := Option.some.inj hn
    omega

/-- The type that nginx writes is its own. -/
theorem writtenType_right_iff (conf : ScriptConf) (q : Incoming) (printed : Bool)
    (calls : List HeaderLine) (writes : List Bytes) (value : Bytes)
    (h : (writtenType conf q printed writes).map trimBlanks = some value) :
    (∀ set, lastContentType calls = some set → value = set) ↔
      ∀ set, lastContentType calls = some set → trimBlanks (ownType conf printed) = set := by
  obtain ⟨type, htype, rfl⟩ := Option.map_eq_some_iff.mp h
  unfold writtenType at htype
  split at htype
  · cases htype
  · obtain rfl := Option.some.inj htype
    exact Iff.rfl

/-- Of the framing, nginx writes the length and the type it has, and one
connection. -/
theorem ownLines_framing (conf : FilterConf) (q : Incoming) (status : Nat) (type : Option Bytes)
    (length : Option Nat) :
    valuesOf (bytesOf "Content-Length") (ownLines conf q status type length)
        = length.toList.map decimal ∧
      valuesOf (bytesOf "Content-Type") (ownLines conf q status type length)
        = type.toList.map trimBlanks ∧
      valuesOf (bytesOf "Transfer-Encoding") (ownLines conf q status type length) = [] ∧
      (valuesOf (bytesOf "Connection") (ownLines conf q status type length)).length = 1 := by
  have hconn := fun {name : Bytes} (hname : FramingName name) =>
    valuesOf_connectionLines name conf q.keepalive status hname.keepAlive
  have hnone : ∀ {name : Bytes}, FramingName name → eqNoCase (bytesOf "Connection") name = false →
      valuesOf name (connectionLines conf q.keepalive status) = [] := by
    intro name hname hdiff
    rw [← List.length_eq_zero_iff, hconn hname, hdiff]
    rfl
  refine ⟨?_, ?_, ?_, ?_⟩
  · rw [valuesOf_ownLines framingName_length, hnone framingName_length (by decide),
      if_neg (by decide), if_pos (by decide), List.nil_append, List.append_nil]
  · rw [valuesOf_ownLines framingName_type, hnone framingName_type (by decide),
      if_pos (by decide), if_neg (by decide), List.nil_append, List.append_nil]
  · rw [valuesOf_ownLines framingName_encoding, hnone framingName_encoding (by decide),
      if_neg (by decide), if_neg (by decide)]
    rfl
  · rw [valuesOf_ownLines framingName_connection, if_neg (by decide), if_neg (by decide),
      List.nil_append, List.nil_append, hconn framingName_connection, if_pos (by decide)]

/-- **A head of these lines**, without chunks, frames the body exactly under the
condition. -/
theorem wellFramed_iff (conf : HeadConf) (q : Incoming) (printed : Bool)
    (calls : List HeaderLine) (writes : List Bytes) (baseLen : Int32) {body : Bytes}
    (hbody : body.length = bytesBehind calls writes) :
    (makesChunked conf q (responseStatus q writes) (countedLength writes baseLen) = false ∧
      WellFramed (lastContentType calls)
        (ownLines conf.filter q (responseStatus q writes) (writtenType conf.script q printed writes)
          (writtenLength q writes baseLen) ++ (scriptHead calls).1) body) ↔
      KeepsFraming conf q printed calls writes baseLen := by
  obtain ⟨hlength, htype, hencoding, hconnection⟩ := ownLines_framing conf.filter q
    (responseStatus q writes) (writtenType conf.script q printed writes)
    (writtenLength q writes baseLen)
  have hlengths := saidOnce_iff (valuesOf (bytesOf "Content-Length") (scriptHead calls).1)
    fun value => readLength_written_iff q calls writes baseLen
  have htypes := saidOnce_iff (valuesOf (bytesOf "Content-Type") (scriptHead calls).1)
    (writtenType_right_iff conf.script q printed calls writes)
  rw [Option.toList_map, ← hlength, ← valuesOf_append, Option.isSome_map] at hlengths
  rw [Option.toList_map, ← htype, ← valuesOf_append, Option.isSome_map] at htypes
  constructor
  · intro hboth
    obtain ⟨hchunks, h⟩ := hboth
    have hlen := h.length
    rw [hbody] at hlen
    refine ⟨hchunks, hlengths.mp hlen, htypes.mp h.type, ?_, ?_⟩
    · have hnone := h.encoding
      rw [valuesOf_append, hencoding, List.nil_append] at hnone
      exact hnone
    · have hone := h.connection
      rw [valuesOf_append, List.length_append, hconnection] at hone
      exact List.length_eq_zero_iff.mp (by omega)
  · intro h
    refine ⟨h.unchunked, ?_, htypes.mpr h.type, ?_, ?_⟩
    · rw [hbody]
      exact hlengths.mpr h.length
    · rw [valuesOf_append, hencoding, h.encoding]
      rfl
    · rw [valuesOf_append, List.length_append, hconnection, h.connection]
      exact le_rfl

/-- What is behind the head of the script, and the writes with their NUL bytes, are
the body. -/
theorem length_behind (conf : ScriptConf) (printed : Bool) (calls : List HeaderLine)
    (writes : List Bytes) :
    ((scriptHead calls).2 ++ contents (bodyBufs (scriptResult conf printed calls writes))).length
      = bytesBehind calls writes := by
  rw [List.length_append, length_bodyBufs]
  rfl

/-- A script that keeps the framing. -/
theorem framingKept_of_keepsFraming {conf : HeadConf} {q : Incoming} {printed : Bool}
    {calls : List HeaderLine} {writes : List Bytes} {baseLen : Int32}
    (h : KeepsFraming conf q printed calls writes baseLen) :
    FramingKept conf q printed calls writes baseLen := by
  intro a s hnew hheader herror
  have hstream := stream_sent conf.filter (Nat.not_lt.mpr hnew) hheader herror
  obtain ⟨hchunks, hframed⟩ := (wellFramed_iff conf q printed calls writes baseLen
    (length_behind conf.script printed calls writes)).mpr h
  refine ⟨?_, _, _, ?_, hframed⟩
  · rw [addWrites_eq_countedLength]
    exact hchunks
  · rw [hstream, readHead_response]

/-- A script that does not is seen in the first response. -/
theorem keepsFraming_of_framingKept {conf : HeadConf} {q : Incoming} {printed : Bool}
    {calls : List HeaderLine} {writes : List Bytes} {baseLen : Int32}
    (hnew : 1000 ≤ q.httpVersion) (halive : q.error = false)
    (h : FramingKept conf q printed calls writes baseLen) :
    KeepsFraming conf q printed calls writes baseLen := by
  obtain ⟨hheader, herror⟩ := keptAnswers_accepted conf.filter
    (scriptResult conf.script printed calls writes) (addWrites baseLen.toInt writes)
    (Nat.not_lt.mpr hnew) halive
  obtain ⟨hchunks, lines, body, hread, hframed⟩ := h keptAnswers hnew hheader herror
  rw [addWrites_eq_countedLength] at hchunks
  have hstream := stream_sent conf.filter (Nat.not_lt.mpr hnew) hheader herror
  rw [hstream, readHead_response] at hread
  obtain ⟨rfl, rfl⟩ := Prod.mk.inj (Option.some.inj hread)
  exact (wellFramed_iff conf q printed calls writes baseLen
    (length_behind conf.script printed calls writes)).mp ⟨hchunks, hframed⟩

/-- On a broken connection the header is refused. -/
theorem headerRc_broken (conf : FilterConf) {a : ExitAnswers} {q : Incoming}
    {script : ScriptResult} {baseLen : Int} (hnew : ¬ q.httpVersion < 1000)
    (hbroken : q.error = true) : (toxicResponse conf a q script baseLen).headerRc = .error := by
  have hsend := sendHeader_refused conf (a := a) script baseLen hnew (Or.inr (Or.inl hbroken))
  by_cases hprint : nonEmpty script.writes = []
  · rw [toxicResponse_empty conf a q baseLen hprint, hsend]
  · rw [toxicResponse_body conf a q baseLen hprint, hsend]

/-- An ordinary call: a name and a value in one line, without NUL bytes. -/
structure HeaderLine.Plain (c : HeaderLine) : Prop where
  key : keyIndex c.line ≠ 0
  value : restOf c.line ≠ []
  oneLine : 10 ∉ c.line
  noNul : 0 ∉ c.line

/-- The line that an ordinary call puts into the head. -/
def HeaderLine.written (c : HeaderLine) : Bytes :=
  c.line.take (keyIndex c.line) ++ bytesOf ": " ++ restOf c.line

theorem HeaderLine.Plain.text {c : HeaderLine} (h : c.Plain) (hhash : c.memory.hash ≠ 0) :
    c.text = c.written ++ crlf := by
  obtain ⟨_, hindex⟩ := keyIndex_ne_zero h.key
  have hlt := (line_split h.key).1
  have hrest : c.line.drop (keyIndex c.line + 1) = restOf c.line := by rw [restOf, hindex]
  have hlen : (restOf c.line).length = c.line.length - 1 - keyIndex c.line := by
    rw [← hrest, List.length_drop]
    omega
  have hvalue : c.line.length - 1 - keyIndex c.line ≠ 0 := by
    rw [← hlen]
    exact fun hnil => h.value (List.length_eq_zero_iff.mp hnil)
  have htake : (restOf c.line).take (c.line.length - 1 - keyIndex c.line) = restOf c.line := by
    rw [← hlen, List.take_length]
  have hrestNul : 0 ∉ restOf c.line := fun hmem => h.noNul (List.mem_of_mem_drop hmem)
  unfold HeaderLine.text HeaderLine.written
  simp only [hhash, h.key, or_self, if_false, hvalue, hrest]
  rw [strncpy_eq_take (fun hmem => h.noNul (List.mem_of_mem_take hmem)) hlt.le,
    strncpy_eq_take (htake.symm ▸ hrestNul) hlen.ge, htake]

/-- It is one line, with the name of the call. -/
theorem HeaderLine.Plain.written {c : HeaderLine} (h : c.Plain) (name : Bytes) :
    (c.written ≠ [] ∧ 10 ∉ c.written) ∧ isNamed name c.written = isNamed name c.line ∧
      trimBlanks (restOf c.written) = trimBlanks (restOf c.line) := by
  obtain ⟨hmem, hindex⟩ := keyIndex_ne_zero h.key
  have hcolon : 58 ∉ c.line.take (keyIndex c.line) := by
    rw [hindex, List.mem_take_iff_idxOf_lt hmem]
    exact lt_irrefl _
  obtain ⟨hnamed, hvalue⟩ := isNamed_field hcolon (restOf c.line) name
  have hname : nameOf c.line = some (c.line.take (keyIndex c.line)) := by
    rw [nameOf, if_pos hmem, hindex]
  refine ⟨⟨by simp [HeaderLine.written, bytesOf], ?_⟩, ?_, hvalue⟩
  · unfold HeaderLine.written
    simp only [List.mem_append, not_or]
    exact ⟨⟨fun hmem => h.oneLine (List.mem_of_mem_take hmem), by decide⟩,
      fun hmem => h.oneLine (List.mem_of_mem_drop hmem)⟩
  · unfold HeaderLine.written
    rw [hnamed, isNamed, hname]

/-- **Ordinary calls** are in the head what they are in the script, as far as the
hashes of their elements let the header filter see them. -/
theorem valuesOf_scriptHead {calls : List HeaderLine} (hplain : ∀ c ∈ calls, c.Plain) :
    (scriptHead calls).2 = [] ∧ ∀ name, valuesOf name (scriptHead calls).1
      = ((calls.filter fun c => c.memory.hash ≠ 0).filter fun c => isNamed name c.line).map
          fun c => trimBlanks (restOf c.line) := by
  have htexts : calls.flatMap HeaderLine.text
      = endedLines ((calls.filter fun c => c.memory.hash ≠ 0).map HeaderLine.written) := by
    induction calls with
    | nil => rfl
    | cons c calls ih =>
        rw [List.flatMap_cons, ih fun d hd => hplain d (List.mem_cons_of_mem _ hd)]
        by_cases hhash : c.memory.hash = 0
        · have htext : c.text = [] := by simp [HeaderLine.text, hhash]
          simp [htext, hhash]
        · rw [(hplain c List.mem_cons_self).text hhash]
          simp [hhash]
  have hwritten : ∀ c ∈ calls.filter fun c => c.memory.hash ≠ 0, c.Plain :=
    fun c hc => hplain c (List.mem_of_mem_filter hc)
  have hread := readHead_script calls
  rw [htexts, readHead_lines] at hread
  · have hcrlf : readHead [] crlf = some ([], []) := by decide
    rw [hcrlf, Option.map_some, List.append_nil] at hread
    rw [← Option.some.inj hread]
    refine ⟨rfl, fun name => ?_⟩
    generalize calls.filter (fun c => c.memory.hash ≠ 0) = shown at hwritten
    clear hread htexts
    induction shown with
    | nil => rfl
    | cons c shown ih =>
        obtain ⟨_, hname, hvalue⟩ := (hwritten c List.mem_cons_self).written name
        rw [List.map_cons, valuesOf_cons, hname, hvalue,
          ih fun d hd => hwritten d (List.mem_cons_of_mem _ hd)]
        by_cases hnamed : isNamed name c.line = true <;> simp [hnamed]
  · intro line hline
    obtain ⟨c, hc, rfl⟩ := List.mem_map.mp hline
    exact ((hwritten c hc).written []).1

/-- A response with a length of nginx is not made a chunked one. -/
theorem makesChunked_written (conf : HeadConf) {q : Incoming} {writes : List Bytes}
    {baseLen : Int32} (hlength : (writtenLength q writes baseLen).isSome = true) :
    makesChunked conf q (responseStatus q writes) (countedLength writes baseLen) = false := by
  have hcounted : ¬ (responseStatus q writes = 204 ∨ countedLength writes baseLen < 0) := by
    intro hnone
    rw [writtenLength, if_pos hnone] at hlength
    cases hlength
  have hne : countedLength writes baseLen ≠ -1 := by omega
  simp [makesChunked, hne]

/-- The names that a script must leave to nginx. -/
def framingNames : List Bytes :=
  [bytesOf "Content-Length", bytesOf "Content-Type", bytesOf "Transfer-Encoding",
    bytesOf "Connection"]

/-- **An ordinary script** with output, where nginx writes the length and the type,
keeps the framing exactly when the header filter sees none of its calls under one
of the four names, the type it set last is the one that is sent, and `base_len` was
the number of its writes that are not empty. -/
theorem keepsFraming_plain_iff (conf : HeadConf) {q : Incoming} {printed : Bool}
    {calls : List HeaderLine} {writes : List Bytes} {baseLen : Int32}
    (hplain : ∀ c ∈ calls, c.Plain)
    (hlength : (writtenLength q writes baseLen).isSome = true)
    (htype : (writtenType conf.script q printed writes).isSome = true) :
    KeepsFraming conf q printed calls writes baseLen ↔
      (∀ c ∈ calls, c.memory.hash ≠ 0 → ∀ name ∈ framingNames, isNamed name c.line = false) ∧
      (∀ set, lastContentType calls = some set → trimBlanks (ownType conf.script printed) = set) ∧
      baseLen.toInt = (nonEmpty writes).length ∧
      ((nonEmpty writes).map (·.length + 1)).sum < 2 ^ 31 := by
  obtain ⟨hleft, hvalues⟩ := valuesOf_scriptHead hplain
  have hnone : ∀ name, valuesOf name (scriptHead calls).1 = [] ↔
      ∀ c ∈ calls, c.memory.hash ≠ 0 → isNamed name c.line = false := by
    intro name
    simp only [hvalues name, List.map_eq_nil_iff, List.filter_eq_nil_iff, List.mem_filter,
      decide_eq_true_eq, Bool.not_eq_true, and_imp]
  have hbytes : bytesBehind calls writes = ((nonEmpty writes).map (·.length + 1)).sum := by
    rw [bytesBehind, hleft, List.length_nil, Nat.zero_add]
  have hcount : ((scriptHead calls).2.length : Int) + ((nonEmpty writes).length : Int)
      = (nonEmpty writes).length := by
    rw [hleft, List.length_nil, Nat.cast_zero, zero_add]
  constructor
  · intro h
    obtain ⟨_, hlen, htyp, hencoding, hconnection⟩ := h
    rw [SaidOnce, hlength, if_pos rfl, hnone, hcount, hbytes] at hlen
    rw [SaidOnce, htype, if_pos rfl, hnone] at htyp
    rw [hnone] at hencoding hconnection
    refine ⟨fun c hc hhash name hname => ?_, htyp.2, hlen.2⟩
    simp only [framingNames, List.mem_cons, List.not_mem_nil, or_false] at hname
    rcases hname with rfl | rfl | rfl | rfl
    · exact hlen.1 c hc hhash
    · exact htyp.1 c hc hhash
    · exact hencoding c hc hhash
    · exact hconnection c hc hhash
  · intro h
    obtain ⟨hnames, hset, hright⟩ := h
    refine ⟨makesChunked_written conf hlength, ?_, ?_, ?_, ?_⟩
    · rw [SaidOnce, hlength, if_pos rfl, hnone, hcount, hbytes]
      exact ⟨fun c hc hhash => hnames c hc hhash _ (by simp [framingNames]), hright⟩
    · rw [SaidOnce, htype, if_pos rfl, hnone]
      exact ⟨fun c hc hhash => hnames c hc hhash _ (by simp [framingNames]), hset⟩
    · exact (hnone _).mpr fun c hc hhash => hnames c hc hhash _ (by simp [framingNames])
    · exact (hnone _).mpr fun c hc hhash => hnames c hc hhash _ (by simp [framingNames])

/-- **The head frames its response** — read back by a client, every response of the
script that nginx accepts has exactly one `Content-Length`, the number of bytes
that follow, exactly one `Content-Type`, the one the script set last if it set one,
no `Transfer-Encoding` and one `Connection` — if and only if there is no head, or
the response is not made a chunked one, and what the script's lines come to in the
head has no `Transfer-Encoding` and no `Connection`, and a length and a type just
where nginx writes none, each of the two being right. -/
theorem framingKept_iff (conf : HeadConf) (q : Incoming) (printed : Bool)
    (calls : List HeaderLine) (writes : List Bytes) (baseLen : Int32) :
    FramingKept conf q printed calls writes baseLen ↔
      q.httpVersion < 1000 ∨ q.error = true ∨
        KeepsFraming conf q printed calls writes baseLen := by
  constructor
  · intro h
    by_cases hold : q.httpVersion < 1000
    · exact Or.inl hold
    by_cases hbroken : q.error = true
    · exact Or.inr (Or.inl hbroken)
    exact Or.inr (Or.inr (keepsFraming_of_framingKept (Nat.not_lt.mp hold)
      (Bool.eq_false_iff.mpr hbroken) h))
  · intro h
    rcases h with hold | hbroken | hkeeps
    · intro a s hnew _ _
      exact absurd hnew (Nat.not_le.mpr hold)
    · intro a s hnew hheader _
      exact absurd (headerRc_broken conf.filter (Nat.not_lt.mpr hnew) hbroken) hheader
    · exact framingKept_of_keepsFraming hkeeps

/-- `echo "a"` in a fresh process announces one byte and sends two; and
`header("Transfer-Encoding: chunked")` is sent beside a length that is right. -/
theorem framing_lost :
    ¬ FramingKept default ⟨.get, 1001, 0, true, false, true⟩ false [] [bytesOf "a"] 0 ∧
      ¬ FramingKept default ⟨.get, 1001, 0, true, false, true⟩ false
        [⟨bytesOf "Transfer-Encoding: chunked", true, 0, ⟨1, fun _ => 0⟩⟩] [bytesOf "a"] 1 := by
  constructor
  · intro h
    have hlength := (keepsFraming_of_framingKept (by decide) rfl h).length
    have hown : (writtenLength ⟨.get, 1001, 0, true, false, true⟩ [bytesOf "a"] 0).isSome
        = true := by decide +kernel
    rw [SaidOnce, hown, if_pos rfl] at hlength
    have hcount := hlength.2.1
    revert hcount
    decide +kernel
  · intro h
    have hencoding := (keepsFraming_of_framingKept (by decide) rfl h).encoding
    revert hencoding
    decide +kernel

end Toxic
