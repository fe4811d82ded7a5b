import ToxicNginx.ResponseFilters

/-!
# How the response of a toxic request is framed

`exit_request` announces `base_len` bytes, sends the header, ignores the
result and passes `out_chain` to the output filter when its first link has a
buffer.  This file embeds that part of it with the SAPI callbacks that fill
`r->headers_out` and says for which requests the response comes out framed.

* `headerCallback`, `exitRequestSend` — the functions of the module;
* `sendHeader_refused`, `sendHeader_accepted` — the header stage;
  `outputFilter_cases` — the body stage;
* `Framed` — what a completely framed response is;
* `framed_iff` — the exact condition, by one lemma for each way the two stages
  can go.
-/

namespace Toxic

open ChunkQueue

/-- What nginx knows of a request when the handler of a toxic location runs:
`err_status` is that of an `error_page`, the last two are the state of the
connection. -/
structure Incoming where
  method : Method
  httpVersion : Nat
  errStatus : Nat
  keepalive : Bool
  error : Bool
  writeReady : Bool
  deriving DecidableEq, Repr

/-- The request as `ngx_http_create_request` leaves its response fields. -/
def Response.start (q : Incoming) : Response where
  method := q.method
  httpVersion := q.httpVersion
  errStatus := q.errStatus
  keepalive := q.keepalive
  headersOut := ⟨0, [], -1, []⟩
  headerSent := false
  headerOnly := false
  out := []
  error := q.error
  buffered := false
  writeReady := q.writeReady
  sent := 0
  wire := []

/-- What the script did: the status it set, the MIME type it set before its
first output, the header lines `header_function` kept and its writes. -/
structure ScriptResult where
  responseCode : Option Nat
  mimetype : Option Bytes
  headers : List TableElt
  writes : List Bytes
  deriving DecidableEq, Repr

/-- `SG(sapi_headers).http_response_code`, 200 by default. -/
def ScriptResult.status (script : ScriptResult) : Nat := script.responseCode.getD 200

/-- `header_callback`: it takes over the MIME type, and the status is
`NGX_HTTP_OK` whatever the script set. -/
def headerCallback (mimetype : Option Bytes) (r : Response) : Response :=
  { r with headersOut := { r.headersOut with
      contentType := mimetype.getD (bytesOf "text/html")
      status := 200 } }

/-- `Start`: the header lines are kept, and `sapi_send_headers` runs
`header_callback` before the first byte of output. -/
def callStart (script : ScriptResult) (r : Response) : Response :=
  let r' := { r with headersOut := { r.headersOut with headers := script.headers } }
  if nonEmpty script.writes = [] then r' else headerCallback script.mimetype r'

/-- A buffer of `out_chain` as the write filter sees it. -/
def outBuf (b : NgxBuf) : OutBuf := ⟨b.range, ⟨b.lastBuf, false, false⟩⟩

/-- The outside answers to the sending part of `exit_request`. -/
structure ExitAnswers where
  header : HeaderAnswers
  body : WriteAnswers
  deriving DecidableEq, Repr

/-- What the sending part of `exit_request` does. -/
structure Sending where
  headerRc : Rc
  afterHeader : Response
  bodyPassed : Bool
  final : Response
  deriving DecidableEq, Repr

/-- The sending part of `exit_request`; `chain` are the buffers of
`out_chain`. -/
def exitRequestSend (conf : FilterConf) (a : ExitAnswers) (baseLen : Int) (chain : List NgxBuf)
    (r : Response) : Sending :=
  let header := sendHeader conf a.header
    { r with headersOut := { r.headersOut with contentLengthN := baseLen } }
  if chain.isEmpty then
    ⟨header.1, header.2, false, header.2⟩
  else
    ⟨header.1, header.2, true, (outputFilter conf a.body (chain.map outBuf) header.2).2⟩

/-- A toxic request from `Start` to the end of the sending; the chain is the
one `callback_output` leaves for the writes. -/
def toxicResponse (conf : FilterConf) (a : ExitAnswers) (q : Incoming) (script : ScriptResult)
    (baseLen : Int) : Sending :=
  exitRequestSend conf a baseLen (storedBufs (nonEmpty script.writes))
    (callStart script (Response.start q))

/-- Some of the header block is still in `r->out`. -/
def HeaderLeft (r : Response) : Prop := ∃ b ∈ r.out, b.tag.header = true ∧ b.bytes ≠ []

/-- Sending the header failed and nothing more is written: either the header
filter says so, and no byte follows and none is pending, or the connection
broke with the header block unsent. -/
def HeaderFailed (s : Sending) : Prop :=
  (s.headerRc = .error ∧ s.final.wire = s.afterHeader.wire ∧
    (s.final.buffered = true → s.final.error = true)) ∨
  (s.final.error = true ∧ HeaderLeft s.final)

/-- The response written and pending, in order. -/
def Response.stream (r : Response) : Bytes := r.wire ++ contents r.out

/-- The header was accepted: its status line, for a version that has one, is
the script's, the block is sent or its rest is pending, and the body was passed
on exactly when the response may carry one. -/
structure HeaderAccepted (script : ScriptResult) (s : Sending) : Prop where
  accepted : s.headerRc ≠ .error
  status : 1000 ≤ s.final.httpVersion → statusLine script.status <+: s.final.stream
  pending : HeaderLeft s.final → s.final.buffered = true
  body : s.bodyPassed = true ↔ s.final.headerOnly = false ∧ nonEmpty script.writes ≠ []

/-- The response is completely framed. -/
def Framed (script : ScriptResult) (s : Sending) : Prop :=
  HeaderFailed s ∨ HeaderAccepted script s

/-- The status of the response: that of an `error_page`, else the one of
`header_callback`, which runs when there is output. -/
def finalStatus (q : Incoming) (script : ScriptResult) : Nat :=
  if q.errStatus = 0 then (if nonEmpty script.writes = [] then 0 else 200) else q.errStatus

/-- The response to the method or with the status carries no body. -/
def BodyLess (q : Incoming) (status : Nat) : Prop :=
  q.method = .head ∨ status = 204 ∨ status = 304

instance (q : Incoming) (status : Nat) : Decidable (BodyLess q status) :=
  inferInstanceAs (Decidable (_ ∨ _))

/-- The fields of `r->headers_out` for a status, as the header is written. -/
def finalHeaders (q : Incoming) (script : ScriptResult) (baseLen : Int) : HeadersOut where
  status := finalStatus q script
  contentType :=
    if finalStatus q script = 204 ∨ nonEmpty script.writes = [] then []
    else script.mimetype.getD (bytesOf "text/html")
  contentLengthN := if finalStatus q script = 204 then -1 else baseLen
  headers := script.headers

/-- The response when its header is written. -/
def announced (q : Incoming) (script : ScriptResult) (baseLen : Int) : Response :=
  { Response.start q with
    headersOut := finalHeaders q script baseLen
    headerSent := true
    headerOnly := decide (BodyLess q (finalStatus q script)) }

/-- The header block as a buffer. -/
def headerBuf (conf : FilterConf) (q : Incoming) (script : ScriptResult) (baseLen : Int) :
    OutBuf :=
  ⟨headerBlock conf (announced q script baseLen),
    ⟨decide (BodyLess q (finalStatus q script)), false, true⟩⟩

/-- The header filter is not given what it needs, or the connection is
already broken. -/
def HeaderRefused (a : ExitAnswers) (q : Incoming) : Prop :=
  a.header.headerBuf = false ∨ q.error = true ∨ ¬ LinksFit a.header.write.links 1

/-- The write filter keeps the header block: it is not the last buffer and
smaller than `postpone_output`. -/
def HeaderPostponed (conf : FilterConf) (q : Incoming) (script : ScriptResult)
    (baseLen : Int) : Prop :=
  ¬ BodyLess q (finalStatus q script) ∧
    (headerBuf conf q script baseLen).bytes.length < conf.postponeOutput

instance (a : ExitAnswers) (q : Incoming) : Decidable (HeaderRefused a q) :=
  inferInstanceAs (Decidable (_ ∨ _))

instance (conf : FilterConf) (q : Incoming) (script : ScriptResult) (baseLen : Int) :
    Decidable (HeaderPostponed conf q script baseLen) :=
  inferInstanceAs (Decidable (_ ∧ _))

/-- The state in which `exit_request` sends the header. -/
def beforeHeader (q : Incoming) (script : ScriptResult) (baseLen : Int) : Response :=
  { callStart script (Response.start q) with
    headersOut := { (callStart script (Response.start q)).headersOut with
      contentLengthN := baseLen } }

/-- The headers before the header filter. -/
theorem beforeHeader_eq (q : Incoming) (script : ScriptResult) (baseLen : Int) :
    beforeHeader q script baseLen = { Response.start q with
      headersOut := ⟨if nonEmpty script.writes = [] then 0 else 200,
        if nonEmpty script.writes = [] then [] else script.mimetype.getD (bytesOf "text/html"),
        baseLen, script.headers⟩ } := by
  unfold beforeHeader callStart headerCallback
  by_cases hempty : nonEmpty script.writes = [] <;> simp [hempty, Response.start]

/-- The response with which the header filter starts. -/
def chosenStatus (q : Incoming) (script : ScriptResult) (baseLen : Int) : Response :=
  if q.errStatus = 0 then beforeHeader q script baseLen
  else { beforeHeader q script baseLen with
    headersOut := { (beforeHeader q script baseLen).headersOut with status := q.errStatus } }

theorem chosenStatus_eq (q : Incoming) (script : ScriptResult) (baseLen : Int) :
    chosenStatus q script baseLen = { Response.start q with
      headersOut := ⟨finalStatus q script,
        if nonEmpty script.writes = [] then [] else script.mimetype.getD (bytesOf "text/html"),
        baseLen, script.headers⟩ } := by
  unfold chosenStatus finalStatus
  rw [beforeHeader_eq]
  by_cases herr : q.errStatus = 0 <;> simp [herr]

/-- `ngx_http_send_header` gives it to the header filter. -/
theorem sendHeader_chosenStatus (conf : FilterConf) (a : HeaderAnswers) (q : Incoming)
    (script : ScriptResult) (baseLen : Int) :
    sendHeader conf a (beforeHeader q script baseLen)
      = headerFilter conf a (chosenStatus q script baseLen) := by
  unfold sendHeader chosenStatus
  rw [beforeHeader_eq]
  rfl

/-- A version before 1.0 has no header. -/
theorem sendHeader_old (conf : FilterConf) (a : HeaderAnswers) {q : Incoming}
    (script : ScriptResult) (baseLen : Int) (hold : q.httpVersion < 1000) :
    sendHeader conf a (beforeHeader q script baseLen)
      = (.ok, { chosenStatus q script baseLen with headerSent := true }) := by
  rw [sendHeader_chosenStatus, headerFilter, chosenStatus_eq]
  simp [Response.start, hold]

/-- The header filter prepares the announced response. -/
theorem prepareHeader_chosenStatus (q : Incoming) (script : ScriptResult) (baseLen : Int) :
    prepareHeader (chosenStatus q script baseLen) = announced q script baseLen := by
  rw [chosenStatus_eq]
  unfold prepareHeader statusRules announced finalHeaders
  by_cases h204 : finalStatus q script = 204
  · by_cases hhead : q.method = .head <;> simp [BodyLess, h204, hhead, Response.start]
  · by_cases h304 : finalStatus q script = 304 <;> by_cases hhead : q.method = .head <;>
      simp [BodyLess, h204, h304, hhead, Response.start]

/-- From version 1.0 on, the header filter builds the announced header and
hands it to the write filter. -/
theorem sendHeader_eq (conf : FilterConf) (a : ExitAnswers) {q : Incoming}
    (script : ScriptResult) (baseLen : Int) (hnew : ¬ q.httpVersion < 1000) :
    sendHeader conf a.header (beforeHeader q script baseLen) =
      if a.header.headerBuf = false then (.error, announced q script baseLen)
      else writeFilter conf a.header.write [headerBuf conf q script baseLen]
        (announced q script baseLen) := by
  have hsent : (chosenStatus q script baseLen).headerSent = false := by rw [chosenStatus_eq]; rfl
  have hversion : (chosenStatus q script baseLen).httpVersion = q.httpVersion := by
    rw [chosenStatus_eq]
    rfl
  rw [sendHeader_chosenStatus, headerFilter, hsent, hversion, if_neg Bool.false_ne_true,
    if_neg hnew]
  simp only [prepareHeader_chosenStatus]
  rfl

/-- A header block is not empty. -/
theorem headerBuf_packed (conf : FilterConf) (q : Incoming) (script : ScriptResult)
    (baseLen : Int) : Packed [headerBuf conf q script baseLen] := by
  intro b hb
  obtain rfl := List.mem_singleton.mp hb
  simp [headerBuf, headerBlock, statusLine, statusText]

/-- **Header refused.**  Nothing of it is kept. -/
theorem sendHeader_refused (conf : FilterConf) {a : ExitAnswers} {q : Incoming}
    (script : ScriptResult) (baseLen : Int) (hnew : ¬ q.httpVersion < 1000)
    (hrefused : HeaderRefused a q) :
    sendHeader conf a.header (beforeHeader q script baseLen)
      = (.error, announced q script baseLen) := by
  rw [sendHeader_eq conf a script baseLen hnew]
  by_cases hbuf : a.header.headerBuf = false
  · rw [if_pos hbuf]
  · rw [if_neg hbuf]
    by_cases herr : q.error = true
    · exact writeFilter_refused conf _ _ herr
    · have hfit : ¬ LinksFit a.header.write.links 1 := by
        rcases hrefused with h | h | h
        · exact absurd h hbuf
        · exact absurd h herr
        · exact h
      have hzero : a.header.write.links = some 0 := by
        cases hlinks : a.header.write.links with
        | none =>
            rw [hlinks] at hfit
            exact absurd (fun k h => absurd h (Option.some_ne_none k).symm) hfit
        | some k =>
            cases k with
            | zero => rfl
            | succ k =>
                rw [hlinks] at hfit
                refine absurd (fun j hj => ?_) hfit
                obtain rfl := Option.some.inj hj
                omega
      simp [writeFilter, announced, Response.start, herr, hzero, linkChain]

/-- **Header accepted.**  It stays in `r->out` without being buffered, or goes
to the socket. -/
theorem sendHeader_accepted (conf : FilterConf) {a : ExitAnswers} {q : Incoming}
    (script : ScriptResult) (baseLen : Int) (hnew : ¬ q.httpVersion < 1000)
    (haccept : ¬ HeaderRefused a q) :
    sendHeader conf a.header (beforeHeader q script baseLen) =
      if HeaderPostponed conf q script baseLen then
        (.ok, { announced q script baseLen with out := [headerBuf conf q script baseLen] })
      else
        writeOut a.header.write.send
          { announced q script baseLen with out := [headerBuf conf q script baseLen] } := by
  obtain ⟨hbuf, herr, hfit⟩ : a.header.headerBuf ≠ false ∧ q.error ≠ true ∧
      LinksFit a.header.write.links 1 := by
    simpa [HeaderRefused] using haccept
  have herror : (announced q script baseLen).error = false := by
    simpa [announced, Response.start] using herr
  have hpost : Postponed conf ([] ++ [headerBuf conf q script baseLen])
      ↔ HeaderPostponed conf q script baseLen := by
    simp [Postponed, HeaderPostponed, headerBuf]
  rw [sendHeader_eq conf a script baseLen hnew, if_neg hbuf]
  rw [writeFilter_linked conf herror (fun _ h => absurd h List.not_mem_nil)
    (headerBuf_packed conf q script baseLen) (by simp) hfit]
  have hout : (announced q script baseLen).out = [] := rfl
  simp only [hout, List.nil_append] at hpost ⊢
  simp only [hpost]

/-- The body of a request as it is passed to the output filter. -/
def bodyBufs (script : ScriptResult) : List OutBuf :=
  (storedBufs (nonEmpty script.writes)).map outBuf

/-- There is a body exactly when something was printed. -/
theorem storedBufs_eq_nil_iff (written : List Bytes) : storedBufs written = [] ↔ written = [] := by
  rcases List.eq_nil_or_concat written with rfl | ⟨earlier, latest, rfl⟩
  · simp [storedBufs]
  · simp [storedBufs]

/-- A buffer of the body is not empty and no header block. -/
theorem mem_bodyBufs {script : ScriptResult} {b : OutBuf} (hb : b ∈ bodyBufs script) :
    b.bytes ≠ [] ∧ b.tag.header = false := by
  obtain ⟨c, hc, rfl⟩ := List.mem_map.mp hb
  refine ⟨?_, rfl⟩
  rcases List.mem_append.mp hc with hc | hc
  · obtain ⟨str, _, rfl⟩ := List.mem_map.mp hc
    simp [outBuf, storedBuf_range]
  · obtain ⟨str, _, rfl⟩ := List.mem_map.mp hc
    simp [outBuf, storedBuf_range]

theorem bodyBufs_packed (script : ScriptResult) : Packed (bodyBufs script) :=
  fun _ hb => (mem_bodyBufs hb).1

/-- A body has a last buffer. -/
theorem bodyBufs_last {script : ScriptResult} (hprint : nonEmpty script.writes ≠ []) :
    ∃ b ∈ bodyBufs script, b.tag.lastBuf = true := by
  rcases List.eq_nil_or_concat (nonEmpty script.writes) with hnil | ⟨earlier, latest, hlast⟩
  · exact absurd hnil hprint
  · refine ⟨outBuf (storedBuf latest true), List.mem_map.mpr ⟨_, ?_, rfl⟩, rfl⟩
    simp [storedBufs, hlast]

/-- **Body stage.**  What the output filter makes of a body: after an error
nothing; without enough links a part of it is kept and the connection is
broken; else it goes behind `r->out`, which is given to the socket. -/
theorem outputFilter_cases (conf : FilterConf) (w : WriteAnswers) {new : List OutBuf}
    {r : Response} (hout : Packed r.out) (hnew : Packed new)
    (hlast : ∃ b ∈ new, b.tag.lastBuf = true) :
    (r.error = true ∧ (outputFilter conf w new r).2 = r) ∨
    (r.error = false ∧ ¬ LinksFit w.links new.length ∧ ∃ part, part <+: new ∧
      (outputFilter conf w new r).2 = { r with out := r.out ++ part, error := true }) ∨
    (r.error = false ∧ LinksFit w.links new.length ∧
      ((r.writeReady = false ∧ (outputFilter conf w new r).2
          = { r with out := r.out ++ new, buffered := true }) ∨
       (r.writeReady = true ∧ w.send.failed = true ∧ (outputFilter conf w new r).2 = { r with
          sent := r.sent + min w.send.taken (contents (r.out ++ new)).length
          wire := r.wire ++ (contents (r.out ++ new)).take w.send.taken
          out := consume w.send.taken (r.out ++ new)
          error := true }) ∨
       (r.writeReady = true ∧ w.send.failed = false ∧ (outputFilter conf w new r).2 = { r with
          sent := r.sent + min w.send.taken (contents (r.out ++ new)).length
          wire := r.wire ++ (contents (r.out ++ new)).take w.send.taken
          out := drain w.send.taken (r.out ++ new)
          writeReady := decide ((contents (r.out ++ new)).length ≤ w.send.taken)
          buffered := decide (drain w.send.taken (r.out ++ new) ≠ []) }))) := by
  obtain ⟨b, hb, hblast⟩ := hlast
  have hne : new ≠ [] := fun h => by rw [h] at hb; cases hb
  by_cases herr : r.error = true
  · refine Or.inl ⟨herr, ?_⟩
    rw [outputFilter, writeFilter_refused conf w new herr]
    simp [← herr]
  · right
    have hfine : r.error = false := Bool.eq_false_iff.mpr herr
    by_cases hfit : LinksFit w.links new.length
    · right
      refine ⟨hfine, hfit, ?_⟩
      have hpost : ¬ Postponed conf (r.out ++ new) := by
        intro h
        have := (h.1 b (List.mem_append_right _ hb)).1
        rw [hblast] at this
        cases this
      have hwrite := writeFilter_linked conf hfine hout hnew hne hfit
      rw [if_neg hpost] at hwrite
      by_cases hready : r.writeReady = true
      · right
        by_cases hfail : w.send.failed = true
        · refine Or.inl ⟨hready, hfail, ?_⟩
          rw [writeOut_failed (r := { r with out := r.out ++ new }) hready hfail] at hwrite
          rw [outputFilter, hwrite]
        · have hkeep : w.send.failed = false := Bool.eq_false_iff.mpr hfail
          refine Or.inr ⟨hready, hkeep, ?_⟩
          rw [writeOut_taken (r := { r with out := r.out ++ new }) hready hkeep] at hwrite
          rw [outputFilter, hwrite]
          by_cases hdrain : drain w.send.taken (r.out ++ new) = []
          · simp only [hdrain, if_true]
          · simp only [hdrain, if_false]
      · have hblocked : r.writeReady = false := Bool.eq_false_iff.mpr hready
        refine Or.inl ⟨hblocked, ?_⟩
        rw [writeOut_blocked (r := { r with out := r.out ++ new }) hblocked (by simp [hne])]
          at hwrite
        rw [outputFilter, hwrite]
    · left
      refine ⟨hfine, hfit, ?_⟩
      obtain ⟨part, hpart, hwrite⟩ := writeFilter_short conf hfine hout hnew hfit
      refine ⟨part, hpart, ?_⟩
      rw [outputFilter, hwrite]

/-- The body stage changes neither the version nor `header_only`, and the
response only grows at its end. -/
theorem outputFilter_frame (conf : FilterConf) (w : WriteAnswers) {new : List OutBuf}
    {r : Response} (hout : Packed r.out) (hnew : Packed new)
    (hlast : ∃ b ∈ new, b.tag.lastBuf = true) :
    (outputFilter conf w new r).2.httpVersion = r.httpVersion ∧
    (outputFilter conf w new r).2.headerOnly = r.headerOnly ∧
    ∃ tail, (outputFilter conf w new r).2.stream = r.stream ++ tail := by
  rcases outputFilter_cases conf w hout hnew hlast with ⟨_, h⟩ | ⟨_, _, part, _, h⟩ |
      ⟨_, _, ⟨_, h⟩ | ⟨_, _, h⟩ | ⟨_, _, h⟩⟩ <;> rw [h] <;> refine ⟨rfl, rfl, ?_⟩
  · exact ⟨[], (List.append_nil _).symm⟩
  · exact ⟨contents part, by simp [Response.stream]⟩
  · exact ⟨contents new, by simp [Response.stream]⟩
  · refine ⟨contents new, ?_⟩
    simp only [Response.stream, contents_consume, List.append_assoc, List.take_append_drop,
      contents_append]
  · refine ⟨contents new, ?_⟩
    simp only [Response.stream, contents_drain, List.append_assoc, List.take_append_drop,
      contents_append]

/-- Neither the script nor `exit_request` touches the method. -/
@[simp] theorem callStart_method (script : ScriptResult) (r : Response) :
    (callStart script r).method = r.method := by
  unfold callStart headerCallback
  split <;> rfl

@[simp] theorem exitRequestSend_method (conf : FilterConf) (a : ExitAnswers) (baseLen : Int)
    (chain : List NgxBuf) (r : Response) :
    (exitRequestSend conf a baseLen chain r).final.method = r.method := by
  unfold exitRequestSend
  split <;> simp

/-- Without output the body stage is left out. -/
theorem toxicResponse_empty (conf : FilterConf) (a : ExitAnswers) (q : Incoming)
    {script : ScriptResult} (baseLen : Int) (hprint : nonEmpty script.writes = []) :
    toxicResponse conf a q script baseLen =
      ⟨(sendHeader conf a.header (beforeHeader q script baseLen)).1,
        (sendHeader conf a.header (beforeHeader q script baseLen)).2, false,
        (sendHeader conf a.header (beforeHeader q script baseLen)).2⟩ := by
  unfold toxicResponse exitRequestSend
  rw [hprint]
  rfl

/-- With output both stages run. -/
theorem toxicResponse_body (conf : FilterConf) (a : ExitAnswers) (q : Incoming)
    {script : ScriptResult} (baseLen : Int) (hprint : nonEmpty script.writes ≠ []) :
    toxicResponse conf a q script baseLen =
      ⟨(sendHeader conf a.header (beforeHeader q script baseLen)).1,
        (sendHeader conf a.header (beforeHeader q script baseLen)).2, true,
        (outputFilter conf a.body (bodyBufs script)
          (sendHeader conf a.header (beforeHeader q script baseLen)).2).2⟩ := by
  have hchain : (storedBufs (nonEmpty script.writes)).isEmpty = false := by
    rw [List.isEmpty_eq_false_iff]
    exact fun h => hprint ((storedBufs_eq_nil_iff _).mp h)
  unfold toxicResponse exitRequestSend
  rw [hchain]
  rfl

/-- A chain of body buffers has no header left. -/
theorem not_headerLeft {r : Response} (h : ∀ b ∈ r.out, b.tag.header = false) :
    ¬ HeaderLeft r := by
  rintro ⟨b, hb, hheader, _⟩
  rw [h b hb] at hheader
  cases hheader

/-- Buffers of the body that are partly sent are still buffers of the body. -/
theorem drain_noHeader {q : List OutBuf} (h : ∀ b ∈ q, b.tag.header = false) (n : Nat) :
    ∀ b ∈ drain n q, b.tag.header = false := by
  induction q generalizing n with
  | nil => exact h
  | cons c q ih =>
      unfold drain
      by_cases hn : n = 0
      · rw [if_pos hn]; exact h
      · rw [if_neg hn]
        by_cases hlen : c.bytes.length ≤ n
        · rw [if_pos hlen]
          exact ih (fun b hb => h b (List.mem_cons_of_mem _ hb)) _
        · rw [if_neg hlen]
          intro b hb
          rcases List.mem_cons.mp hb with rfl | hb
          · exact h c List.mem_cons_self
          · exact h b (List.mem_cons_of_mem _ hb)

/-- A failed write of the body leaves buffers of the body. -/
theorem consume_noHeader {q : List OutBuf} (h : ∀ b ∈ q, b.tag.header = false) (n : Nat) :
    ∀ b ∈ consume n q, b.tag.header = false := by
  induction q generalizing n with
  | nil => exact h
  | cons c q ih =>
      intro b hb
      rcases List.mem_cons.mp hb with rfl | hb
      · exact h c List.mem_cons_self
      · exact ih (fun b hb => h b (List.mem_cons_of_mem _ hb)) _ b hb

theorem bodyBufs_noHeader (script : ScriptResult) :
    ∀ b ∈ bodyBufs script, b.tag.header = false := fun _ hb => (mem_bodyBufs hb).2

/-- A response from version 1.0 on whose stream starts with the announced
header block carries the script's status exactly when that is the final one. -/
theorem status_iff (conf : FilterConf) {q : Incoming} (script : ScriptResult) (baseLen : Int)
    (hnew : ¬ q.httpVersion < 1000) {r : Response} {tail : Bytes}
    (hversion : r.httpVersion = q.httpVersion)
    (hstream : r.stream = (headerBuf conf q script baseLen).bytes ++ tail) :
    (1000 ≤ r.httpVersion → statusLine script.status <+: r.stream) ↔
      script.status = finalStatus q script := by
  have hblock : ∃ rest, r.stream = statusLine (finalStatus q script) ++ rest := by
    rw [hstream]
    exact ⟨_, by simp only [headerBuf, headerBlock, announced, finalHeaders, List.append_assoc]; rfl⟩
  obtain ⟨rest, hrest⟩ := hblock
  rw [hversion, hrest, statusLine_prefix_iff]
  exact ⟨fun h => h (by omega), fun h _ => h⟩

/-- The condition under which the body stage after a refused header stays
silent: there is no body, or the output filter breaks before a byte. -/
def BodySilent (a : ExitAnswers) (q : Incoming) (script : ScriptResult) : Prop :=
  nonEmpty script.writes = [] ∨ q.error = true ∨
    ¬ LinksFit a.body.links (bodyBufs script).length ∨
    (q.writeReady = true ∧ a.body.send.failed = true ∧ a.body.send.taken = 0)

/-- The header goes to the socket and the socket fails. -/
def HeaderSendFails (conf : FilterConf) (a : ExitAnswers) (q : Incoming) (script : ScriptResult)
    (baseLen : Int) : Prop :=
  ¬ HeaderPostponed conf q script baseLen ∧ q.writeReady = true ∧
    a.header.write.send.failed = true

/-- The announced response is the right one: it has the script's status, a
header without a body is not postponed, and there is no body where the response
may carry none. -/
def ResponseRight (conf : FilterConf) (q : Incoming) (script : ScriptResult)
    (baseLen : Int) : Prop :=
  script.status = finalStatus q script ∧
    (nonEmpty script.writes = [] → ¬ HeaderPostponed conf q script baseLen) ∧
    (nonEmpty script.writes ≠ [] → ¬ BodyLess q (finalStatus q script))

/-- The body stage breaks the connection while some of the header is unsent. -/
def HeaderLost (conf : FilterConf) (a : ExitAnswers) (q : Incoming) (script : ScriptResult)
    (baseLen : Int) : Prop :=
  nonEmpty script.writes ≠ [] ∧
    ((HeaderPostponed conf q script baseLen ∧
        (¬ LinksFit a.body.links (bodyBufs script).length ∨
          (q.writeReady = true ∧ a.body.send.failed = true ∧
            a.body.send.taken < (headerBuf conf q script baseLen).bytes.length))) ∨
     (¬ HeaderPostponed conf q script baseLen ∧
        (q.writeReady = false ∨
          a.header.write.send.taken < (headerBuf conf q script baseLen).bytes.length) ∧
        ¬ LinksFit a.body.links (bodyBufs script).length))

/-- When the response to a request comes out framed. -/
def FramedWhen (conf : FilterConf) (a : ExitAnswers) (q : Incoming) (script : ScriptResult)
    (baseLen : Int) : Prop :=
  q.httpVersion < 1000 ∨
  (HeaderRefused a q ∧ BodySilent a q script) ∨
  (¬ HeaderRefused a q ∧ (HeaderSendFails conf a q script baseLen ∨
    ResponseRight conf q script baseLen ∨ HeaderLost conf a q script baseLen))

/-- A response before version 1.0 is always framed: it has no header. -/
theorem framed_old (conf : FilterConf) (a : ExitAnswers) {q : Incoming} (script : ScriptResult)
    (baseLen : Int) (hold : q.httpVersion < 1000) :
    Framed script (toxicResponse conf a q script baseLen) := by
  have hsend := sendHeader_old conf a.header script baseLen hold
  have hstate := chosenStatus_eq q script baseLen
  rw [hstate] at hsend
  right
  by_cases hprint : nonEmpty script.writes = []
  · rw [toxicResponse_empty conf a q baseLen hprint, hsend]
    refine ⟨by simp, fun h => ?_, fun h => ?_, by simp [hprint]⟩
    · exact absurd hold (Nat.not_lt.mpr h)
    · exact absurd h (not_headerLeft fun b hb => nomatch hb)
  · rw [toxicResponse_body conf a q baseLen hprint, hsend]
    have hout : Packed (Response.start q).out := fun _ h => nomatch h
    obtain ⟨hversion, honly, _⟩ := outputFilter_frame conf a.body
      (r := { Response.start q with headersOut := _, headerSent := true }) hout
      (bodyBufs_packed script) (bodyBufs_last hprint)
    refine ⟨by simp, fun h => ?_, fun h => ?_, ?_⟩
    · rw [hversion] at h
      exact absurd hold (Nat.not_lt.mpr h)
    · refine absurd h (not_headerLeft ?_)
      have hbody := bodyBufs_noHeader script
      rcases outputFilter_cases conf a.body
        (r := { Response.start q with headersOut := _, headerSent := true }) hout
        (bodyBufs_packed script) (bodyBufs_last hprint) with
        ⟨_, h⟩ | ⟨_, _, part, hpart, h⟩ | ⟨_, _, ⟨_, h⟩ | ⟨_, _, h⟩ | ⟨_, _, h⟩⟩ <;> rw [h]
      · exact fun b hb => nomatch hb
      · exact fun b hb => hbody b (hpart.subset hb)
      · exact hbody
      · exact consume_noHeader hbody _
      · exact drain_noHeader hbody _
    · rw [honly]
      simp [hprint, Response.start]

/-- After a refused header the response is framed exactly when the body stage
stays silent. -/
theorem framed_iff_refused (conf : FilterConf) {a : ExitAnswers} {q : Incoming}
    (script : ScriptResult) (baseLen : Int) (hnew : ¬ q.httpVersion < 1000)
    (hrefused : HeaderRefused a q) :
    Framed script (toxicResponse conf a q script baseLen) ↔ BodySilent a q script := by
  have hsend := sendHeader_refused conf script baseLen hnew hrefused
  by_cases hprint : nonEmpty script.writes = []
  · rw [toxicResponse_empty conf a q baseLen hprint, hsend]
    exact ⟨fun _ => Or.inl hprint, fun _ => Or.inl (Or.inl ⟨rfl, rfl, fun h => nomatch h⟩)⟩
  · rw [toxicResponse_body conf a q baseLen hprint, hsend]
    have hout : Packed (announced q script baseLen).out := fun _ h => nomatch h
    have hbody := bodyBufs_noHeader script
    have hne : contents (bodyBufs script) ≠ [] := by
      obtain ⟨b, hb, _⟩ := bodyBufs_last hprint
      exact List.length_pos_iff.mp ((bodyBufs_packed script).contents_length_pos
        (List.ne_nil_of_mem hb))
    have herror : (announced q script baseLen).error = q.error := rfl
    have hready : (announced q script baseLen).writeReady = q.writeReady := rfl
    have hframed : ∀ r : Response, (∀ b ∈ r.out, b.tag.header = false) →
        (Framed script ⟨.error, announced q script baseLen, true, r⟩ ↔
          r.wire = [] ∧ (r.buffered = true → r.error = true)) := by
      intro r hr
      constructor
      · rintro ((⟨_, hwire, hpend⟩ | ⟨_, hleft⟩) | haccept)
        · exact ⟨hwire, hpend⟩
        · exact absurd hleft (not_headerLeft hr)
        · exact absurd rfl haccept.accepted
      · rintro ⟨hwire, hpend⟩
        exact Or.inl (Or.inl ⟨rfl, hwire, hpend⟩)
    rcases outputFilter_cases conf a.body hout (bodyBufs_packed script)
      (bodyBufs_last hprint) with
      ⟨herr, h⟩ | ⟨herr, hfit, part, hpart, h⟩ | ⟨herr, hfit, ⟨hblock, h⟩ | ⟨hopen, hfail, h⟩ |
        ⟨hopen, hfail, h⟩⟩ <;> rw [h]
    · rw [hframed (announced q script baseLen) (fun b hb => nomatch hb)]
      exact ⟨fun _ => Or.inr (Or.inl herr), fun _ => ⟨rfl, fun hpend => nomatch hpend⟩⟩
    · rw [hframed _ (fun b hb => hbody b (hpart.subset hb))]
      exact ⟨fun _ => Or.inr (Or.inr (Or.inl hfit)), fun _ => ⟨rfl, fun _ => rfl⟩⟩
    · rw [hframed _ hbody]
      rw [herror] at herr
      rw [hready] at hblock
      simp [BodySilent, hprint, herr, hfit, hblock, herror]
    · rw [hframed _ (consume_noHeader hbody _)]
      rw [herror] at herr
      rw [hready] at hopen
      simp [BodySilent, hprint, herr, hfit, hopen, hfail, hne, announced, Response.start]
    · rw [hframed _ (drain_noHeader hbody _)]
      rw [herror] at herr
      simp [BodySilent, hprint, herr, hfit, hfail, hne, announced, Response.start]
      intro htaken
      rw [htaken, drain_zero]
      exact fun hnil => hne (by rw [hnil]; rfl)

/-- When the socket fails on the header, nothing follows. -/
theorem framed_headerSendFails (conf : FilterConf) {a : ExitAnswers} {q : Incoming}
    (script : ScriptResult) (baseLen : Int) (hnew : ¬ q.httpVersion < 1000)
    (haccept : ¬ HeaderRefused a q) (hfails : HeaderSendFails conf a q script baseLen) :
    Framed script (toxicResponse conf a q script baseLen) := by
  obtain ⟨hpost, hready, hfail⟩ := hfails
  have hsend := sendHeader_accepted conf script baseLen hnew haccept
  rw [if_neg hpost, writeOut_failed
    (r := { announced q script baseLen with out := [headerBuf conf q script baseLen] })
    hready hfail] at hsend
  left
  left
  by_cases hprint : nonEmpty script.writes = []
  · rw [toxicResponse_empty conf a q baseLen hprint, hsend]
    exact ⟨rfl, rfl, fun _ => rfl⟩
  · rw [toxicResponse_body conf a q baseLen hprint, hsend]
    have hbody : ∀ r : Response, r.error = true →
        (outputFilter conf a.body (bodyBufs script) r).2 = r := by
      intro r herr
      rw [outputFilter, writeFilter_refused conf _ _ herr, ← herr]
    rw [hbody _ rfl]
    exact ⟨rfl, rfl, fun _ => rfl⟩

/-- The state behind an accepted header of which `k` bytes are sent. -/
structure AfterHeader (conf : FilterConf) (q : Incoming) (script : ScriptResult) (baseLen : Int)
    (k : Nat) (r : Response) : Prop where
  out : r.out = drain k [headerBuf conf q script baseLen]
  error : r.error = false
  httpVersion : r.httpVersion = q.httpVersion
  headerOnly : r.headerOnly = decide (BodyLess q (finalStatus q script))
  stream : r.stream = (headerBuf conf q script baseLen).bytes

/-- An accepted header is postponed, or blocked or partly or wholly sent. -/
theorem sendHeader_afterHeader (conf : FilterConf) {a : ExitAnswers} {q : Incoming}
    (script : ScriptResult) (baseLen : Int) (hnew : ¬ q.httpVersion < 1000)
    (haccept : ¬ HeaderRefused a q) (hfails : ¬ HeaderSendFails conf a q script baseLen) :
    ∃ k rc r, sendHeader conf a.header (beforeHeader q script baseLen) = (rc, r) ∧
      rc ≠ .error ∧ AfterHeader conf q script baseLen k r ∧
      ((HeaderPostponed conf q script baseLen ∧ k = 0 ∧ r.buffered = false ∧
          r.writeReady = q.writeReady) ∨
       (¬ HeaderPostponed conf q script baseLen ∧
          k = (if q.writeReady = true then a.header.write.send.taken else 0) ∧
          r.buffered = decide (r.out ≠ []) ∧
          (r.writeReady = true → (headerBuf conf q script baseLen).bytes.length ≤ k))) := by
  have hsend := sendHeader_accepted conf script baseLen hnew haccept
  have herror : q.error = false := by
    simp only [HeaderRefused, not_or, Bool.not_eq_true] at haccept
    exact haccept.2.1
  by_cases hpost : HeaderPostponed conf q script baseLen
  · rw [if_pos hpost] at hsend
    refine ⟨0, _, _, hsend, by simp, ⟨?_, herror, rfl, rfl, ?_⟩, Or.inl ⟨hpost, rfl, rfl, rfl⟩⟩
    · exact (drain_zero _).symm
    · simp [Response.stream, announced, Response.start]
  · rw [if_neg hpost] at hsend
    by_cases hready : q.writeReady = true
    · have hkeep : a.header.write.send.failed = false := by
        rw [Bool.eq_false_iff]
        exact fun hfail => hfails ⟨hpost, hready, hfail⟩
      rw [writeOut_taken
        (r := { announced q script baseLen with out := [headerBuf conf q script baseLen] })
        hready hkeep] at hsend
      refine ⟨a.header.write.send.taken, _, _, hsend, ?_, ⟨rfl, herror, rfl, rfl, ?_⟩,
        Or.inr ⟨hpost, by rw [if_pos hready], rfl, fun h => ?_⟩⟩
      · split <;> simp
      · simp [Response.stream, contents_drain, announced, Response.start]
      · simpa using h
    · have hblocked : q.writeReady = false := Bool.eq_false_iff.mpr hready
      rw [writeOut_blocked
        (r := { announced q script baseLen with out := [headerBuf conf q script baseLen] })
        hblocked (by simp)] at hsend
      refine ⟨0, _, _, hsend, by simp, ⟨(drain_zero _).symm, herror, rfl, rfl, ?_⟩,
        Or.inr ⟨hpost, by rw [if_neg hready], by simp, fun h => ?_⟩⟩
      · simp [Response.stream, announced, Response.start]
      · exact absurd h hready

/-- Behind the header of which `k` bytes are sent, followed by body buffers,
some of the header is left exactly when `k` bytes are not all of it. -/
theorem headerLeft_append_iff (conf : FilterConf) (q : Incoming) (script : ScriptResult)
    (baseLen : Int) (k : Nat) {r : Response} {rest : List OutBuf}
    (hout : r.out = drain k [headerBuf conf q script baseLen] ++ rest)
    (hrest : ∀ b ∈ rest, b.tag.header = false) :
    HeaderLeft r ↔ k < (headerBuf conf q script baseLen).bytes.length := by
  have hpacked := (headerBuf_packed conf q script baseLen).drain k
  have hiff := exists_mem_drain_cons (P := fun t : BufTag => t.header = true)
    (c := headerBuf conf q script baseLen) (q := []) rfl
    (headerBuf_packed conf q script baseLen _ List.mem_cons_self) (fun d hd => nomatch hd) k
  rw [← hiff]
  constructor
  · rintro ⟨b, hb, hheader, _⟩
    rw [hout] at hb
    rcases List.mem_append.mp hb with hb | hb
    · exact ⟨b, hb, hheader⟩
    · rw [hrest b hb] at hheader
      cases hheader
  · rintro ⟨b, hb, hheader⟩
    exact ⟨b, by rw [hout]; exact List.mem_append_left _ hb, hheader, hpacked b hb⟩

/-- With an accepted header and no body, the response is framed exactly when
its status is right and the header is not postponed. -/
theorem framed_iff_headerOnly (conf : FilterConf) {a : ExitAnswers} {q : Incoming}
    {script : ScriptResult} (baseLen : Int) (hnew : ¬ q.httpVersion < 1000)
    (haccept : ¬ HeaderRefused a q) (hfails : ¬ HeaderSendFails conf a q script baseLen)
    (hprint : nonEmpty script.writes = []) :
    Framed script (toxicResponse conf a q script baseLen) ↔
      script.status = finalStatus q script ∧ ¬ HeaderPostponed conf q script baseLen := by
  obtain ⟨k, rc, r, hsend, hrc, hafter, hstage⟩ :=
    sendHeader_afterHeader conf script baseLen hnew haccept hfails
  rw [toxicResponse_empty conf a q baseLen hprint, hsend]
  have hstream : r.stream = (headerBuf conf q script baseLen).bytes ++ [] := by
    rw [hafter.stream, List.append_nil]
  have hout : r.out = drain k [headerBuf conf q script baseLen] ++ [] := by
    rw [hafter.out, List.append_nil]
  have hstatus := status_iff conf script baseLen hnew hafter.httpVersion hstream
  have hleft := headerLeft_append_iff conf q script baseLen k hout (fun b hb => nomatch hb)
  have hpos : 0 < (headerBuf conf q script baseLen).bytes.length :=
    List.length_pos_iff.mpr (headerBuf_packed conf q script baseLen _ List.mem_cons_self)
  have hpending : (HeaderLeft r → r.buffered = true) ↔ ¬ HeaderPostponed conf q script baseLen := by
    rcases hstage with ⟨hpost, hk, hbuffered, _⟩ | ⟨hpost, _, hbuffered, _⟩
    · simp [hleft, hk, hpos, hbuffered, hpost]
    · refine ⟨fun _ => hpost, fun _ => ?_⟩
      rintro ⟨b, hb, _⟩
      rw [hbuffered, decide_eq_true (List.ne_nil_of_mem hb)]
  constructor
  · rintro ((⟨herr, _⟩ | ⟨herr, _⟩) | haccepted)
    · exact absurd herr hrc
    · rw [hafter.error] at herr
      cases herr
    · exact ⟨hstatus.mp haccepted.status, hpending.mp haccepted.pending⟩
  · rintro ⟨hright, hpost⟩
    exact Or.inr ⟨hrc, hstatus.mpr hright, hpending.mpr hpost, by simp [hprint]⟩

/-- Behind an accepted header, a passed body leaves the response framed exactly
when the connection broke with some of the header unsent, or the status is
right, the response may carry a body and the header is not left behind. -/
theorem framed_iff_parts {conf : FilterConf} {a : ExitAnswers} {q : Incoming}
    {script : ScriptResult} {baseLen : Int} (hnew : ¬ q.httpVersion < 1000)
    (hprint : nonEmpty script.writes ≠ []) {k : Nat} {rc : Rc} {r : Response} (hrc : rc ≠ .error)
    (hafter : AfterHeader conf q script baseLen k r) :
    Framed script ⟨rc, r, true, (outputFilter conf a.body (bodyBufs script) r).2⟩ ↔
      ((outputFilter conf a.body (bodyBufs script) r).2.error = true ∧
        HeaderLeft (outputFilter conf a.body (bodyBufs script) r).2) ∨
      (script.status = finalStatus q script ∧ ¬ BodyLess q (finalStatus q script) ∧
        (HeaderLeft (outputFilter conf a.body (bodyBufs script) r).2 →
          (outputFilter conf a.body (bodyBufs script) r).2.buffered = true)) := by
  have hpacked : Packed r.out := by
    rw [hafter.out]
    exact (headerBuf_packed conf q script baseLen).drain k
  obtain ⟨hversion, honly, tail, hstream⟩ := outputFilter_frame conf a.body hpacked
    (bodyBufs_packed script) (bodyBufs_last hprint)
  rw [hafter.stream] at hstream
  rw [hafter.httpVersion] at hversion
  rw [hafter.headerOnly] at honly
  have hstatus := status_iff conf script baseLen hnew hversion hstream
  constructor
  · rintro ((⟨herr, _⟩ | hlost) | haccepted)
    · exact absurd herr hrc
    · exact Or.inl hlost
    · refine Or.inr ⟨hstatus.mp haccepted.status, ?_, haccepted.pending⟩
      have honly' := (haccepted.body.mp rfl).1
      rw [honly] at honly'
      exact of_decide_eq_false honly'
  · rintro (hlost | ⟨hright, hbody, hpending⟩)
    · exact Or.inl (Or.inr hlost)
    · refine Or.inr ⟨hrc, hstatus.mpr hright, hpending, fun _ => ⟨?_, hprint⟩, fun _ => rfl⟩
      rw [honly]
      exact decide_eq_false hbody

/-- With a postponed header and a body, the body stage decides. -/
theorem framed_iff_postponed (conf : FilterConf) {a : ExitAnswers} {q : Incoming}
    {script : ScriptResult} {baseLen : Int} (hnew : ¬ q.httpVersion < 1000)
    (hprint : nonEmpty script.writes ≠ []) {rc : Rc} {r : Response} (hrc : rc ≠ .error)
    (hafter : AfterHeader conf q script baseLen 0 r)
    (hpost : HeaderPostponed conf q script baseLen) (hready : r.writeReady = q.writeReady) :
    Framed script ⟨rc, r, true, (outputFilter conf a.body (bodyBufs script) r).2⟩ ↔
      ResponseRight conf q script baseLen ∨ HeaderLost conf a q script baseLen := by
  have hheader := headerBuf_packed conf q script baseLen
  have hout : r.out = [headerBuf conf q script baseLen] := by rw [hafter.out, drain_zero]
  have hpacked : Packed r.out := by rw [hout]; exact hheader
  have hbody := bodyBufs_noHeader script
  have hpos : 0 < (headerBuf conf q script baseLen).bytes.length :=
    List.length_pos_iff.mpr (hheader _ List.mem_cons_self)
  have hbodyless := hpost.1
  have hright : ResponseRight conf q script baseLen ↔ script.status = finalStatus q script := by
    simp [ResponseRight, hprint, hbodyless]
  rw [framed_iff_parts hnew hprint hrc hafter, hright]
  rcases outputFilter_cases conf a.body hpacked (bodyBufs_packed script) (bodyBufs_last hprint)
    with ⟨herr, _⟩ | ⟨_, hfit, part, hpart, h⟩ | ⟨_, hfit, ⟨hblock, h⟩ | ⟨hopen, hfail, h⟩ |
      ⟨hopen, hfail, h⟩⟩
  · rw [hafter.error] at herr
    cases herr
  · rw [h]
    have hleft : HeaderLeft { r with out := r.out ++ part, error := true } :=
      (headerLeft_append_iff conf q script baseLen 0 (by rw [hafter.out])
        fun b hb => hbody b (hpart.subset hb)).mpr hpos
    simp [hleft, HeaderLost, hprint, hpost, hfit]
  · rw [h]
    rw [hready] at hblock
    simp [hafter.error, hbodyless, HeaderLost, hprint, hpost, hfit, hblock]
  · rw [h]
    have hleft : ∀ r' : Response,
        r'.out = consume a.body.send.taken (r.out ++ bodyBufs script) →
        (HeaderLeft r' ↔
          a.body.send.taken < (headerBuf conf q script baseLen).bytes.length) := by
      intro r' hr'
      unfold HeaderLeft
      rw [hr', hout]
      exact exists_mem_consume_cons (P := fun t : BufTag => t.header = true) rfl
        (fun d hd => by rw [hbody d hd]; decide) _
    rw [hready] at hopen
    simp only [hleft, HeaderLost, hpost, hfit, hopen, hfail, hbodyless]
    by_cases hlt : a.body.send.taken < (headerBuf conf q script baseLen).bytes.length <;>
      simp [hlt, hprint]
  · rw [h]
    have hlost : ¬ HeaderLost conf a q script baseLen := by
      simp [HeaderLost, hprint, hpost, hfit, hfail]
    constructor
    · rintro (⟨herr, _⟩ | ⟨hstatus, _⟩)
      · rw [hafter.error] at herr
        cases herr
      · exact Or.inl hstatus
    · rintro (hstatus | h)
      · refine Or.inr ⟨hstatus, hbodyless, ?_⟩
        rintro ⟨b, hb, _⟩
        exact decide_eq_true (List.ne_nil_of_mem hb)
      · exact absurd h hlost

/-- With a header given to the socket and a body, the response is framed
exactly when it is the right one, or the body breaks the connection before the
header is sent. -/
theorem framed_iff_written (conf : FilterConf) {a : ExitAnswers} {q : Incoming}
    {script : ScriptResult} {baseLen : Int} (hnew : ¬ q.httpVersion < 1000)
    (hprint : nonEmpty script.writes ≠ []) {k : Nat} {rc : Rc} {r : Response} (hrc : rc ≠ .error)
    (hafter : AfterHeader conf q script baseLen k r)
    (hpost : ¬ HeaderPostponed conf q script baseLen)
    (hk : k = if q.writeReady = true then a.header.write.send.taken else 0)
    (hbuffered : r.buffered = decide (r.out ≠ []))
    (hready : r.writeReady = true → (headerBuf conf q script baseLen).bytes.length ≤ k) :
    Framed script ⟨rc, r, true, (outputFilter conf a.body (bodyBufs script) r).2⟩ ↔
      ResponseRight conf q script baseLen ∨ HeaderLost conf a q script baseLen := by
  have hheader := headerBuf_packed conf q script baseLen
  have hpacked : Packed r.out := by rw [hafter.out]; exact hheader.drain k
  have hbody := bodyBufs_noHeader script
  have hpos : 0 < (headerBuf conf q script baseLen).bytes.length :=
    List.length_pos_iff.mpr (hheader _ List.mem_cons_self)
  have hunsent : k < (headerBuf conf q script baseLen).bytes.length ↔
      (q.writeReady = false ∨
        a.header.write.send.taken < (headerBuf conf q script baseLen).bytes.length) := by
    rw [hk]
    by_cases hq : q.writeReady = true <;> simp [hq, hpos]
  have hright : ResponseRight conf q script baseLen ↔
      script.status = finalStatus q script ∧ ¬ BodyLess q (finalStatus q script) := by
    simp [ResponseRight, hprint]
  -- a socket that is still ready has taken the whole header
  have hgone : r.writeReady = true → r.out = [] := by
    intro hopen
    rw [hafter.out, drain_eq_nil_iff hheader]
    simpa using hready hopen
  rw [framed_iff_parts hnew hprint hrc hafter, hright]
  rcases outputFilter_cases conf a.body hpacked (bodyBufs_packed script) (bodyBufs_last hprint)
    with ⟨herr, _⟩ | ⟨_, hfit, part, hpart, h⟩ | ⟨_, hfit, hgo⟩
  · rw [hafter.error] at herr
    cases herr
  · rw [h]
    have hleft : HeaderLeft { r with out := r.out ++ part, error := true } ↔ _ :=
      headerLeft_append_iff conf q script baseLen k (by rw [hafter.out])
        fun b hb => hbody b (hpart.subset hb)
    have hpending : k < (headerBuf conf q script baseLen).bytes.length →
        r.buffered = true := by
      intro hlt
      rw [hbuffered]
      refine decide_eq_true fun hnil => ?_
      rw [hafter.out, drain_eq_nil_iff hheader] at hnil
      simp only [contents_cons, contents_nil, List.append_nil] at hnil
      omega
    have hlost : HeaderLost conf a q script baseLen ↔
        k < (headerBuf conf q script baseLen).bytes.length := by
      simp [HeaderLost, hprint, hpost, hfit, hunsent]
    rw [hleft, hlost]
    constructor
    · rintro (⟨_, hlt⟩ | ⟨hstatus, hcarry, _⟩)
      · exact Or.inr hlt
      · exact Or.inl ⟨hstatus, hcarry⟩
    · rintro (⟨hstatus, hcarry⟩ | hlt)
      · exact Or.inr ⟨hstatus, hcarry, hpending⟩
      · exact Or.inl ⟨rfl, hlt⟩
  · have hlost : ¬ HeaderLost conf a q script baseLen := by
      simp [HeaderLost, hpost, hfit]
    -- with enough links an error comes after the header, and what is left is buffered
    suffices hclean : ∀ r' : Response, (outputFilter conf a.body (bodyBufs script) r).2 = r' →
        ¬ (r'.error = true ∧ HeaderLeft r') ∧ (HeaderLeft r' → r'.buffered = true) by
      obtain ⟨hwhole, hpending⟩ := hclean _ rfl
      constructor
      · rintro (h | ⟨hstatus, hcarry, _⟩)
        · exact absurd h hwhole
        · exact Or.inl ⟨hstatus, hcarry⟩
      · rintro (⟨hstatus, hcarry⟩ | h)
        · exact Or.inr ⟨hstatus, hcarry, hpending⟩
        · exact absurd h hlost
    rintro r' rfl
    rcases hgo with ⟨hblock, h⟩ | ⟨hopen, hfail, h⟩ | ⟨hopen, hfail, h⟩ <;> rw [h]
    · refine ⟨fun hlost => ?_, fun _ => rfl⟩
      rw [hafter.error] at hlost
      cases hlost.1
    · have hleft := not_headerLeft (r := { r with
          sent := r.sent + min a.body.send.taken (contents (r.out ++ bodyBufs script)).length
          wire := r.wire ++ (contents (r.out ++ bodyBufs script)).take a.body.send.taken
          out := consume a.body.send.taken (r.out ++ bodyBufs script)
          error := true }) (by
        simp only [hgone hopen, List.nil_append]
        exact consume_noHeader hbody _)
      exact ⟨fun hlost => hleft hlost.2, fun h => absurd h hleft⟩
    · refine ⟨fun hlost => ?_, ?_⟩
      · rw [hafter.error] at hlost
        cases hlost.1
      · rintro ⟨b, hb, _⟩
        exact decide_eq_true (List.ne_nil_of_mem hb)

/-- **When a response is framed.**  For every configuration, request, script,
`base_len` and outside answers, the response `exit_request` leaves is completely
framed if and only if `FramedWhen` holds: the protocol has no header; or the
header is refused and the body stays silent; or the socket fails on the header;
or the status, the body and the header that is not postponed are right; or the
connection breaks before the header is out. -/
theorem framed_iff (conf : FilterConf) (a : ExitAnswers) (q : Incoming)
    (script : ScriptResult) (baseLen : Int) :
    Framed script (toxicResponse conf a q script baseLen) ↔
      FramedWhen conf a q script baseLen := by
  by_cases hold : q.httpVersion < 1000
  · exact ⟨fun _ => Or.inl hold, fun _ => framed_old conf a script baseLen hold⟩
  unfold FramedWhen
  by_cases hrefused : HeaderRefused a q
  · rw [framed_iff_refused conf script baseLen hold hrefused]
    simp [hold, hrefused]
  by_cases hfails : HeaderSendFails conf a q script baseLen
  · simp [hold, hrefused, hfails, framed_headerSendFails conf script baseLen hold hrefused hfails]
  simp only [hold, hrefused, hfails, false_or, false_and, not_false_eq_true, true_and]
  by_cases hprint : nonEmpty script.writes = []
  · rw [framed_iff_headerOnly conf baseLen hold hrefused hfails hprint]
    simp [ResponseRight, HeaderLost, hprint]
  · obtain ⟨k, rc, r, hsend, hrc, hafter, hstage⟩ :=
      sendHeader_afterHeader conf script baseLen hold hrefused hfails
    rw [toxicResponse_body conf a q baseLen hprint, hsend]
    rcases hstage with ⟨hpost, rfl, _, hready⟩ | ⟨hpost, hk, hbuffered, hready⟩
    · exact framed_iff_postponed conf hold hprint hrc hafter hpost hready
    · exact framed_iff_written conf hold hprint hrc hafter hpost hk hbuffered hready

/-- The default `postpone_output` and `keepalive_timeout 65 60`. -/
def sampleConf : FilterConf :=
  ⟨1460, true, 60, bytesOf "Mon, 28 Sep 1970 06:00:00 GMT"⟩

/-- Every allocation succeeds and the socket takes all it gets. -/
def sampleAnswers : ExitAnswers := ⟨⟨true, none, ⟨4096, false⟩⟩, none, ⟨4096, false⟩⟩

/-- A GET request whose script prints nothing: its header block, with the
status 0, stays in `r->out` without being recorded as pending. -/
theorem empty_output_not_framed :
    (toxicResponse sampleConf sampleAnswers ⟨.get, 1001, 0, true, false, true⟩
        ⟨none, none, [], []⟩ 0).final.out.length = 1 ∧
    (toxicResponse sampleConf sampleAnswers ⟨.get, 1001, 0, true, false, true⟩
        ⟨none, none, [], []⟩ 0).final.buffered = false ∧
    ¬ Framed ⟨none, none, [], []⟩
        (toxicResponse sampleConf sampleAnswers ⟨.get, 1001, 0, true, false, true⟩
          ⟨none, none, [], []⟩ 0) := by
  refine ⟨by decide +kernel, by decide +kernel, ?_⟩
  have hfails : ¬ HeaderSendFails sampleConf sampleAnswers ⟨.get, 1001, 0, true, false, true⟩
      ⟨none, none, [], []⟩ 0 := fun h => absurd h.2.2 (by decide)
  rw [framed_iff_headerOnly sampleConf 0 (by decide) (by decide) hfails rfl]
  rintro ⟨hstatus, _⟩
  exact absurd hstatus (by decide)

end Toxic
