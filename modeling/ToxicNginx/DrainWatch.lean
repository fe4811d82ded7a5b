import ToxicNginx.ReferenceBalance

/-!
# The thread that waits for the response

The child of a request other than POST and PUT starts a thread that compares
`r->connection->sent` with `base_len` over and over and ends the process when
the first has reached the second.  `sent` counts the header block and the NUL
bytes of the buffers as well, `base_len` also what earlier requests of the
process printed.  The thread runs a function inside `ngx_http_toxic_handler`: `r`
is a variable of the handler's frame, which is gone once the handler returns.

* `watchStep` — the process of `httpStep` with the response it owes;
* `Watched` — when the test is true every byte of the response is with the
  socket, and the thread never looks at a freed request or a frame that is gone;
* `Room` — a bound on what may be left unsent; `room_iff` says that it is what
  the test needs;
* `KeepsReader`, `Bodyless` — a finalization does not begin to read a body;
* `Tracked` — the invariant: what is sent and pending is part of the response;
* `watched_of_guarded` — every run whose writes leave room and whose thread looks
  at a request that is there is watched.
-/

namespace Toxic

open ChunkQueue StepSystem

/-- Giving `r->out` to the socket moves bytes and loses none. -/
theorem writeOut_stream (s : SendAnswer) {r : Response} (hsent : r.sent = r.wire.length) :
    (writeOut s r).2.stream = r.stream ∧
      (writeOut s r).2.sent = (writeOut s r).2.wire.length := by
  by_cases hready : r.writeReady = true
  · by_cases hfail : s.failed = true
    · rw [writeOut_failed hready hfail]
      simp [Response.stream, contents_consume, hsent]
    · rw [writeOut_taken hready (Bool.eq_false_iff.mpr hfail)]
      simp [Response.stream, contents_drain, hsent]
  · have hblocked : r.writeReady = false := Bool.eq_false_iff.mpr hready
    by_cases hout : r.out = []
    · simp [writeOut, sendChain, hblocked, hout, Response.stream, hsent]
    · rw [writeOut_blocked hblocked hout]
      exact ⟨rfl, hsent⟩

/-- The write filter links a part of the chain it gets. -/
theorem linkChain_contents (links : Option Nat) (new : List OutBuf) :
    contents (linkChain links new).1 <+: contents new := by
  induction new generalizing links with
  | nil => cases links <;> simp [linkChain]
  | cons b new ih =>
      have hcons : ∀ links : Option Nat, links ≠ some 0 →
          contents (linkChain links (b :: new)).1 <+: contents (b :: new) := by
        intro links hlinks
        unfold linkChain
        by_cases hb : b.bytes.isEmpty = true
        · simp [hb]
        · simp only [hb, if_false, contents_cons, Bool.false_eq_true]
          exact (List.prefix_append_right_inj _).mpr (ih _)
      cases links with
      | none => exact hcons none (by simp)
      | some n =>
          cases n with
          | zero => simp [linkChain]
          | succ n => exact hcons (some (n + 1)) (by simp)

/-- What a response has sent and keeps pending after a call of the write
filter is what it had before and a part of the new chain. -/
theorem writeFilter_stream (conf : FilterConf) (w : WriteAnswers) (new : List OutBuf)
    {r : Response} (hsent : r.sent = r.wire.length) :
    (writeFilter conf w new r).2.stream <+: r.stream ++ contents new ∧
      (writeFilter conf w new r).2.sent = (writeFilter conf w new r).2.wire.length := by
  have hlinked : r.stream ++ contents (linkChain w.links new).1 <+: r.stream ++ contents new :=
    (List.prefix_append_right_inj _).mpr (linkChain_contents w.links new)
  have hstream : ({ r with out := r.out ++ (linkChain w.links new).1 } : Response).stream
      = r.stream ++ contents (linkChain w.links new).1 := by
    simp [Response.stream]
  unfold writeFilter
  split
  · exact ⟨List.prefix_append _ _, hsent⟩
  split
  · exact ⟨List.prefix_append _ _, hsent⟩
  dsimp only
  split
  · exact ⟨by rw [hstream]; exact hlinked, hsent⟩
  split
  · exact ⟨by rw [hstream]; exact hlinked, hsent⟩
  split
  next hsize =>
    split
    · have hempty : contents (r.out ++ (linkChain w.links new).1) = [] :=
        List.length_eq_zero_iff.mp hsize
      refine ⟨?_, hsent⟩
      apply List.IsPrefix.trans _ hlinked
      rw [← hstream]
      simp only [Response.stream, hempty, contents_nil]
      exact List.prefix_rfl
    · exact ⟨by rw [hstream]; exact hlinked, hsent⟩
  next =>
    have h := writeOut_stream w.send
      (r := { r with out := r.out ++ (linkChain w.links new).1 }) hsent
    rw [h.1, hstream]
    exact ⟨hlinked, h.2⟩

/-- The output filter sends like the write filter. -/
theorem outputFilter_stream (conf : FilterConf) (w : WriteAnswers) (new : List OutBuf)
    {r : Response} (hsent : r.sent = r.wire.length) :
    (outputFilter conf w new r).2.stream <+: r.stream ++ contents new ∧
      (outputFilter conf w new r).2.sent = (outputFilter conf w new r).2.wire.length := by
  have h := writeFilter_stream conf w new hsent
  unfold outputFilter
  split
  next hwrite =>
    rw [hwrite] at h
    exact h
  next => exact h

/-- The header block of a toxic response, none for a version before 1.0. -/
def headerBytes (conf : FilterConf) (q : Incoming) (script : ScriptResult) (baseLen : Int) :
    Bytes :=
  if q.httpVersion < 1000 then [] else headerBlock conf (announced q script baseLen)

/-- Sending the header sends a part of the header block. -/
theorem sendHeader_stream (conf : FilterConf) (a : ExitAnswers) (q : Incoming)
    (script : ScriptResult) (baseLen : Int) :
    (sendHeader conf a.header (beforeHeader q script baseLen)).2.stream
        <+: headerBytes conf q script baseLen ∧
      (sendHeader conf a.header (beforeHeader q script baseLen)).2.sent
        = (sendHeader conf a.header (beforeHeader q script baseLen)).2.wire.length := by
  unfold headerBytes
  by_cases hold : q.httpVersion < 1000
  · rw [sendHeader_old conf a.header script baseLen hold, if_pos hold, chosenStatus_eq]
    exact ⟨List.prefix_rfl, rfl⟩
  · rw [sendHeader_eq conf a script baseLen hold, if_neg hold]
    by_cases hbuf : a.header.headerBuf = false
    · rw [if_pos hbuf]
      exact ⟨List.nil_prefix, rfl⟩
    · rw [if_neg hbuf]
      have h := writeFilter_stream conf a.header.write [headerBuf conf q script baseLen]
        (r := announced q script baseLen) rfl
      have hstart : (announced q script baseLen).stream = [] := rfl
      rw [hstart, contents_cons, contents_nil, List.nil_append, List.append_nil] at h
      exact h

/-- The bytes of the buffers of a response: each write and a NUL byte. -/
theorem contents_bodyBufs (script : ScriptResult) :
    contents (bodyBufs script) = ((nonEmpty script.writes).map (· ++ [0])).flatten := by
  rw [← storedBufs_bytes, contents, bodyBufs, List.map_map]
  rfl

/-- `exit_request` sends and queues a part of the response, in order. -/
theorem exitRequestSend_stream (conf : FilterConf) (a : ExitAnswers) (q : Incoming)
    (script : ScriptResult) (baseLen : Int) :
    (toxicResponse conf a q script baseLen).final.stream.Sublist
        (headerBytes conf q script baseLen ++ contents (bodyBufs script)) ∧
      (toxicResponse conf a q script baseLen).final.sent
        = (toxicResponse conf a q script baseLen).final.wire.length := by
  obtain ⟨hheader, hsent⟩ := sendHeader_stream conf a q script baseLen
  unfold toxicResponse exitRequestSend
  dsimp only
  split
  · exact ⟨hheader.sublist.trans (List.sublist_append_left _ _), hsent⟩
  · have h := outputFilter_stream conf a.body (bodyBufs script) hsent
    exact ⟨h.1.sublist.trans (hheader.sublist.append_right _), h.2⟩

/-- What the thread and the sending have to do with: nothing else of a request
changes them. -/
structure DrainView where
  method : Method
  out : List OutBuf
  sent : Nat
  wire : Bytes
  baseLen : Int
  thread : Bool
  staleRead : Bool

def Http.view (s : Http) : DrainView :=
  ⟨s.resp.method, s.resp.out, s.resp.sent, s.resp.wire, s.baseLen, s.thread, s.staleRead⟩

/-- The counting functions leave the response and the thread alone. -/
@[simp] theorem closeRequest_view (s : Http) : (closeRequest s).view = s.view := by
  unfold closeRequest freeRequest
  split
  · rfl
  · split <;> rfl

@[simp] theorem setLingeringClose_view (a : FinalizeAnswers) (s : Http) :
    (setLingeringClose a s).view = s.view := by
  unfold setLingeringClose
  dsimp only
  split
  · exact closeRequest_view _
  split
  · exact closeRequest_view _
  split
  · split
    · rfl
    · exact closeRequest_view _
  · rfl

@[simp] theorem finalizeConnection_view (conf : HttpConf) (a : FinalizeAnswers) (s : Http) :
    (finalizeConnection conf a s).view = s.view := by
  unfold finalizeConnection setKeepalive
  split
  · rw [closeRequest_view]
    split <;> rfl
  split
  · split <;> rfl
  split
  · exact setLingeringClose_view a s
  · exact closeRequest_view s

@[simp] theorem finalizeRequest_view (conf : HttpConf) (a : FinalizeAnswers) (rc : Rc)
    (s : Http) : (finalizeRequest conf a rc s).view = s.view := by
  have hcall : ∀ s : Http, (call terminateRequest s).view = s.view := by
    intro s
    unfold call
    split
    · rfl
    · split <;> rfl
  unfold finalizeRequest setWriteHandler
  split
  · rfl
  split
  · by_cases hevent : a.writeEvent = true
    · simp only [hevent, if_true]
      rfl
    · simp only [hevent, if_false, Bool.false_eq_true, hcall]
      exact closeRequest_view _
  · dsimp only
    split
    · exact closeRequest_view _
    · exact finalizeConnection_view conf a _

/-- `t` discards the body if `s` does, and its read event handler is the one of `s`
or the one while a response is written. -/
def KeepsReader (s t : Http) : Prop :=
  t.discardBody = s.discardBody ∧
    (t.readHandler = s.readHandler ∨ t.readHandler = s.writingReader)

theorem KeepsReader.discard {s t : Http} (h : KeepsReader s t) :
    t.discardBody = s.discardBody := h.1

theorem KeepsReader.reader {s t : Http} (h : KeepsReader s t) :
    t.readHandler = s.readHandler ∨ t.readHandler = s.writingReader := h.2

theorem KeepsReader.refl (s : Http) : KeepsReader s s := ⟨rfl, Or.inl rfl⟩

theorem KeepsReader.trans {s m t : Http} (h : KeepsReader s m) (h' : KeepsReader m t) :
    KeepsReader s t := by
  have hwriting : m.writingReader = s.writingReader := by
    unfold Http.writingReader
    rw [h.discard]
  refine ⟨h'.discard.trans h.discard, ?_⟩
  rcases h'.reader with hm | hm
  · rw [hm]
    exact h.reader
  · exact Or.inr (hm.trans hwriting)

/-- It does not begin to read a body. -/
theorem KeepsReader.reads {s t : Http} (h : KeepsReader s t) (hreads : s.readHandler ≠ .readBody) :
    t.readHandler ≠ .readBody := by
  rcases h.reader with ht | ht
  · exact ht ▸ hreads
  · exact ht ▸ s.writingReader_ne

theorem closeRequest_keepsReader (s : Http) : KeepsReader s (closeRequest s) := by
  unfold closeRequest freeRequest
  split
  · exact .refl s
  · split <;> exact .refl s

theorem setLingeringClose_keepsReader (a : FinalizeAnswers) (s : Http) :
    KeepsReader s (setLingeringClose a s) := by
  have hclose : KeepsReader s (closeRequest { s with reader := .lingering }) :=
    closeRequest_keepsReader _
  unfold setLingeringClose
  dsimp only
  split
  · exact hclose
  split
  · exact hclose
  split
  · split
    · exact .refl s
    · exact hclose
  · exact .refl s

theorem finalizeConnection_keepsReader (conf : HttpConf) (a : FinalizeAnswers) (s : Http) :
    KeepsReader s (finalizeConnection conf a s) := by
  unfold finalizeConnection setKeepalive
  split
  · refine KeepsReader.trans ?_ (closeRequest_keepsReader _)
    split
    next hdiscard => exact ⟨rfl, Or.inr (Http.writingReader_discard hdiscard).symm⟩
    next => exact .refl s
  split
  · split <;> exact .refl s
  split
  · exact setLingeringClose_keepsReader a s
  · exact closeRequest_keepsReader s

/-- **A finalization** does not begin to read or to discard a body. -/
theorem finalizeRequest_keepsReader (conf : HttpConf) (a : FinalizeAnswers) (rc : Rc)
    (s : Http) : KeepsReader s (finalizeRequest conf a rc s) := by
  have hcall : ∀ s : Http, KeepsReader s (call terminateRequest s) := by
    intro s
    unfold call
    split
    · exact .refl s
    · split <;> exact .refl s
  have hset : KeepsReader s
      { s with readHandler := s.writingReader, writeHandler := .writer, writeTimer := true } :=
    ⟨rfl, Or.inr rfl⟩
  unfold finalizeRequest setWriteHandler
  split
  · exact .refl s
  split
  · by_cases hevent : a.writeEvent = true
    · simp only [hevent, if_true]
      exact hset
    · simp only [hevent, if_false, Bool.false_eq_true]
      exact (hset.trans (closeRequest_keepsReader _)).trans (hcall _)
  · dsimp only
    split
    · exact closeRequest_keepsReader { s with writeHandler := .empty, writeTimer := false }
    · exact finalizeConnection_keepsReader conf a { s with writeHandler := .empty, writeTimer := false }

theorem call_finalizeRequest_keepsReader (conf : HttpConf) (a : FinalizeAnswers) (rc : Rc)
    (s : Http) : KeepsReader s (call (finalizeRequest conf a rc) s) := by
  unfold call
  split
  · exact .refl s
  split
  · exact .refl s
  · exact finalizeRequest_keepsReader conf a rc s

/-- No body of the request is read or discarded. -/
def Http.Bodyless (s : Http) : Prop :=
  s.readHandler ≠ .readBody ∧ s.readHandler ≠ .discardBody ∧ s.discardBody = false

theorem KeepsReader.bodyless {s t : Http} (h : KeepsReader s t) (hs : s.Bodyless) :
    t.Bodyless := by
  refine ⟨h.reads hs.1, ?_, h.discard.trans hs.2.2⟩
  rcases h.reader with ht | ht
  · exact ht ▸ hs.2.1
  · rw [ht, Http.writingReader, hs.2.2, if_neg Bool.false_ne_true]
    decide

/-- The finalization of a request keeps it: the connection has an error and
the request is posted to the terminate handler, or the response is buffered and
its write event registered, or a lingering close holds it. -/
def KeepsRequest (conf : HttpConf) (a : FinalizeAnswers) (s : Http) : Prop :=
  s.resp.error = true ∨ (s.resp.buffered = true ∧ a.writeEvent = true) ∨
    (s.resp.buffered = false ∧ LingersAfter conf a s)

instance (conf : HttpConf) (a : FinalizeAnswers) (s : Http) :
    Decidable (KeepsRequest conf a s) :=
  inferInstanceAs (Decidable (_ ∨ _))

/-- A count that is not the last one frees nothing. -/
theorem closeRequest_freed {s : Http} (hcount : s.count ≠ 1) :
    (closeRequest s).freed = s.freed := by
  unfold closeRequest
  split <;> simp

/-- A connection that lingers keeps its request. -/
theorem finalizeConnection_keeps (conf : HttpConf) {a : FinalizeAnswers} {s : Http}
    (hfreed : s.freed = false) (hlingers : ConnectionLingers conf a s) :
    (finalizeConnection conf a s).freed = false := by
  unfold finalizeConnection
  by_cases hcount : s.count = 1
  · rw [if_neg (fun h => h hcount), if_neg (by rw [hlingers.noKeepalive]; decide),
      if_pos hlingers.lingers]
    unfold setLingeringClose
    dsimp only
    rw [if_neg (by rw [hlingers.readEvent]; decide),
      if_neg (by rw [hlingers.shutdown]; decide)]
    have hstays := hlingers.stays
    by_cases hready : s.readReady = true
    · rw [hready, Bool.true_and, Bool.not_eq_false'] at hstays
      rw [if_pos hready, if_pos hstays]
      exact hfreed
    · rw [if_neg hready]
      exact hfreed
  · rw [if_pos hcount, closeRequest_freed]
    · split <;> exact hfreed
    · split <;> exact hcount

/-- **A finalization that keeps the request** does not free it. -/
theorem finalizeRequest_keeps (conf : HttpConf) {a : FinalizeAnswers} {rc : Rc} {s : Http}
    (hfreed : s.freed = false) (hkeeps : KeepsRequest conf a s) :
    (finalizeRequest conf a rc s).freed = false := by
  unfold finalizeRequest setWriteHandler
  split
  · exact hfreed
  next hfine =>
    rcases hkeeps with herr | ⟨hbuffered, hevent⟩ | ⟨hbuffered, heof, hlingers⟩
    · exact absurd (Or.inr (Or.inr (Or.inr herr))) hfine
    · simp only [hbuffered, hevent, if_true]
      exact hfreed
    · rw [if_neg (by rw [hbuffered]; decide)]
      dsimp only
      rw [if_neg (by rw [heof]; decide)]
      apply finalizeConnection_keeps conf (s := { s with writeHandler := .empty, writeTimer := false })
      · exact hfreed
      · exact ⟨hlingers.1, hlingers.2, hlingers.3, hlingers.4, hlingers.5⟩

/-- **The writer** changes the response only by sending. -/
theorem writer_onlySends (conf : HttpConf) (w : WriteAnswers) (a : FinalizeAnswers) (s : Http) :
    (writer conf w a s).view
      = { s with resp := (outputFilter conf.filter w [] s.resp).2 }.view := by
  unfold writer
  generalize outputFilter conf.filter w [] s.resp = result
  obtain ⟨rc, resp⟩ := result
  dsimp only
  split
  · exact finalizeRequest_view _ _ _ _
  split
  · split
    · rfl
    · exact closeRequest_view _
  · exact finalizeRequest_view _ _ _ _

/-- The writer does not begin to read or to discard a body. -/
theorem writer_keepsReader (conf : HttpConf) (w : WriteAnswers) (a : FinalizeAnswers) (s : Http) :
    KeepsReader s (writer conf w a s) := by
  unfold writer
  generalize outputFilter conf.filter w [] s.resp = result
  obtain ⟨rc, resp⟩ := result
  dsimp only
  split
  · exact finalizeRequest_keepsReader conf a rc { s with resp := resp }
  split
  · split
    · exact .refl s
    · exact closeRequest_keepsReader { s with resp := resp, writeTimer := true }
  · exact finalizeRequest_keepsReader conf a rc { s with resp := resp, writeHandler := .empty }

theorem runWriteHandler_keepsReader (conf : HttpConf) (timedOut : Bool) (w : WriteAnswers)
    (a : FinalizeAnswers) (s : Http) : KeepsReader s (runWriteHandler conf timedOut w a s) := by
  unfold runWriteHandler
  split
  · exact .refl s
  · exact closeRequest_keepsReader { s with count := 1 }
  · split
    · exact finalizeRequest_keepsReader conf a .requestTimeOut s
    · exact writer_keepsReader conf w a s

/-- Giving up a reference does not move the process. -/
@[simp] theorem closeRequest_pc (s : Http) : (closeRequest s).pc = s.pc := by
  unfold closeRequest freeRequest
  split
  · rfl
  · split <;> rfl

/-- The writes of a script add up as long as the sum is an `int`. -/
theorem addWrites_eq {baseLen : Int} {writes : List Bytes} (hlow : 0 ≤ baseLen)
    (hhigh : baseLen + ((nonEmpty writes).map List.length).sum ≤ 2147483647) :
    addWrites baseLen writes = baseLen + ((nonEmpty writes).map List.length).sum := by
  unfold addWrites
  generalize nonEmpty writes = written at hhigh ⊢
  induction written generalizing baseLen with
  | nil => simp
  | cons str written ih =>
      simp only [List.map_cons, List.sum_cons, List.foldl_cons] at hhigh ⊢
      rw [addInt_eq hlow (by omega), ih (by omega) (by omega)]
      omega

/-- A process with the response it owes: the header block, the writes of the
script that are not empty, and `base_len` when the script began. -/
structure Watch where
  http : Http
  header : Bytes
  writes : List Bytes
  earlier : Int
  deriving DecidableEq, Repr

/-- The bytes of the response: the header block and the buffers. -/
def Watch.response (s : Watch) : Bytes := s.header ++ (s.writes.map (· ++ [0])).flatten

/-- The response the script of a step leaves. -/
def recordResponse (conf : HttpConf) (q : Incoming) (event : HttpEvent) (s : Watch) (t : Http) :
    Watch :=
  match event with
  | .execute _ (some run) =>
      { http := t
        header := headerBytes conf.filter q run.script
          (addWrites s.http.baseLen run.script.writes)
        writes := nonEmpty run.script.writes
        earlier := s.http.baseLen }
  | _ => { s with http := t }

/-- One step of the process or of its thread.  A write event that `writev` serves in
several calls is the same as several write events. -/
def watchStep (conf : HttpConf) (q : Incoming) (s : Watch) (event : HttpEvent) : Option Watch :=
  (httpStep conf s.http event).map (recordResponse conf q event s)

/-- The process when the content phase calls the handler. -/
def Watch.start (q : Incoming) (lingeringClose unread readReady readEof : Bool) (baseLen : Int) :
    Watch where
  http := Http.start q lingeringClose unread readReady readEof baseLen
  header := []
  writes := []
  earlier := baseLen

/-- What the test of the thread must satisfy: it is true only when the whole
response is with the socket, and neither a freed request was read for it nor a
frame that is gone. -/
structure Watched (s : Watch) : Prop where
  drained : s.http.thread = true → s.http.baseLen ≤ s.http.resp.sent →
    s.http.resp.wire = s.response
  live : s.http.staleRead = false

/-- `sent` bytes are the whole response, or leave more of it than the header
block and the NUL bytes have over what earlier requests printed. -/
def Watch.Room (s : Watch) (sent : Nat) : Prop :=
  s.response.length ≤ sent ∨
    (s.header.length + s.writes.length : Int) - s.earlier < s.response.length - sent

instance (s : Watch) (sent : Nat) : Decidable (s.Room sent) :=
  inferInstanceAs (Decidable (_ ∨ _))

/-- `sent` behind a write of what is pending. -/
def Http.sentBehind (w : WriteAnswers) (s : Http) : Nat :=
  s.resp.sent + min w.send.taken (contents s.resp.out).length

/-- The steps under which the thread does its work: `base_len` stays in the
range of an `int`, the finalization behind which the thread starts keeps the
request, every write leaves room, and the thread makes its tests before the
handler returns. -/
def WatchedStep (conf : HttpConf) (s : Watch) : HttpEvent → Prop
  | .execute _ (some run) =>
      0 ≤ s.http.baseLen ∧
        s.http.baseLen + ((nonEmpty run.script.writes).map List.length).sum ≤ 2147483647
  | .finalize a =>
      s.http.pc = .exitFinalize → KeepsRequest conf a s.http ∧ s.Room s.http.resp.sent
  | .runPosted w _ =>
      s.http.thread = true → s.http.posted = true → s.http.writeHandler = .writer →
        s.Room (s.http.sentBehind w)
  | .writable timedOut w _ =>
      s.http.thread = true → timedOut = false → s.http.writeHandler = .writer →
        s.Room (s.http.sentBehind w)
  | .poll _ => s.http.framed = true
  | _ => True

instance (conf : HttpConf) (s : Watch) (event : HttpEvent) :
    Decidable (WatchedStep conf s event) :=
  match event with
  | .execute _ (some _) => inferInstanceAs (Decidable (_ ∧ _))
  | .finalize _ => inferInstanceAs (Decidable (_ = _ → _ ∧ _))
  | .runPosted _ _ => inferInstanceAs (Decidable (_ = _ → _ = _ → _ = _ → Watch.Room _ _))
  | .writable _ _ _ => inferInstanceAs (Decidable (_ = _ → _ = _ → _ = _ → Watch.Room _ _))
  | .poll _ => inferInstanceAs (Decidable (_ = _))
  | .execute _ none | .handler _ _ | .fork _ | .special _ | .readable _ _ _ _ | .lingering _ =>
      inferInstanceAs (Decidable True)

/-- Nothing of the request has been answered yet. -/
def Pc.unanswered : Pc → Bool
  | .handler | .forking | .executing => true
  | _ => false

/-- The body of the request was refused. -/
def Pc.refuses : Pc → Bool
  | .special _ | .phaseFinalize (.special _) => true
  | _ => false

/-- The finalization of `exit_request` or of the handler is next. -/
def Pc.finalizes : Pc → Bool
  | .exitFinalize | .handlerFinalize => true
  | _ => false

/-- The thread runs, or the finalization behind which it starts is next. -/
def Http.watching (s : Http) : Bool := s.thread || s.pc == .exitFinalize

/-- The invariant of a process with a request other than POST and PUT. -/
structure Tracked (q : Incoming) (s : Watch) : Prop where
  isPost : s.http.isPost = false
  bodyless : s.http.Bodyless
  accepted : s.http.pc.refuses = false
  fresh : s.http.pc.unanswered = true →
    s.http.resp = Response.start q ∧ s.http.thread = false ∧ s.http.freed = false
  live : s.http.pc.finalizes = true → s.http.freed = false
  notStale : s.http.staleRead = false
  metered : s.http.resp.sent = s.http.resp.wire.length
  stream : s.http.resp.stream.Sublist s.response
  counted : s.http.watching = true →
    s.http.baseLen = s.earlier + (s.writes.map List.length).sum
  room : s.http.thread = true → s.Room s.http.resp.sent

/-- The length of a response is what the script printed, the header block and
one byte for each write. -/
theorem Watch.response_length (s : Watch) :
    s.response.length = s.header.length + (s.writes.map List.length).sum + s.writes.length := by
  rw [Watch.response, List.length_append, terminated_length]
  omega

/-- Room depends on the response and the number only. -/
theorem Watch.Room.frame {s : Watch} {t : Http} {m n : Nat} (h : s.Room n) (hmn : m = n) :
    ({ s with http := t } : Watch).Room m := by
  subst hmn
  exact h

/-- **Room is what the test needs**: `sent` leaves room exactly when `base_len`
is reached with the whole response only. -/
theorem Watch.room_iff {s : Watch} (sent : Nat)
    (hcounted : s.http.baseLen = s.earlier + (s.writes.map List.length).sum) :
    s.Room sent ↔ (s.http.baseLen ≤ sent → s.response.length ≤ sent) := by
  have hlength := s.response_length
  unfold Watch.Room
  constructor
  · intro hroom hreached
    omega
  · intro h
    by_cases hreached : s.http.baseLen ≤ sent
    · exact Or.inl (h hreached)
    · right
      omega

/-- A response is out exactly when as many bytes are. -/
theorem Tracked.out_iff {q : Incoming} {s : Watch} (h : Tracked q s) :
    s.response.length ≤ s.http.resp.sent ↔ s.http.resp.wire = s.response := by
  have hsub : s.http.resp.wire.Sublist s.response :=
    (List.sublist_append_left _ _).trans h.stream
  rw [h.metered]
  constructor
  · exact fun hlen => hsub.eq_of_length_le hlen
  · intro heq
    exact heq ▸ Nat.le_refl _

/-- The invariant makes the thread do its work. -/
theorem Tracked.watched {q : Incoming} {s : Watch} (h : Tracked q s) : Watched s := by
  refine ⟨?_, h.notStale⟩
  intro hthread hreached
  have hwatching : s.http.watching = true := by simp [Http.watching, hthread]
  apply h.out_iff.mp
  exact (s.room_iff _ (h.counted hwatching)).mp (h.room hthread) hreached

/-- A step that leaves the response and the thread alone keeps the invariant. -/
theorem Tracked.frame {q : Incoming} {s : Watch} (h : Tracked q s) {t : Http}
    (hview : t.view = s.http.view) (hbody : KeepsReader s.http t)
    (haccepted : t.pc.refuses = false)
    (hfresh : t.pc.unanswered = true →
      t.resp = Response.start q ∧ t.thread = false ∧ t.freed = false)
    (hlive : t.pc.finalizes = true → t.freed = false)
    (hexit : t.pc = .exitFinalize → s.http.pc = .exitFinalize) :
    Tracked q { s with http := t } := by
  simp only [Http.view, DrainView.mk.injEq] at hview
  obtain ⟨hmethod, hout, hsent, hwire, hbase, hthread, hstale⟩ := hview
  refine ⟨?_, hbody.bodyless h.bodyless, haccepted, hfresh, hlive, ?_, ?_, ?_, ?_, ?_⟩
  · have := h.isPost
    unfold Http.isPost at this ⊢
    rw [hmethod]
    exact this
  · exact hstale.trans h.notStale
  · exact hsent.trans (h.metered.trans (congrArg List.length hwire.symm))
  · have := h.stream
    unfold Response.stream at this ⊢
    rw [hout, hwire]
    exact this
  · intro hw
    apply hbase.trans
    apply h.counted
    simp only [Http.watching, Bool.or_eq_true, beq_iff_eq, hthread] at hw ⊢
    exact hw.imp_right hexit
  · intro hw
    rw [hthread] at hw
    exact (h.room hw).frame hsent

/-- The same for a step that goes on behind the handler. -/
theorem Tracked.behind {q : Incoming} {s : Watch} (h : Tracked q s) {t : Http}
    (hview : t.view = s.http.view) (hbody : KeepsReader s.http t)
    (hpc : t.pc = .runPosted ∨ t.pc = .idle ∨ t.pc = .phaseFinalize .ok) :
    Tracked q { s with http := t } := by
  have hlate : t.pc.refuses = false ∧ t.pc.unanswered = false ∧ t.pc.finalizes = false ∧
      t.pc ≠ .exitFinalize := by
    rcases hpc with hpc | hpc | hpc <;> rw [hpc] <;> decide
  obtain ⟨haccepted, hunanswered, hfinalizes, hexit⟩ := hlate
  refine h.frame hview hbody haccepted (fun hat => ?_) (fun hat => ?_) fun hat => absurd hat hexit
  · rw [hunanswered] at hat
    cases hat
  · rw [hfinalizes] at hat
    cases hat

/-- **The script** leaves a response of which a part is sent and the rest, or
some of it, pending. -/
theorem Tracked.executed {conf : HttpConf} {q : Incoming} {s : Watch} (h : Tracked q s)
    (hpc : s.http.pc = .executing) (cleanup : Bool) {run : Option ScriptRun}
    (hok : WatchedStep conf s (.execute cleanup run)) :
    Tracked q (recordResponse conf q (.execute cleanup run) s
      (Toxic.executed conf cleanup run s.http)) := by
  obtain ⟨hstart, hthread, hfreed⟩ := h.fresh (by rw [hpc]; rfl)
  have hget : (s.http.isPost && !cleanup) = false := by rw [h.isPost]; rfl
  cases run with
  | none =>
      unfold Toxic.executed
      rw [if_neg (by rw [hget]; decide)]
      exact h.frame (t := { s.http with exited := true }) rfl ⟨rfl, Or.inl rfl⟩ h.accepted
        (fun _ => ⟨hstart, hthread, hfreed⟩) h.live id
  | some run =>
      unfold WatchedStep at hok
      obtain ⟨hlow, hhigh⟩ := hok
      have hbase : addWrites s.http.baseLen run.script.writes
          = s.http.baseLen + ((nonEmpty run.script.writes).map List.length).sum :=
        addWrites_eq hlow hhigh
      obtain ⟨hstream, hsent⟩ := exitRequestSend_stream conf.filter run.answers q run.script
        (addWrites s.http.baseLen run.script.writes)
      have hmethod : (exitRequestSend conf.filter run.answers
          (addWrites s.http.baseLen run.script.writes)
          (storedBufs (nonEmpty run.script.writes))
          (callStart run.script s.http.resp)).final.method = s.http.resp.method := by
        simp
      unfold Toxic.executed
      rw [if_neg (by rw [hget]; decide)]
      unfold toxicResponse at hstream hsent
      rw [← hstart] at hstream hsent
      refine ⟨?_, h.bodyless, rfl, fun hat => ?_, fun _ => hfreed, h.notStale, hsent, ?_,
        fun _ => hbase, fun hw => ?_⟩
      · have := h.isPost
        unfold Http.isPost at this ⊢
        dsimp only [recordResponse]
        rw [hmethod]
        exact this
      · cases hat
      · rw [contents_bodyBufs] at hstream
        exact hstream
      · rw [show _ = s.http.thread from rfl, hthread] at hw
        cases hw

/-- **A write** of what is pending keeps the invariant when it leaves room for
a thread that watches. -/
theorem Tracked.wrote {q : Incoming} {s : Watch} (h : Tracked q s) (resp : Response) {t : Http}
    (hview : t.view = { s.http with resp := resp }.view)
    (hmethod : resp.method = s.http.resp.method)
    (hstream : resp.stream <+: s.http.resp.stream) (hsent : resp.sent = resp.wire.length)
    (hbody : KeepsReader s.http t) (hpc : t.pc = .runPosted)
    (hroom : s.http.thread = true → s.Room resp.sent) :
    Tracked q { s with http := t } := by
  simp only [Http.view, DrainView.mk.injEq] at hview
  obtain ⟨hmethod', hout, hsent', hwire, hbase, hthread, hstale⟩ := hview
  refine ⟨?_, hbody.bodyless h.bodyless, by rw [hpc]; rfl, fun hat => ?_, fun hat => ?_, ?_, ?_, ?_,
    ?_, ?_⟩
  · have := h.isPost
    unfold Http.isPost at this ⊢
    rw [hmethod', hmethod]
    exact this
  · rw [hpc] at hat
    cases hat
  · rw [hpc] at hat
    cases hat
  · exact hstale.trans h.notStale
  · exact hsent'.trans (hsent.trans (congrArg List.length hwire.symm))
  · have hpart : t.resp.stream <+: s.http.resp.stream := by
      unfold Response.stream at hstream ⊢
      rw [hout, hwire]
      exact hstream
    exact hpart.sublist.trans h.stream
  · intro hw
    apply hbase.trans
    apply h.counted
    simp only [Http.watching, hpc, hthread, Bool.or_eq_true] at hw ⊢
    exact hw.imp_right fun hat => (nomatch hat)
  · intro hw
    exact (hroom (hthread.symm.trans hw)).frame hsent'

/-- How many bytes the output filter gives to the socket. -/
theorem outputFilter_sent (conf : FilterConf) (w : WriteAnswers) (r : Response) :
    (outputFilter conf w [] r).2.sent = r.sent ∨
      (outputFilter conf w [] r).2.sent
        = r.sent + min w.send.taken (contents r.out).length := by
  by_cases herr : r.error = true
  · left
    rw [outputFilter, writeFilter_refused conf w [] herr]
  rcases writeFilter_nil conf w (Bool.eq_false_iff.mpr herr) with ⟨_, hw⟩ | ⟨_, hout, hw⟩
  · left
    rw [outputFilter, hw]
  by_cases hready : r.writeReady = true
  · right
    by_cases hfail : w.send.failed = true
    · rw [outputFilter, hw, writeOut_failed hready hfail]
    · rw [outputFilter, hw, writeOut_taken hready (Bool.eq_false_iff.mpr hfail)]
      by_cases hdrain : drain w.send.taken r.out = []
      · rw [if_pos hdrain]
      · rw [if_neg hdrain]
  · left
    rw [outputFilter, hw, writeOut_blocked (Bool.eq_false_iff.mpr hready) hout]

/-- **The write event handler** keeps the invariant. -/
theorem Tracked.ranWriteHandler (conf : HttpConf) {q : Incoming} {s : Watch} (h : Tracked q s)
    (timedOut : Bool) (w : WriteAnswers) (a : FinalizeAnswers)
    (hroom : s.http.thread = true → timedOut = false → s.http.writeHandler = .writer →
      s.Room (s.http.sentBehind w)) :
    Tracked q { s with http :=
      { runWriteHandler conf timedOut w a s.http with pc := .runPosted } } := by
  have hbody := runWriteHandler_keepsReader conf timedOut w a s.http
  have hquiet : (runWriteHandler conf timedOut w a s.http).view = s.http.view →
      Tracked q { s with http :=
        { runWriteHandler conf timedOut w a s.http with pc := .runPosted } } :=
    fun hview => h.behind hview ⟨hbody.discard, hbody.reader⟩ (Or.inl rfl)
  cases hhandler : s.http.writeHandler with
  | empty =>
      apply hquiet
      rw [runWriteHandler_empty conf timedOut w a hhandler]
  | terminate =>
      apply hquiet
      rw [runWriteHandler_terminate conf timedOut w a hhandler]
      exact closeRequest_view _
  | writer =>
      by_cases htimed : timedOut = true
      · apply hquiet
        rw [runWriteHandler_writer conf timedOut w a hhandler, if_pos htimed]
        exact finalizeRequest_view conf a .requestTimeOut s.http
      rw [runWriteHandler_writer conf timedOut w a hhandler, if_neg htimed] at hbody ⊢
      obtain ⟨hstream, hsent⟩ := outputFilter_stream conf.filter w [] h.metered
      rw [contents_nil, List.append_nil] at hstream
      apply h.wrote _ (t := { writer conf w a s.http with pc := .runPosted })
        (writer_onlySends conf w a s.http) (outputFilter_method _ _ _ _) hstream hsent
        ⟨hbody.discard, hbody.reader⟩ rfl
      intro hthread
      rcases outputFilter_sent conf.filter w s.http.resp with hsame | hmore
      · rw [hsame]
        exact h.room hthread
      · rw [hmore]
        exact hroom hthread (Bool.eq_false_iff.mpr htimed) hhandler

/-- A read event of a request without a body: nothing happens, or the client has
closed the connection. -/
theorem runReadHandler_cases (conf : HttpConf) (body : BodyRead) (closed : Bool)
    (a : FinalizeAnswers) {s : Http} (hbody : s.Bodyless) :
    runReadHandler conf body closed a s = { s with pc := .runPosted } ∨
    runReadHandler conf body closed a s =
      { finalizeRequest conf a .clientClosedRequest
          { s with readEof := true, resp := { s.resp with error := true } } with
        pc := .runPosted } := by
  unfold runReadHandler
  split
  next => exact Or.inl rfl
  next =>
    by_cases hclosed : closed = true
    · rw [if_pos hclosed]
      exact Or.inr rfl
    · rw [if_neg hclosed]
      exact Or.inl rfl
  next hread => exact absurd hread hbody.1
  next hread => exact absurd hread hbody.2.1

/-- **A finalization** keeps the invariant. -/
theorem Tracked.finalized {conf : HttpConf} {q : Incoming} {s : Watch} (h : Tracked q s)
    (hrun : s.http.exited = false) {a : FinalizeAnswers} {t : Http}
    (hok : WatchedStep conf s (.finalize a))
    (hstep : finalizeStep conf a s.http = some t) : Tracked q { s with http := t } := by
  have hview : ∀ rc, (call (finalizeRequest conf a rc) s.http).view = s.http.view := by
    intro rc
    unfold call
    split
    · rfl
    · split
      · rfl
      · exact finalizeRequest_view conf a rc s.http
  have hbody : ∀ rc, KeepsReader s.http (call (finalizeRequest conf a rc) s.http) :=
    fun rc => call_finalizeRequest_keepsReader conf a rc s.http
  -- a request without a body is finalized by `exit_request`, the handler and the content phase
  cases hpc : s.http.pc with
  | handler | forking | executing | special | runPosted | idle =>
      simp [finalizeStep, hpc] at hstep
  | exitFinalize =>
      obtain ⟨hkeeps, hroom⟩ := hok hpc
      have hfreed : s.http.freed = false := h.live (by rw [hpc]; rfl)
      have hcalled : (call (finalizeRequest conf a .ok) s.http).freed = false := by
        unfold call
        rw [hrun, hfreed, if_neg Bool.false_ne_true, if_neg Bool.false_ne_true]
        exact finalizeRequest_keeps conf hfreed hkeeps
      have hcounted := h.counted (by simp [Http.watching, hpc])
      simp only [finalizeStep, hpc, h.isPost, Bool.false_eq_true, if_false,
        Option.some.injEq] at hstep
      subst hstep
      have hkept : Tracked q { s with http :=
          { call (finalizeRequest conf a .ok) s.http with pc := .handlerFinalize } } := by
        refine h.frame (hview .ok) ⟨(hbody .ok).discard, (hbody .ok).reader⟩ rfl (fun hat => ?_)
          (fun _ => hcalled) fun hat => ?_
        · cases hat
        · cases hat
      -- the thread starts here
      refine ⟨hkept.isPost, hkept.bodyless, rfl, fun hat => ?_, hkept.live, hkept.notStale,
        hkept.metered, hkept.stream, fun _ => ?_, fun _ => ?_⟩
      · cases hat
      · exact (congrArg DrainView.baseLen (hview .ok)).trans hcounted
      · exact hroom.frame (congrArg DrainView.sent (hview .ok))
  | postFinalize =>
      simp only [finalizeStep, hpc, Option.some.injEq] at hstep
      subst hstep
      refine h.behind (t := { call (finalizeRequest conf a .ok) s.http with
        pc := s.http.afterPostBody }) (hview .ok) ⟨(hbody .ok).discard, (hbody .ok).reader⟩ ?_
      unfold Http.afterPostBody
      split
      · exact Or.inr (Or.inr rfl)
      · exact Or.inl rfl
  | handlerFinalize =>
      simp only [finalizeStep, hpc, Option.some.injEq] at hstep
      subst hstep
      exact h.behind (t := { call (finalizeRequest conf a .again) s.http with
        pc := .phaseFinalize .ok }) (hview .again) ⟨(hbody .again).discard, (hbody .again).reader⟩
        (Or.inr (Or.inr rfl))
  | phaseFinalize rc =>
      rcases finalizeStep_phase hpc hstep with ⟨status, hrc, _, _⟩ | ⟨_, rfl⟩
      · have := h.accepted
        rw [hpc, hrc] at this
        cases this
      · exact h.behind (t := { call (finalizeRequest conf a rc) s.http with
          pc := .runPosted, inPhase := false }) (hview rc) ⟨(hbody rc).discard, (hbody rc).reader⟩
          (Or.inl rfl)

/-- **Every step** of the process or its thread that meets the condition keeps
the invariant. -/
theorem Tracked.step (conf : HttpConf) {q : Incoming} {s : Watch} (h : Tracked q s)
    {event : HttpEvent} {t : Watch} (hok : WatchedStep conf s event)
    (hstep : watchStep conf q s event = some t) : Tracked q t := by
  simp only [watchStep, Option.map_eq_some_iff] at hstep
  obtain ⟨t', hstep, rfl⟩ := hstep
  obtain ⟨hrun, hstepped⟩ := httpStep_cases hstep
  cases hstepped with
  | @handler expect body hpc _ _ =>
      obtain ⟨hstart, hthread, hfreed⟩ := h.fresh (by rw [hpc]; rfl)
      unfold toxicHandler
      rw [if_neg (by rw [h.isPost]; decide)]
      refine h.frame (t := { s.http with pc := .forking }) rfl ⟨rfl, Or.inl rfl⟩ rfl
        (fun _ => ⟨hstart, hthread, hfreed⟩) (fun hat => ?_) fun hat => ?_
      · cases hat
      · cases hat
  | @fork child hpc =>
      obtain ⟨hstart, hthread, hfreed⟩ := h.fresh (by rw [hpc]; rfl)
      unfold forked
      rw [if_neg (by rw [h.isPost]; decide : ¬ s.http.isPost = true)]
      by_cases hchild : child = true
      · rw [if_pos hchild]
        refine h.frame (t := { s.http with pc := .executing }) rfl ⟨rfl, Or.inl rfl⟩ rfl
          (fun _ => ⟨hstart, hthread, hfreed⟩) (fun hat => ?_) fun hat => ?_
        · cases hat
        · cases hat
      · rw [if_neg hchild]
        refine h.frame (t := { s.http with handled := true, pc := .handlerFinalize }) rfl
          ⟨rfl, Or.inl rfl⟩ rfl (fun hat => ?_) (fun _ => hfreed) fun hat => ?_
        · cases hat
        · cases hat
  | @execute cleanup run hpc =>
      exact h.executed hpc cleanup hok
  | @finalize a _ hstep => exact h.finalized hrun hok hstep
  | @special p status hpc =>
      have := h.accepted
      rw [hpc] at this
      cases this
  | @runPosted w a hpc =>
      have hidle : Tracked q { s with http := { s.http with pc := .idle } } :=
        h.behind (t := { s.http with pc := .idle }) rfl ⟨rfl, Or.inl rfl⟩ (Or.inr (Or.inl rfl))
      unfold runPostedStep
      split
      · exact hidle
      split
      next hposted =>
        have hcleared : Tracked q { s with http := { s.http with posted := false } } :=
          h.behind (t := { s.http with posted := false }) rfl ⟨rfl, Or.inl rfl⟩ (Or.inl hpc)
        exact hcleared.ranWriteHandler conf false w a fun hthread _ => hok hthread hposted
      next => exact hidle
  | @writable timedOut w a hwaits _ =>
      have hmarked : Tracked q { s with http := s.http.markWritable } :=
        h.behind (t := s.http.markWritable) rfl ⟨rfl, Or.inl rfl⟩
          (Or.inr (Or.inl (waits_cases hwaits).1))
      exact hmarked.ranWriteHandler conf timedOut w a hok
  | @readable ready body closed a hwaits =>
      rcases runReadHandler_cases conf body closed a (s := { s.http with readReady := ready })
        h.bodyless with hquiet | hclosed
      · rw [hquiet]
        exact h.behind (t := { s.http with readReady := ready, pc := .runPosted }) rfl
          ⟨rfl, Or.inl rfl⟩ (Or.inl rfl)
      · rw [hclosed]
        have hbody := finalizeRequest_keepsReader conf a .clientClosedRequest { s.http with
          readReady := ready, readEof := true, resp := { s.http.resp with error := true } }
        exact h.behind (finalizeRequest_view conf a .clientClosedRequest _)
          ⟨hbody.discard, hbody.reader⟩ (Or.inl rfl)
  | @lingering ends hwaits =>
      have hpc : s.http.pc = .idle := (waits_cases hwaits).1
      by_cases hends : ends = true
      · rw [if_pos hends]
        exact h.behind (closeRequest_view s.http) (closeRequest_keepsReader s.http)
          (Or.inr (Or.inl ((closeRequest_pc s.http).trans hpc)))
      · rw [if_neg hends]
        exact h
  | @poll ends hthread =>
      have hframed : s.http.framed = true := hok
      have hpc : s.http.pc = .handlerFinalize := by simpa [Http.framed] using hframed
      have hfreed : s.http.freed = false := h.live (by rw [hpc]; rfl)
      unfold pollStep
      rw [if_pos (by rw [hframed, hfreed]; rfl)]
      split
      · exact h.frame (t := { s.http with exited := true }) rfl ⟨rfl, Or.inl rfl⟩ h.accepted
          h.fresh h.live id
      · exact h

/-- The handler is called on a request that satisfies the invariant. -/
theorem Tracked.start {q : Incoming} (hpost : q.method ≠ .post) (hput : q.method ≠ .put)
    (lingeringClose unread readReady readEof : Bool) (baseLen : Int) :
    Tracked q (Watch.start q lingeringClose unread readReady readEof baseLen) := by
  refine ⟨?_, ⟨by simp [Watch.start, Http.start], by simp [Watch.start, Http.start], rfl⟩, rfl,
    fun _ => ⟨rfl, rfl, rfl⟩, fun hat => ?_, rfl, rfl,
    List.Sublist.refl _, fun hw => ?_, fun hw => ?_⟩
  · simp [Http.isPost, Watch.start, Http.start, Response.start, hpost, hput]
  · cases hat
  · cases hw
  · cases hw

/-- **The thread ends the process in time.**  In every run of the child of a
request other than POST and PUT, under every schedule of partial writes and
tests, whose steps meet `WatchedStep`: the test is true only in states where
every byte of the response is with the socket, and the thread never reads a
freed request or runs in a frame that is gone. -/
theorem watched_of_guarded (conf : HttpConf) {q : Incoming} (hpost : q.method ≠ .post)
    (hput : q.method ≠ .put) (lingeringClose unread readReady readEof : Bool) (baseLen : Int)
    {events : List HttpEvent} {t : Watch}
    (hrun : GuardedRun (watchStep conf q) (WatchedStep conf)
      (Watch.start q lingeringClose unread readReady readEof baseLen) events t) :
    Watched t := by
  apply Tracked.watched (q := q)
  apply hrun.invariant _ (Tracked.start hpost hput lingeringClose unread readReady readEof baseLen)
  exact fun s event t h hok hstep => h.step conf hok hstep

/-- A GET request whose script prints `n` bytes, in the child: the socket takes
30 bytes in `exit_request`, and the thread looks before the handler finalizes the
request. -/
def sampleWatchRun (n : Nat) : List HttpEvent :=
  [.handler .unasked .more, .fork true,
    .execute true (some ⟨⟨none, none, [], [List.replicate n 65]⟩,
      ⟨⟨true, none, ⟨0, false⟩⟩, none, ⟨30, false⟩⟩⟩),
    .finalize sampleFinalize, .poll false]

/-- `watched_of_guarded` for a script that prints more than the header block
has; the write events behind the handler take the rest. -/
theorem watched_of_guarded_sample :
    ∃ t, GuardedRun (watchStep sampleHttpConf ⟨.get, 1001, 0, true, false, true⟩)
        (WatchedStep sampleHttpConf)
        (Watch.start ⟨.get, 1001, 0, true, false, true⟩ false false false false 0)
        (sampleWatchRun 300 ++ [.finalize sampleFinalize, .finalize sampleFinalize,
          .runPosted ⟨none, ⟨0, false⟩⟩ sampleFinalize,
          .writable false ⟨none, ⟨200, false⟩⟩ sampleFinalize,
          .runPosted ⟨none, ⟨0, false⟩⟩ sampleFinalize,
          .writable false ⟨none, ⟨4096, false⟩⟩ sampleFinalize]) t ∧
      t.http.freed = true ∧ t.http.resp.wire = t.response ∧ Watched t := by
  have hfreed : (check (watchStep sampleHttpConf ⟨.get, 1001, 0, true, false, true⟩)
      (WatchedStep sampleHttpConf)
      (Watch.start ⟨.get, 1001, 0, true, false, true⟩ false false false false 0)
      (sampleWatchRun 300 ++ [.finalize sampleFinalize, .finalize sampleFinalize,
        .runPosted ⟨none, ⟨0, false⟩⟩ sampleFinalize,
        .writable false ⟨none, ⟨200, false⟩⟩ sampleFinalize,
        .runPosted ⟨none, ⟨0, false⟩⟩ sampleFinalize,
        .writable false ⟨none, ⟨4096, false⟩⟩ sampleFinalize])).map
        (fun t => (t.http.freed, t.http.thread, decide (t.http.baseLen ≤ t.http.resp.sent)))
      = some (true, true, true) := by decide +kernel
  obtain ⟨t, hcheck, ht⟩ := Option.map_eq_some_iff.mp hfreed
  simp only [Prod.mk.injEq, decide_eq_true_eq] at ht
  obtain ⟨hgone, hthread, hreached⟩ := ht
  have hrun := guardedRun_iff_check.mpr hcheck
  have hwatched := watched_of_guarded sampleHttpConf (by decide) (by decide) false false false
    false 0 hrun
  exact ⟨t, hrun, hgone, hwatched.drained hthread hreached, hwatched⟩

/-- A script that prints one byte: `base_len` is 1, the socket has taken 30 bytes of
the header block, and the test is true with the rest of the response unsent. -/
theorem header_part_not_watched :
    ∃ t, Run (watchStep sampleHttpConf ⟨.get, 1001, 0, true, false, true⟩)
        (Watch.start ⟨.get, 1001, 0, true, false, true⟩ false false false false 0)
        (sampleWatchRun 1) t ∧
      t.http.exited = true ∧ t.http.resp.sent = 30 ∧ ¬ Watched t := by
  have hexited : (execute (watchStep sampleHttpConf ⟨.get, 1001, 0, true, false, true⟩)
      (Watch.start ⟨.get, 1001, 0, true, false, true⟩ false false false false 0)
      (sampleWatchRun 1)).map
        (fun t => (t.http.exited, t.http.thread, t.http.resp.sent, t.http.baseLen,
          decide (t.http.resp.wire = t.response)))
      = some (true, true, 30, 1, false) := by decide +kernel
  obtain ⟨t, hexec, ht⟩ := Option.map_eq_some_iff.mp hexited
  simp only [Prod.mk.injEq, decide_eq_false_iff_not] at ht
  obtain ⟨hexit, hthread, hsent, hbase, hunsent⟩ := ht
  refine ⟨t, run_iff_execute.mpr hexec, hexit, hsent, ?_⟩
  intro hwatched
  apply hunsent
  apply hwatched.drained hthread
  rw [hsent, hbase]
  decide

end Toxic
