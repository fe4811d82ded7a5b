import ToxicNginx.OwedResponse

/-!
# Which requests are followed by another one

`ngx_http_set_keepalive` is the only way from a request to the next one on its
connection.  This file says when it is taken: never by a request whose keepalive
is off, never by one whose body is refused or fails, and by one that lingers only
to close.

* `MovesReader`, `httpStep_movesReader` — what a step may do to the handler of the
  connection's read events;
* `Closing` — the connection is closed behind the request; `Closing.step`;
* `Http.bodyRead`, `Http.drops` — the steps that take bytes off the connection;
* `Awaiting`, `Lost`, `Served` — a request before `fork()`, one whose body was
  refused, and one that the script is run for; `ReadStepped` — what a step before
  `fork()` is; the step lemmas.
-/

namespace Toxic

open StepSystem

/-- The request is kept alive behind its response. -/
def Http.kept (conf : HttpConf) (s : Http) : Bool := conf.keepalive && s.resp.keepalive

/-- What happens to the handler of the connection's read events. -/
structure MovesReader (conf : HttpConf) (s t : Http) : Prop where
  keepalive : t.kept conf = true → s.kept conf = true
  keeps : t.reader = .keepalive → s.reader = .keepalive ∨ s.kept conf = true
  lingers : t.reader = .lingering → s.reader = .lingering ∨ t.kept conf = false
  request : t.reader = .request → s.reader = .request

variable {conf : HttpConf}

theorem MovesReader.trans {s m t : Http} (h : MovesReader conf s m) (h' : MovesReader conf m t) :
    MovesReader conf s t := by
  refine ⟨fun hk => h.keepalive (h'.keepalive hk), fun hr => ?_, fun hr => ?_,
    fun hr => h.request (h'.request hr)⟩
  · rcases h'.keeps hr with hm | hm
    · exact h.keeps hm
    · exact Or.inr (h.keepalive hm)
  · rcases h'.lingers hr with hm | ht
    · rcases h.lingers hm with hs | hm'
      · exact Or.inl hs
      · refine Or.inr (Bool.eq_false_iff.mpr fun hk => ?_)
        rw [h'.keepalive hk] at hm'
        cases hm'
    · exact Or.inr ht

/-- A step that leaves the handler and the keepalive. -/
theorem MovesReader.frame {s t : Http} (hreader : t.reader = s.reader)
    (hkeep : t.resp.keepalive = s.resp.keepalive) : MovesReader conf s t := by
  have hkept : t.kept conf = s.kept conf := by
    rw [Http.kept, hkeep]
    rfl
  exact ⟨fun h => hkept ▸ h, fun h => Or.inl (hreader ▸ h), fun h => Or.inl (hreader ▸ h),
    fun h => hreader ▸ h⟩

/-- A step that closes the connection. -/
theorem MovesReader.closes {s t : Http} (hreader : t.reader = .closed)
    (hkeep : t.resp.keepalive = s.resp.keepalive) : MovesReader conf s t := by
  refine ⟨fun h => ?_, fun h => ?_, fun h => ?_, fun h => ?_⟩
  · rw [Http.kept, hkeep] at h
    exact h
  all_goals
    rw [hreader] at h
    cases h

theorem closeRequest_movesReader (s : Http) : MovesReader conf s (closeRequest s) := by
  unfold closeRequest
  split
  · exact .frame rfl rfl
  split
  · exact .closes rfl rfl
  · exact .frame rfl rfl

theorem setLingeringClose_movesReader (a : FinalizeAnswers) {s : Http}
    (hkept : s.kept conf = false) : MovesReader conf s (setLingeringClose a s) := by
  have hlingers : ∀ ready, MovesReader conf s { s with reader := .lingering, readReady := ready } :=
    fun ready => ⟨id, fun h => (nomatch h), fun _ => Or.inr hkept, fun h => (nomatch h)⟩
  unfold setLingeringClose
  dsimp only
  split
  · exact (hlingers s.readReady).trans (closeRequest_movesReader _)
  split
  · exact (hlingers s.readReady).trans (closeRequest_movesReader _)
  split
  · split
    · exact hlingers false
    · exact (hlingers s.readReady).trans (closeRequest_movesReader _)
  · exact hlingers s.readReady

theorem finalizeConnection_movesReader (a : FinalizeAnswers) (s : Http) :
    MovesReader conf s (finalizeConnection conf a s) := by
  unfold finalizeConnection
  split
  · refine MovesReader.trans (m := if s.discardBody then { s with readHandler := .discardBody }
      else s) ?_ (closeRequest_movesReader _)
    split <;> exact .frame rfl rfl
  split
  next hkept =>
    unfold setKeepalive
    split
    · exact .frame rfl rfl
    · refine ⟨fun h => ?_, fun _ => Or.inr hkept, fun h => (nomatch h), fun h => (nomatch h)⟩
      simp [Http.kept, freeRequest] at h
  next hkept =>
    split
    · exact setLingeringClose_movesReader a (Bool.eq_false_iff.mpr hkept)
    · exact closeRequest_movesReader s

theorem call_movesReader {f : Http → Http} {s : Http} (hf : MovesReader conf s (f s)) :
    MovesReader conf s (call f s) := by
  unfold call
  split
  · exact .frame rfl rfl
  split
  · exact .frame rfl rfl
  · exact hf

theorem finalizeRequest_movesReader (a : FinalizeAnswers) (rc : Rc) (s : Http) :
    MovesReader conf s (finalizeRequest conf a rc s) := by
  unfold finalizeRequest setWriteHandler
  split
  · exact .frame rfl rfl
  split
  · by_cases hevent : a.writeEvent = true
    · simp only [hevent, if_true]
      exact .frame rfl rfl
    · simp only [hevent, if_false, Bool.false_eq_true]
      refine MovesReader.trans (m := { s with
        readHandler := s.writingReader, writeHandler := .writer, writeTimer := true })
        (.frame rfl rfl) ?_
      exact (closeRequest_movesReader _).trans (call_movesReader (.frame rfl rfl))
  · refine MovesReader.trans (m := { s with writeHandler := .empty, writeTimer := false })
      (.frame rfl rfl) ?_
    dsimp only
    split
    · exact closeRequest_movesReader _
    · exact finalizeConnection_movesReader a _

theorem writer_movesReader (w : WriteAnswers) (a : FinalizeAnswers) (s : Http) :
    MovesReader conf s (writer conf w a s) := by
  have hkeep : (outputFilter conf.filter w [] s.resp).2.keepalive = s.resp.keepalive :=
    outputFilter_keepalive ..
  unfold writer
  generalize outputFilter conf.filter w [] s.resp = sent at hkeep
  obtain ⟨rc, resp⟩ := sent
  dsimp only at hkeep ⊢
  have hsent : MovesReader conf s { s with resp := resp } := .frame rfl hkeep
  split
  · exact hsent.trans (finalizeRequest_movesReader a rc _)
  split
  · have htimer : MovesReader conf s { s with resp := resp, writeTimer := true } :=
      .frame rfl hkeep
    split
    · exact htimer
    · exact htimer.trans (closeRequest_movesReader _)
  · refine MovesReader.trans (m := { s with resp := resp, writeHandler := .empty })
      (.frame rfl hkeep) (finalizeRequest_movesReader a rc _)

theorem runWriteHandler_movesReader (timedOut : Bool) (w : WriteAnswers) (a : FinalizeAnswers)
    (s : Http) : MovesReader conf s (runWriteHandler conf timedOut w a s) := by
  unfold runWriteHandler
  split
  · exact .frame rfl rfl
  · exact MovesReader.trans (m := { s with count := 1 }) (.frame rfl rfl)
      (closeRequest_movesReader _)
  · split
    · exact finalizeRequest_movesReader a .requestTimeOut s
    · exact writer_movesReader w a s

/-- Where the process is with the request decides nothing. -/
theorem MovesReader.place {s t : Http} (h : MovesReader conf s t) (pc : Pc) :
    MovesReader conf s { t with pc := pc } :=
  ⟨h.keepalive, h.keeps, h.lingers, h.request⟩

theorem runReadHandler_movesReader (body : BodyRead) (closed : Bool) (a : FinalizeAnswers)
    (s : Http) : MovesReader conf s (runReadHandler conf body closed a s) := by
  have hfinal : ∀ (rc : Rc) (m : Http), MovesReader conf s m →
      MovesReader conf s { finalizeRequest conf a rc m with pc := .runPosted } :=
    fun rc m hm => (hm.trans (finalizeRequest_movesReader a rc m)).place _
  have hdone : ∀ m : Http, MovesReader conf s m →
      MovesReader conf s { finalizeConnection conf a m with pc := .runPosted } :=
    fun m hm => (hm.trans (finalizeConnection_movesReader a m)).place _
  unfold runReadHandler
  split
  · exact .frame rfl rfl
  · split
    · exact hfinal _ _ (.frame rfl rfl)
    · exact .frame rfl rfl
  · cases body with
    | whole | more => exact .frame rfl rfl
    | closed failed => exact hfinal _ _ (.frame rfl rfl)
    | timedOut => exact hfinal _ _ (.frame rfl rfl)
    | refused status stage => exact .frame rfl rfl
  · cases body with
    | whole unread => exact hdone _ (.frame rfl rfl)
    | more => exact .frame rfl rfl
    | closed failed => exact hdone _ (.frame rfl rfl)
    | timedOut => exact hfinal _ _ (.frame rfl rfl)
    | refused status stage => exact hfinal _ _ (.frame rfl rfl)

theorem toxicHandler_movesReader (expect : Expect) (body : BodyRead) (s : Http) :
    MovesReader conf s (toxicHandler expect body s) := by
  have hkeep : (testExpect expect s.resp).keepalive = s.resp.keepalive := by cases expect <;> rfl
  unfold toxicHandler
  split
  · cases body with
    | refused status stage => cases stage <;> exact .frame rfl hkeep
    | whole | more | closed | timedOut => exact .frame rfl hkeep
  · exact .frame rfl rfl

theorem executed_movesReader (cleanup : Bool) (run : Option ScriptRun) (s : Http) :
    MovesReader conf s (executed conf cleanup run s) := by
  unfold executed
  split
  · exact .frame rfl rfl
  · cases run with
    | none => exact .frame rfl rfl
    | some run =>
        refine .frame rfl ?_
        have hcall : (callStart run.script s.resp).keepalive = s.resp.keepalive := by
          unfold callStart
          split <;> rfl
        unfold exitRequestSend
        dsimp only
        split
        · simp [hcall]
        · simp [hcall]

/-- A round of the thread leaves the connection alone. -/
theorem pollStep_movesReader (ends : Bool) (s : Http) : MovesReader conf s (pollStep ends s) := by
  unfold pollStep
  split
  · split <;> exact .frame rfl rfl
  · exact .frame rfl rfl

/-- The special response turns the keepalive off. -/
theorem specialResponse_closes (filter : FilterConf) (p : PageAnswers) (status : SpecialStatus)
    (s : Http) : (specialResponse filter p status s).2.reader = s.reader ∧
      (specialResponse filter p status s).2.resp.keepalive = false := by
  unfold specialResponse
  dsimp only
  have hframe := discardRequestBody_frame p { s with
    lingeringClose := s.lingeringClose && status != .badRequest
    resp := { s.resp with errStatus := status.code, keepalive := false } }
  refine ⟨hframe.reader, ?_⟩
  rw [(sendSpecialResponse_kept filter p status _).2.1, hframe.response]

/-- **Every step**, but the entry of a special response, moves the handler of the read
events as a finalization does. -/
theorem httpStep_movesReader {s t : Http} {event : HttpEvent} (hpc : s.pc.refuses = false)
    (hstep : httpStep conf s event = some t) : MovesReader conf s t := by
  obtain ⟨_, hstepped⟩ := httpStep_cases hstep
  cases hstepped with
  | @handler expect body _ _ _ => exact toxicHandler_movesReader expect body s
  | @fork child _ =>
      unfold forked
      split
      · exact .frame rfl rfl
      · split <;> exact .frame rfl rfl
  | @execute cleanup run _ => exact executed_movesReader cleanup run s
  | @finalize a _ hstep =>
      rcases finalizeStep_cases hstep with ⟨rc, pc, inPhase, thread, _, rfl, _⟩ |
        ⟨status, hat, _, _⟩
      · have hmoves : MovesReader conf s (call (finalizeRequest conf a rc) s) :=
          call_movesReader (finalizeRequest_movesReader a rc s)
        exact ⟨hmoves.keepalive, hmoves.keeps, hmoves.lingers, hmoves.request⟩
      · rw [hat] at hpc
        cases hpc
  | @special p status hat =>
      rw [hat] at hpc
      cases hpc
  | @runPosted w a _ =>
      unfold runPostedStep
      split
      · exact .frame rfl rfl
      split
      · have hran : MovesReader conf _ _ :=
          runWriteHandler_movesReader false w a { s with posted := false }
        exact ⟨hran.keepalive, hran.keeps, hran.lingers, hran.request⟩
      · exact .frame rfl rfl
  | @writable timedOut w a _ _ =>
      have hran : MovesReader conf _ _ :=
        runWriteHandler_movesReader timedOut w a s.markWritable
      exact ⟨hran.keepalive, hran.keeps, hran.lingers, hran.request⟩
  | @readable ready body closed a _ =>
      exact MovesReader.trans (m := { s with readReady := ready }) (.frame rfl rfl)
        (runReadHandler_movesReader body closed a _)
  | @lingering ends _ =>
      split
      · exact closeRequest_movesReader s
      · exact .frame rfl rfl
  | @poll ends _ => exact pollStep_movesReader ends s

/-- The steps of a request whose body was refused: the special response is entered and
runs, a connection with an error is finalized at once, or the thread runs. -/
theorem httpStep_refused {s t : Http} {event : HttpEvent} (hpc : s.pc.refuses = true)
    (hstep : httpStep conf s event = some t) :
    (∃ status, t = { call (fun s => { s with writeTimer := false, reader := .request }) s with
      pc := .special status }) ∨
    (∃ a rc, s.resp.error = true ∧
      t = { call (finalizeRequest conf a rc) s with pc := .runPosted, inPhase := false }) ∨
    (∃ p status, t = { (specialResponse conf.filter p status s).2 with
      pc := .phaseFinalize (specialResponse conf.filter p status s).1 }) ∨
    ∃ ends, t = pollStep ends s := by
  obtain ⟨_, hstepped⟩ := httpStep_cases hstep
  cases hstepped with
  | @handler expect body hat _ _ => rw [hat] at hpc; cases hpc
  | @fork child hat => rw [hat] at hpc; cases hpc
  | @execute cleanup run hat => rw [hat] at hpc; cases hpc
  | @finalize a _ hstep =>
      cases hat : s.pc with
      | phaseFinalize rc =>
          rcases finalizeStep_phase hat hstep with ⟨status, _, _, rfl⟩ | ⟨hspecial, rfl⟩
          · exact Or.inl ⟨status, rfl⟩
          · refine Or.inr (Or.inl ⟨a, rc, ?_, rfl⟩)
            rw [hat] at hpc
            cases rc with
            | special status => exact hspecial status rfl
            | ok | error | again | requestTimeOut | clientClosedRequest => cases hpc
      | special status => simp [finalizeStep, hat] at hstep
      | handler | forking | executing | exitFinalize | postFinalize | handlerFinalize | runPosted
      | idle =>
          rw [hat] at hpc
          cases hpc
  | @special p status _ => exact Or.inr (Or.inr (Or.inl ⟨p, status, rfl⟩))
  | @runPosted w a hat => rw [hat] at hpc; cases hpc
  | @writable timedOut w a hwaits _ => rw [(waits_cases hwaits).1] at hpc; cases hpc
  | @readable ready body closed a hwaits => rw [(waits_cases hwaits).1] at hpc; cases hpc
  | @lingering ends hwaits => rw [(waits_cases hwaits).1] at hpc; cases hpc
  | @poll ends _ => exact Or.inr (Or.inr (Or.inr ⟨ends, rfl⟩))

/-- Nothing follows the request on its connection. -/
structure Closing (conf : HttpConf) (s : Http) : Prop where
  off : s.kept conf = false
  reader : s.reader ≠ .keepalive

theorem Closing.moves {s t : Http} (h : Closing conf s) (hmoves : MovesReader conf s t) :
    Closing conf t := by
  have hoff := h.off
  refine ⟨Bool.eq_false_iff.mpr fun hk => ?_, fun hr => ?_⟩
  · rw [hmoves.keepalive hk] at hoff
    cases hoff
  · rcases hmoves.keeps hr with hs | hs
    · exact h.reader hs
    · rw [hoff] at hs
      cases hs

/-- **A request that is not kept alive** never is. -/
theorem Closing.step {s t : Http} {event : HttpEvent} (h : Closing conf s)
    (hstep : httpStep conf s event = some t) : Closing conf t := by
  by_cases hrefuses : s.pc.refuses = true
  · rcases httpStep_refused hrefuses hstep with ⟨status, rfl⟩ | ⟨a, rc, _, rfl⟩ |
      ⟨p, status, rfl⟩ | ⟨ends, rfl⟩
    · unfold call
      split
      · exact ⟨h.off, h.reader⟩
      split
      · exact ⟨h.off, h.reader⟩
      · exact ⟨h.off, nofun⟩
    · have hfinal := h.moves (call_movesReader (finalizeRequest_movesReader a rc s))
      exact ⟨hfinal.off, hfinal.reader⟩
    · obtain ⟨hreader, hkeep⟩ := specialResponse_closes conf.filter p status s
      refine ⟨?_, fun hr => h.reader (hreader.symm.trans hr)⟩
      unfold Http.kept
      rw [hkeep, Bool.and_false]
    · exact h.moves (pollStep_movesReader ends s)
  · exact h.moves (httpStep_movesReader (Bool.eq_false_iff.mpr hrefuses) hstep)

/-- The request is over but for the terminate handler. -/
def Http.doomed (s : Http) : Prop :=
  (s.pc = .runPosted ∧ s.terminating) ∨
    (s.freed = true ∧ (s.pc = .runPosted ∨ s.pc = .idle))

/-- What is left of such a request is the closing of its connection. -/
theorem doomed_step {s t : Http} {event : HttpEvent} (h : s.doomed)
    (hstep : httpStep conf s event = some t) :
    t.doomed ∧ (t.reader = s.reader ∨ t.reader = .closed) := by
  have hplace : s.pc = .runPosted ∨ s.pc = .idle := by
    rcases h with ⟨hat, _⟩ | ⟨_, hat⟩
    · exact Or.inl hat
    · exact hat
  have hnot : ∀ pc : Pc, pc ≠ .runPosted → pc ≠ .idle → s.pc ≠ pc := by
    intro pc hposted hidle hat
    rcases hplace with hat' | hat'
    · exact hposted (hat.symm.trans hat')
    · exact hidle (hat.symm.trans hat')
  have hover : ∀ reader : ConnHandler, s.waits reader ≠ true := by
    intro reader hwaits
    obtain ⟨hat, hfreed, _⟩ := waits_cases hwaits
    rcases h with ⟨hat', _⟩ | ⟨hfreed', _⟩
    · rw [hat] at hat'
      cases hat'
    · rw [hfreed] at hfreed'
      cases hfreed'
  obtain ⟨_, hstepped⟩ := httpStep_cases hstep
  cases hstepped with
  | @handler expect body hat _ _ => exact absurd hat (hnot _ (by simp) (by simp))
  | @fork child hat => exact absurd hat (hnot _ (by simp) (by simp))
  | @execute cleanup run hat => exact absurd hat (hnot _ (by simp) (by simp))
  | @finalize a _ hstep =>
      rcases hplace with hat | hat <;> simp [finalizeStep, hat] at hstep
  | @special p status hat => exact absurd hat (hnot _ (by simp) (by simp))
  | @runPosted w a hat =>
      unfold runPostedStep
      by_cases hfreed : s.freed = true
      · rw [if_pos hfreed]
        exact ⟨Or.inr ⟨hfreed, Or.inr rfl⟩, Or.inl rfl⟩
      · rcases h with ⟨_, hposted, hterm⟩ | ⟨hfreed', _⟩
        · rw [if_neg hfreed, if_pos hposted,
            runWriteHandler_terminate conf false w a (s := { s with posted := false }) hterm]
          exact ⟨Or.inr ⟨rfl, Or.inl rfl⟩, Or.inr rfl⟩
        · exact absurd hfreed' hfreed
  | @writable timedOut w a hwaits _ => exact absurd hwaits (hover _)
  | @readable ready body closed a hwaits => exact absurd hwaits (hover _)
  | @lingering ends hwaits => exact absurd hwaits (hover _)
  | @poll ends _ =>
      unfold pollStep
      split
      · split <;> exact ⟨h, Or.inl rfl⟩
      · exact ⟨h, Or.inl rfl⟩

/-- `fork()` is not called for the request, and its connection is closed behind it. -/
structure Lost (conf : HttpConf) (s : Http) : Prop where
  spent : Spent s
  reader : s.reader ≠ .keepalive
  why : s.pc.refuses = true ∨ s.doomed ∨ s.kept conf = false

/-- The finalization of a refused request whose connection has an error. -/
theorem finalizeRequest_doomed (a : FinalizeAnswers) (rc : Rc) {s : Http} (inPhase : Bool)
    (hrun : s.exited = false) (herr : s.resp.error = true) :
    ({ call (finalizeRequest conf a rc) s with pc := .runPosted, inPhase := inPhase } :
      Http).doomed ∧ (call (finalizeRequest conf a rc) s).reader = s.reader := by
  unfold call
  rw [if_neg (by rw [hrun]; exact Bool.false_ne_true)]
  by_cases hfreed : s.freed = true
  · rw [if_pos hfreed]
    exact ⟨Or.inr ⟨hfreed, Or.inl rfl⟩, rfl⟩
  · rw [if_neg hfreed, finalizeRequest_terminates conf a (Or.inr (Or.inr (Or.inr herr)))]
    exact ⟨Or.inl ⟨rfl, rfl, rfl⟩, rfl⟩

/-- **A request that is lost** stays so. -/
theorem Lost.step {s t : Http} {event : HttpEvent} (h : Lost conf s)
    (hstep : httpStep conf s event = some t) : Lost conf t := by
  have hspent := h.spent.step hstep
  rcases h.why with hrefuses | hdoomed | hoff
  · rcases httpStep_refused hrefuses hstep with ⟨status, rfl⟩ | ⟨a, rc, herr, rfl⟩ |
      ⟨p, status, rfl⟩ | ⟨ends, rfl⟩
    · refine ⟨hspent, ?_, Or.inl rfl⟩
      unfold call
      split
      · exact h.reader
      split
      · exact h.reader
      · exact nofun
    · obtain ⟨hdoomed, hreader⟩ :=
        finalizeRequest_doomed a rc false (httpStep_cases hstep).1 herr
      exact ⟨hspent, fun hr => h.reader (hreader.symm.trans hr), Or.inr (Or.inl hdoomed)⟩
    · obtain ⟨hreader, hkeep⟩ := specialResponse_closes conf.filter p status s
      refine ⟨hspent, fun hr => h.reader (hreader.symm.trans hr), Or.inr (Or.inr ?_)⟩
      unfold Http.kept
      rw [hkeep, Bool.and_false]
    · have hsame : (pollStep ends s).reader = s.reader ∧ (pollStep ends s).pc = s.pc := by
        unfold pollStep
        split
        · split <;> exact ⟨rfl, rfl⟩
        · exact ⟨rfl, rfl⟩
      exact ⟨hspent, fun hr => h.reader (hsame.1.symm.trans hr),
        Or.inl ((congrArg Pc.refuses hsame.2).trans hrefuses)⟩
  · obtain ⟨hstill, hreader⟩ := doomed_step hdoomed hstep
    refine ⟨hspent, ?_, Or.inr (Or.inl hstill)⟩
    rcases hreader with hreader | hreader
    · exact fun hr => h.reader (hreader.symm.trans hr)
    · rw [hreader]
      exact nofun
  · have hclosing := Closing.step ⟨hoff, h.reader⟩ hstep
    exact ⟨hspent, hclosing.reader, Or.inr (Or.inr hclosing.off)⟩

/-- What the body reader of the request comes to in a step, if it runs. -/
def Http.bodyRead (s : Http) : HttpEvent → Option BodyRead
  | .handler _ body => if s.isPost then some body else none
  | .readable _ body _ _ => if s.readHandler = .readBody then some body else none
  | _ => none

/-- The steps that read bytes and drop them: `ngx_http_discard_request_body`,
`ngx_http_discarded_request_body_handler` and `ngx_http_lingering_close_handler`. -/
def Http.drops (s : Http) (event : HttpEvent) (t : Http) : Bool :=
  match event with
  | .special _ => true
  | .readable _ _ _ _ => s.readHandler == .discardBody || t.reader == .lingering
  | _ => t.reader == .lingering

/-- The handler is about to be called, or the body is waited for. -/
def Awaiting (s : Http) : Prop :=
  (s.pc = .handler ∧ Tidy s) ∨ (s.readHandler = .readBody ∧ BodyPending s)

theorem Awaiting.start (q : Incoming) (lingeringClose unread readReady readEof : Bool)
    (baseLen : Int) : Awaiting (Http.start q lingeringClose unread readReady readEof baseLen) :=
  Or.inl ⟨rfl, Tidy.start q lingeringClose unread readReady readEof baseLen⟩

/-- The script is run for the request, or its answer is left to the child. -/
def Served (s : Http) : Prop :=
  Tidy s ∧ (s.pc = .forking ∨ s.pc = .executing ∨ Answered s)

theorem Awaiting.reader {s : Http} (h : Awaiting s) :
    s.reader = .request ∨ s.reader = .closed := by
  rcases h with ⟨hpc, htidy⟩ | ⟨_, hbody⟩
  · exact Or.inl (htidy.called hpc).2.2.2.1
  · exact hbody.waits.reader

/-- A step before `fork()`: the body is waited for, the request is lost, or it is
forked for, with its body read or left where it is. -/
inductive ReadStepped (conf : HttpConf) (s : Http) (event : HttpEvent) (t : Http) : Prop
  | waits (hpost : s.pc = .handler → s.isPost = true) (hkeeps : s.drops event t = false)
      (hreads : t.readHandler = .readBody) (hbody : BodyPending t)
  | lost (hlost : Lost conf t)
  | unread (hpc : s.pc = .handler) (hget : s.isPost = false) (hbody : s.bodyRead event = none)
      (hkeeps : s.drops event t = false) (hopen : t.reader ≠ .lingering) (hforks : t.pc = .forking)
      (hserved : Served t)
  | whole (hpost : s.pc = .handler → s.isPost = true)
      (hbody : ∃ unread, s.bodyRead event = some (.whole unread)) (hopen : t.reader ≠ .lingering)
      (hforks : t.pc = .forking) (hserved : Served t)

/-- The handler forks at once, waits for the body, or refuses it. -/
theorem Awaiting.handled {s : Http} (h : Tidy s) (hpc : s.pc = .handler) (expect : Expect)
    (body : BodyRead) (h' : Tidy (toxicHandler expect body s)) :
    ReadStepped conf s (.handler expect body) (toxicHandler expect body s) := by
  have hreads := (h.early (by rw [hpc]; rfl)).bodyless.1
  have hreader := (h.called hpc).2.2.2.1
  have hopen : ∀ t : Http, t.reader = s.reader → t.reader ≠ .lingering := by
    intro t hsame
    rw [hsame, hreader]
    exact nofun
  have hkeeps : ∀ t : Http, t.reader = s.reader → s.drops (.handler expect body) t = false := by
    intro t hsame
    change (t.reader == .lingering) = false
    rw [hsame, hreader]
    rfl
  have hrefused : ∀ t : Http, t.reader = s.reader → Spent t →
      (t.pc.refuses = true ∨ t.doomed ∨ t.kept conf = false) →
      ReadStepped conf s (.handler expect body) t := by
    intro t hsame hspent hwhy
    refine .lost ⟨hspent, ?_, hwhy⟩
    rw [hsame, hreader]
    exact nofun
  -- what the handler leaves to the read event is waited for or refused
  have hwaits : ∀ t : Http, s.isPost = true → Tidy t → t.readHandler = .readBody →
      t.reader = s.reader → (t.pc.refuses = true ∨ t.pc = .phaseFinalize .ok) →
      ReadStepped conf s (.handler expect body) t := by
    intro t hpost ht hread hsame hat
    rcases ht.body hread with hbody | hdeclined
    · exact .waits (fun _ => hpost) (hkeeps t hsame) hread hbody
    · refine hrefused t hsame ⟨hdeclined.late, fun _ => hdeclined⟩ ?_
      rcases hat with hat | hat
      · exact Or.inl hat
      · rcases hdeclined.place with ⟨hother, _⟩ | ⟨rc, _, _, _, hkeep⟩ | ⟨hother, _⟩ | ⟨hother, _⟩
        · rw [hat] at hother
          cases hother
        · refine Or.inr (Or.inr ?_)
          rw [Http.kept, hkeep, Bool.and_false]
        · rw [hat] at hother
          cases hother
        · rw [hat] at hother
          cases hother
  have hearly : ∀ t : Http, t.readHandler = s.readHandler → t.pc.unanswered = false → Spent t :=
    fun t hread hlate => ⟨hlate, fun hr => absurd (hread.symm.trans hr) hreads⟩
  unfold toxicHandler at h' ⊢
  split
  next hpost =>
    rw [if_pos hpost] at h'
    cases body with
    | whole unread =>
        refine .whole (fun _ => hpost) ⟨unread, ?_⟩ (hopen _ rfl) rfl ⟨h', Or.inl rfl⟩
        rw [Http.bodyRead, if_pos hpost]
    | more | timedOut => exact hwaits _ hpost h' rfl rfl (Or.inr rfl)
    | closed failed => exact hwaits _ hpost h' rfl rfl (Or.inl rfl)
    | refused status stage =>
        cases stage with
        | unset | preread => exact hrefused _ rfl (hearly _ rfl rfl) (Or.inl rfl)
        | reading => exact hwaits _ hpost h' rfl rfl (Or.inl rfl)
  next hpost =>
    rw [if_neg hpost] at h'
    refine .unread hpc (Bool.eq_false_iff.mpr hpost) ?_ (hkeeps _ rfl) (hopen _ rfl) rfl
      ⟨h', Or.inl rfl⟩
    rw [Http.bodyRead, if_neg hpost]

/-- The steps of a request whose body is waited for. -/
theorem Awaiting.pending {s t : Http} {event : HttpEvent} (hreads : s.readHandler = .readBody)
    (hbody : BodyPending s) (hstep : httpStep conf s event = some t) :
    ReadStepped conf s event t := by
  have hpost : s.pc = .handler → s.isPost = true := by
    intro hat
    have := hbody.late
    rw [hat] at this
    cases this
  have hkeeps : (t.reader = .request ∨ t.reader = .closed) → s.drops event t = false := by
    intro hreader
    have hopen : (t.reader == .lingering) = false := by
      rcases hreader with h | h <;> rw [h] <;> rfl
    obtain ⟨_, hstepped⟩ := httpStep_cases hstep
    cases hstepped with
    | @special p status hat =>
        rcases hbody.place with ⟨hother, _⟩ | ⟨hother, _⟩ | ⟨rc, hother, _⟩ <;>
          rw [hat] at hother <;> cases hother
    | readable hwaits =>
        rw [Http.drops, hopen, hreads]
        rfl
    | handler | fork | execute | finalize | runPosted | writable | lingering | poll => exact hopen
  rcases hbody.step hreads hstep with ⟨hreads', hbody' | ⟨hdeclined, hrefuses, hreader⟩⟩ |
    ⟨ready, unread, closed, a, rfl, _, rfl⟩
  · exact .waits hpost (hkeeps hbody'.waits.reader) hreads' hbody'
  · refine .lost ⟨⟨hdeclined.late, fun _ => hdeclined⟩, ?_, Or.inl hrefuses⟩
    rw [hreader]
    rcases hbody.waits.reader with hr | hr <;> rw [hr] <;> exact nofun
  · refine .whole hpost ⟨unread, ?_⟩ ?_ rfl
      ⟨(Tidy.reading (Or.inl hbody)).step hstep, Or.inl rfl⟩
    · rw [Http.bodyRead, if_pos hreads]
    · change s.reader ≠ .lingering
      rcases hbody.waits.reader with hr | hr <;> rw [hr] <;> exact nofun

/-- **Before `fork()`** a step waits on for the body, finds it whole, or loses the
request. -/
theorem Awaiting.step {s t : Http} {event : HttpEvent} (h : Awaiting s)
    (hstep : httpStep conf s event = some t) : ReadStepped conf s event t := by
  rcases h with ⟨hpc, htidy⟩ | ⟨hreads, hbody⟩
  · have hun : s.pc.unanswered = true := by
      rw [hpc]
      rfl
    have htidy' := htidy.step hstep
    rcases httpStep_unanswered hun (htidy.early hun).thread hstep with
      ⟨_, expect, body, rfl, rfl⟩ | ⟨hat, _⟩ | ⟨hat, _⟩
    · exact Awaiting.handled htidy hpc expect body htidy'
    · rw [hpc] at hat
      cases hat
    · rw [hpc] at hat
      cases hat
  · exact Awaiting.pending hreads hbody hstep

/-- A lost request is not forked for. -/
theorem Lost.unforked {s : Http} (h : Lost conf s) : s.pc ≠ .forking := by
  intro hat
  have := h.spent.late
  rw [hat] at this
  cases this

/-- **Behind `fork()`** every step is. -/
theorem Served.step {s t : Http} {event : HttpEvent} (h : Served s)
    (hstep : httpStep conf s event = some t) : Served t := by
  obtain ⟨htidy, hplace⟩ := h
  refine ⟨htidy.step hstep, ?_⟩
  have hearly : s.pc.unanswered = true → s.pc ≠ .handler →
      t.pc = .forking ∨ t.pc = .executing ∨ Answered t := by
    intro hun hpc
    have huntouched := htidy.early hun
    rcases httpStep_unanswered hun huntouched.thread hstep with ⟨hat, _⟩ |
      ⟨_, child, _, rfl⟩ | ⟨hat, cleanup, run, _, rfl⟩
    · exact absurd hat hpc
    · unfold forked
      split
      · exact Or.inr (Or.inl rfl)
      · split <;> exact Or.inr (Or.inr ⟨huntouched.bodyless, Or.inl rfl⟩)
    · unfold executed
      split
      · exact Or.inr (Or.inr ⟨huntouched.bodyless, Or.inl s.afterPostBody_isLate⟩)
      · cases run with
        | none => exact Or.inr (Or.inl hat)
        | some run => exact Or.inr (Or.inr ⟨huntouched.bodyless, Or.inr rfl⟩)
  rcases hplace with hpc | hpc | hanswered
  · exact hearly (by rw [hpc]; rfl) (by rw [hpc]; exact nofun)
  · exact hearly (by rw [hpc]; rfl) (by rw [hpc]; exact nofun)
  · exact Or.inr (Or.inr (hanswered.step hstep))

/-- No body is read or discarded behind `fork()`, and none is refused. -/
theorem Served.bodyless {s : Http} (h : Served s) : s.Bodyless ∧ s.pc.refuses = false := by
  obtain ⟨htidy, hpc | hpc | hanswered⟩ := h
  · exact ⟨(htidy.early (by rw [hpc]; rfl)).bodyless, by rw [hpc]; rfl⟩
  · exact ⟨(htidy.early (by rw [hpc]; rfl)).bodyless, by rw [hpc]; rfl⟩
  · exact ⟨hanswered.bodyless, hanswered.places.2⟩

/-- A step behind `fork()` reads no body, and drops bytes of a connection that lingers
only. -/
theorem Served.drops {s t : Http} {event : HttpEvent} (h : Served s)
    (hstep : httpStep conf s event = some t) :
    s.bodyRead event = none ∧ (s.drops event t = true → t.reader = .lingering) := by
  obtain ⟨⟨hreads, hdiscards, _⟩, hrefuses⟩ := h.bodyless
  obtain ⟨_, hstepped⟩ := httpStep_cases hstep
  cases hstepped with
  | @handler expect body hat _ _ =>
      obtain ⟨_, hother | hother | hanswered⟩ := h
      · rw [hat] at hother
        cases hother
      · rw [hat] at hother
        cases hother
      · have := hanswered.places.1
        rw [hat] at this
        cases this
  | @special p status hat =>
      rw [hat] at hrefuses
      cases hrefuses
  | readable hwaits =>
      refine ⟨if_neg hreads, fun hdrops => ?_⟩
      rcases Bool.or_eq_true_iff.mp hdrops with hd | hd
      · exact absurd (beq_iff_eq.mp hd) hdiscards
      · exact beq_iff_eq.mp hd
  | fork | execute | finalize | runPosted | writable | lingering | poll =>
      exact ⟨rfl, fun hdrops => beq_iff_eq.mp hdrops⟩

end Toxic
