import ToxicNginx.DrainWatch

/-!
# What a toxic child takes with it

A child of `fork` keeps running `ngx_worker_process_cycle` with everything it
inherited until `waitIT` calls `exit(1)`: in its polling thread once `sent` has
reached `base_len`, or as a cleanup handler of the request's pool.  The other
connections of the process end with it.  When the process is back in its event loop
the thread runs in the frame of a handler that has returned, and reads whatever is
there: it may end the process at any time.

* `EndsBy` — a process ends only with a pool that has the cleanup handler, or by
  its thread; `finalizeRequest_endsBy`, `writer_endsBy`;
* `Http.armed` — a round of the thread may end the process;
* `Ends` — the steps of the own request that let the process end, from the
  state before them; `httpStep_ends`, `httpStep_armed`;
* `Threaded` — there is no thread and no cleanup handler before the answer;
* `Child`, `childStep` — the own request and the other connections, among them
  inherited ones with the same cleanup handler;
* `ExitsAlone` — no connection is busy when `waitIT` ends the process;
* `exitsAlone_of_guarded` — the property in every run in which the other
  connections are quiet at the steps that let the process end.
-/

namespace Toxic

open ChunkQueue StepSystem

/-- `t` comes after `s` and has ended only if a pool with the cleanup handler
was destroyed. -/
structure EndsBy (s t : Http) : Prop where
  cleanup : t.cleanup = s.cleanup
  freed : s.freed = true → t.freed = true
  exited : t.exited = true → s.exited = true ∨ (s.cleanup = true ∧ t.freed = true)

theorem EndsBy.refl (s : Http) : EndsBy s s := ⟨rfl, id, Or.inl⟩

theorem EndsBy.trans {s m t : Http} (h : EndsBy s m) (h' : EndsBy m t) : EndsBy s t := by
  refine ⟨h'.cleanup.trans h.cleanup, fun hs => h'.freed (h.freed hs), ?_⟩
  intro ht
  rcases h'.exited ht with hm | ⟨hcleanup, hfreed⟩
  · rcases h.exited hm with hs | ⟨hcleanup, hfreed⟩
    · exact Or.inl hs
    · exact Or.inr ⟨hcleanup, h'.freed hfreed⟩
  · exact Or.inr ⟨h.cleanup ▸ hcleanup, hfreed⟩

/-- Destroying the pool ends the process when it has the cleanup handler. -/
theorem freeRequest_endsBy (s : Http) : EndsBy s (freeRequest s) := by
  refine ⟨rfl, fun _ => rfl, ?_⟩
  intro ht
  simp only [freeRequest, Bool.or_eq_true] at ht
  rcases ht with hs | hcleanup
  · exact Or.inl hs
  · exact Or.inr ⟨hcleanup, rfl⟩

theorem closeRequest_endsBy (s : Http) : EndsBy s (closeRequest s) := by
  unfold closeRequest
  split
  · exact ⟨rfl, id, Or.inl⟩
  split
  · have h := freeRequest_endsBy { s with count := 0 }
    exact ⟨h.cleanup, h.freed, h.exited⟩
  · exact ⟨rfl, id, Or.inl⟩

theorem setLingeringClose_endsBy (a : FinalizeAnswers) (s : Http) :
    EndsBy s (setLingeringClose a s) := by
  have hreader : EndsBy s { s with reader := .lingering } := ⟨rfl, id, Or.inl⟩
  unfold setLingeringClose
  dsimp only
  split
  · exact hreader.trans (closeRequest_endsBy _)
  split
  · exact hreader.trans (closeRequest_endsBy _)
  split
  · split
    · exact ⟨rfl, id, Or.inl⟩
    · exact hreader.trans (closeRequest_endsBy _)
  · exact hreader

theorem finalizeConnection_endsBy (conf : HttpConf) (a : FinalizeAnswers) (s : Http) :
    EndsBy s (finalizeConnection conf a s) := by
  have hdiscard : EndsBy s (if s.discardBody then { s with readHandler := .discardBody } else s) := by
    split <;> exact ⟨rfl, id, Or.inl⟩
  unfold finalizeConnection setKeepalive
  split
  · exact hdiscard.trans (closeRequest_endsBy _)
  split
  · split
    · exact ⟨rfl, id, Or.inl⟩
    · have h := freeRequest_endsBy { s with resp := { s.resp with keepalive := false } }
      exact ⟨h.cleanup, h.freed, h.exited⟩
  split
  · exact setLingeringClose_endsBy a s
  · exact closeRequest_endsBy s

/-- A call of a function on `r` ends the process only as the function does. -/
theorem call_endsBy {f : Http → Http} (hf : ∀ s, EndsBy s (f s)) (s : Http) :
    EndsBy s (call f s) := by
  unfold call
  split
  · exact EndsBy.refl s
  split
  · exact ⟨rfl, id, Or.inl⟩
  · exact hf s

/-- **A finalization** ends the process only with the pool. -/
theorem finalizeRequest_endsBy (conf : HttpConf) (a : FinalizeAnswers) (rc : Rc) (s : Http) :
    EndsBy s (finalizeRequest conf a rc s) := by
  have hterminate : ∀ s, EndsBy s (terminateRequest s) := fun s => ⟨rfl, id, Or.inl⟩
  unfold finalizeRequest setWriteHandler
  split
  · exact hterminate s
  split
  · have hset : EndsBy s
        { s with readHandler := s.writingReader, writeHandler := .writer, writeTimer := true } :=
      ⟨rfl, id, Or.inl⟩
    by_cases hevent : a.writeEvent = true
    · simp only [hevent, if_true]
      exact hset
    · simp only [hevent, if_false, Bool.false_eq_true]
      exact (hset.trans (closeRequest_endsBy _)).trans (call_endsBy hterminate _)
  · have hset : EndsBy s { s with writeHandler := .empty, writeTimer := false } :=
      ⟨rfl, id, Or.inl⟩
    dsimp only
    split
    · exact hset.trans (closeRequest_endsBy _)
    · exact hset.trans (finalizeConnection_endsBy conf a _)

/-- **The writer** ends the process only with the pool. -/
theorem writer_endsBy (conf : HttpConf) (w : WriteAnswers) (a : FinalizeAnswers) (s : Http) :
    EndsBy s (writer conf w a s) := by
  unfold writer
  generalize outputFilter conf.filter w [] s.resp = result
  obtain ⟨rc, resp⟩ := result
  dsimp only
  have hresp : EndsBy s { s with resp := resp } := ⟨rfl, id, Or.inl⟩
  split
  · exact hresp.trans (finalizeRequest_endsBy conf a rc _)
  split
  · have htimer : EndsBy s { s with resp := resp, writeTimer := true } := ⟨rfl, id, Or.inl⟩
    split
    · exact htimer
    · exact htimer.trans (closeRequest_endsBy _)
  · have hempty : EndsBy s { s with resp := resp, writeHandler := .empty } := ⟨rfl, id, Or.inl⟩
    exact hempty.trans (finalizeRequest_endsBy conf a rc _)

/-- The three write event handlers end the process only with the pool. -/
theorem runWriteHandler_endsBy (conf : HttpConf) (timedOut : Bool) (w : WriteAnswers)
    (a : FinalizeAnswers) (s : Http) : EndsBy s (runWriteHandler conf timedOut w a s) := by
  unfold runWriteHandler
  split
  · exact EndsBy.refl s
  · have hcount : EndsBy s { s with count := 1 } := ⟨rfl, id, Or.inl⟩
    exact hcount.trans (closeRequest_endsBy _)
  · split
    · exact finalizeRequest_endsBy conf a .requestTimeOut s
    · exact writer_endsBy conf w a s

/-- The write event handler keeps the request: it has timed out, or the socket
fails, or the response stays buffered with its write event registered, or the
response is out and a lingering close holds the request. -/
def WriterKeeps (conf : HttpConf) (timedOut : Bool) (w : WriteAnswers) (a : FinalizeAnswers)
    (s : Http) : Prop :=
  timedOut = true ∨ w.send.failed = true ∨
    if (contents s.resp.out).length ≤ w.send.taken then LingersAfter conf a s
    else a.writeEvent = true

instance (conf : HttpConf) (timedOut : Bool) (w : WriteAnswers) (a : FinalizeAnswers)
    (s : Http) : Decidable (WriterKeeps conf timedOut w a s) :=
  inferInstanceAs (Decidable (_ ∨ _ ∨ _))

/-- The condition does not look at the readiness of the socket. -/
theorem WriterKeeps.marked {conf : HttpConf} {timedOut : Bool} {w : WriteAnswers}
    {a : FinalizeAnswers} {s : Http} (h : WriterKeeps conf timedOut w a s) :
    WriterKeeps conf timedOut w a s.markWritable := by
  refine h.imp_right fun h => h.imp_right fun h => ?_
  rw [show contents s.markWritable.resp.out = contents s.resp.out from rfl]
  split
  next hlen =>
    rw [if_pos hlen] at h
    obtain ⟨heof, hlingers⟩ := h
    exact ⟨heof, ⟨hlingers.1, hlingers.2, hlingers.3, hlingers.4, hlingers.5⟩⟩
  next hlen =>
    rw [if_neg hlen] at h
    exact h

/-- A call of the output filter without a new chain: an error, or something is
left and buffered, or everything is out. -/
theorem outputFilter_nil_cases (conf : FilterConf) (w : WriteAnswers) {r : Response}
    (hready : r.writeReady = true) :
    (outputFilter conf w [] r).1 = .error ∨
    (w.send.failed = false ∧ (outputFilter conf w [] r).1.Fine ∧
      (outputFilter conf w [] r).2.error = false ∧
      (outputFilter conf w [] r).2.buffered
        = decide (w.send.taken < (contents r.out).length)) := by
  by_cases hrc : (outputFilter conf w [] r).1 = .error
  · exact Or.inl hrc
  right
  obtain ⟨hfine, herror, _⟩ := outputFilter_nil conf w hrc
  have herr : r.error = false := by
    by_contra h
    rw [outputFilter, writeFilter_refused conf w [] (Bool.not_eq_false _ ▸ h)] at hrc
    exact hrc rfl
  rcases writeFilter_nil conf w herr with ⟨_, hw⟩ | ⟨hpacked, hout, hw⟩
  · rw [outputFilter, hw] at hrc
    exact absurd rfl hrc
  by_cases hfail : w.send.failed = true
  · rw [outputFilter, hw, writeOut_failed hready hfail] at hrc
    exact absurd rfl hrc
  have hok : w.send.failed = false := Bool.eq_false_iff.mpr hfail
  refine ⟨hok, hfine, herror, ?_⟩
  rw [outputFilter, hw, writeOut_taken hready hok]
  have hnil := drain_eq_nil_iff hpacked w.send.taken
  by_cases hdrain : drain w.send.taken r.out = []
  · have hlen := hnil.mp hdrain
    simp [hdrain, hlen]
  · have hlen : w.send.taken < (contents r.out).length := by
      have := mt hnil.mpr hdrain
      omega
    simp [hdrain, hlen]
/-- **The writer keeps the request** in the ways `WriterKeeps` names. -/
theorem writer_keeps (conf : HttpConf) {w : WriteAnswers} {a : FinalizeAnswers} {s : Http}
    (hready : s.resp.writeReady = true) (hfreed : s.freed = false)
    (hkeeps : WriterKeeps conf false w a s) : (writer conf w a s).freed = false := by
  have hcases := outputFilter_nil_cases conf.filter w hready
  have hkeepalive := outputFilter_keepalive conf.filter w [] s.resp
  unfold writer
  generalize outputFilter conf.filter w [] s.resp = result at hcases hkeepalive ⊢
  obtain ⟨rc, resp⟩ := result
  dsimp only at hcases hkeepalive ⊢
  by_cases hrc : rc = .error
  · rw [if_pos hrc, finalizeRequest_terminates conf a (Or.inl hrc)]
    exact hfreed
  obtain ⟨hok, hfine, herror, hbuffered⟩ := hcases.resolve_left hrc
  have hkept : if (contents s.resp.out).length ≤ w.send.taken then LingersAfter conf a s
      else a.writeEvent = true := by
    rcases hkeeps with h | h | h
    · cases h
    · rw [hok] at h
      cases h
    · exact h
  rw [if_neg hrc]
  by_cases hleft : resp.buffered = true
  · have hlen : w.send.taken < (contents s.resp.out).length := by
      rw [hleft] at hbuffered
      exact of_decide_eq_true hbuffered.symm
    rw [if_neg (by omega)] at hkept
    rw [if_pos hleft, if_pos hkept]
    exact hfreed
  · have hlen : (contents s.resp.out).length ≤ w.send.taken := by
      rw [Bool.eq_false_iff.mpr hleft] at hbuffered
      have := of_decide_eq_false hbuffered.symm
      omega
    rw [if_pos hlen] at hkept
    obtain ⟨heof, hlingers⟩ := hkept
    rw [if_neg hleft]
    apply finalizeRequest_keeps conf (s := { s with resp := resp, writeHandler := .empty })
    · exact hfreed
    · refine Or.inr (Or.inr ⟨Bool.eq_false_iff.mpr hleft, heof, ⟨?_, hlingers.2, hlingers.3,
        hlingers.4, hlingers.5⟩⟩)
      dsimp only
      rw [hkeepalive]
      exact hlingers.noKeepalive

/-- A round of the thread may end the process: its test is true, or the request it
reads or the frame it runs in is gone. -/
def Http.armed (s : Http) : Bool :=
  s.thread && (!s.framed || s.freed || decide (s.baseLen ≤ s.resp.sent))

/-- The steps of a request that let its process end: a finalization or a write
event that destroys a pool with the cleanup handler, the terminate handler, the
end of a lingering close, and, for the thread, the step behind which it starts if
its test is true then or the request gone, and the return of the handler. -/
def Ends (conf : HttpConf) (s : Http) : HttpEvent → Prop
  | .finalize a =>
      (s.cleanup = true ∧ ¬ KeepsRequest conf a s) ∨
        (s.pc = .exitFinalize ∧ s.isPost = false ∧
          (s.baseLen ≤ s.resp.sent ∨ ¬ KeepsRequest conf a s)) ∨
        (s.pc = .handlerFinalize ∧ s.thread = true)
  | .runPosted _ _ => s.posted = true ∧ s.cleanup = true
  | .writable timedOut w a =>
      s.cleanup = true ∧
        (s.writeHandler = .terminate ∨
          (s.writeHandler = .writer ∧ ¬ WriterKeeps conf timedOut w a s))
  | .lingering ends => s.cleanup = true ∧ ends = true
  | _ => False

instance (conf : HttpConf) (s : Http) (event : HttpEvent) : Decidable (Ends conf s event) :=
  match event with
  | .finalize _ => inferInstanceAs (Decidable (_ ∨ _))
  | .runPosted _ _ | .writable _ _ _ | .lingering _ => inferInstanceAs (Decidable (_ ∧ _))
  | .handler _ _ | .fork _ | .execute _ _ | .special _ | .readable _ _ _ _ | .poll _ =>
      inferInstanceAs (Decidable False)

/-- The script has run, or is left to the child, and no body was refused. -/
def Pc.isLate : Pc → Bool
  | .postFinalize | .handlerFinalize | .runPosted | .idle => true
  | .phaseFinalize (.special _) => false
  | .phaseFinalize _ => true
  | _ => false

theorem Pc.isLate.places {pc : Pc} (h : pc.isLate = true) :
    pc.unanswered = false ∧ pc ≠ .exitFinalize ∧ pc.refuses = false := by
  cases pc with
  | handler | forking | executing | exitFinalize | special => cases h
  | postFinalize | handlerFinalize | runPosted | idle => decide
  | phaseFinalize rc =>
      refine ⟨rfl, nofun, ?_⟩
      cases rc with
      | special => cases h
      | ok | error | again | requestTimeOut | clientClosedRequest => rfl

theorem Http.afterPostBody_isLate (s : Http) : s.afterPostBody.isLate = true := by
  unfold Http.afterPostBody
  split <;> rfl

/-- The thread runs and the cleanup handler is there only behind the answer of a
request whose body is not read or discarded any more. -/
structure Threaded (s : Http) : Prop where
  discards : s.discardBody = true → s.readHandler = .discardBody
  early : s.pc.unanswered = true ∨ s.pc = .exitFinalize → s.freed = false ∧ s.Bodyless
  quiet : s.pc.unanswered = true → s.thread = false ∧ s.cleanup = false
  answered : s.thread = true ∨ s.cleanup = true → s.Bodyless ∧ s.pc.refuses = false

/-- Neither is there while a body is read or discarded. -/
theorem Threaded.plain {s : Http} (h : Threaded s) (hnot : ¬ s.Bodyless ∨ s.pc.refuses = true) :
    s.thread = false ∧ s.cleanup = false := by
  have hboth : ¬ (s.thread = true ∨ s.cleanup = true) := by
    intro hone
    obtain ⟨hbody, haccepted⟩ := h.answered hone
    rcases hnot with hnot | hnot
    · exact hnot hbody
    · rw [haccepted] at hnot
      cases hnot
  exact ⟨Bool.eq_false_iff.mpr fun ht => hboth (Or.inl ht),
    Bool.eq_false_iff.mpr fun hc => hboth (Or.inr hc)⟩

/-- Behind the answer a step that keeps the reader keeps the rest. -/
theorem Threaded.late {s t : Http} (h : Threaded s) (hbody : KeepsReader s t)
    (hlate : t.pc.isLate = true) (hone : t.thread = true ∨ t.cleanup = true → s.Bodyless) :
    Threaded t := by
  have hpc := Pc.isLate.places hlate
  refine ⟨fun hdiscard => ?_, fun hat => ?_, fun hat => ?_, fun ht => ?_⟩
  · have hs : s.discardBody = true := hbody.discard.symm.trans hdiscard
    rcases hbody.reader with hreader | hreader
    · exact hreader.trans (h.discards hs)
    · exact hreader.trans (Http.writingReader_discard hs)
  · rcases hat with hat | hat
    · rw [hpc.1] at hat
      cases hat
    · exact absurd hat hpc.2.1
  · rw [hpc.1] at hat
    cases hat
  · exact ⟨hbody.bodyless (hone ht), hpc.2.2⟩

theorem Http.isPost_of_view {s t : Http} (h : t.view = s.view) : t.isPost = s.isPost := by
  simp only [Http.view, DrainView.mk.injEq] at h
  unfold Http.isPost
  rw [h.1]

theorem call_finalizeRequest_view (conf : HttpConf) (a : FinalizeAnswers) (rc : Rc) (s : Http) :
    (call (finalizeRequest conf a rc) s).view = s.view := by
  unfold call
  split
  · rfl
  split
  · rfl
  · exact finalizeRequest_view conf a rc s

/-- What a finalization step is: the call and the next place in the code, with
the thread started behind the answer of a request other than POST and PUT; or the
entry of a special response. -/
theorem finalizeStep_cases {conf : HttpConf} {a : FinalizeAnswers} {s t : Http}
    (h : finalizeStep conf a s = some t) :
    (∃ rc pc inPhase thread, pc.isLate = true ∧
      t = { call (finalizeRequest conf a rc) s with pc := pc, inPhase := inPhase, thread := thread } ∧
      (thread = s.thread ∨
        (thread = true ∧ s.pc = .exitFinalize ∧ s.isPost = false ∧ pc = .handlerFinalize))) ∨
    (∃ status, s.pc = .phaseFinalize (.special status) ∧ s.resp.error = false ∧
      t = { call (fun s => { s with writeTimer := false, reader := .request }) s with
        pc := .special status }) := by
  have hthread : ∀ rc, (call (finalizeRequest conf a rc) s).thread = s.thread :=
    fun rc => congrArg DrainView.thread (call_finalizeRequest_view conf a rc s)
  cases hpc : s.pc with
  | handler | forking | executing | special | runPosted | idle => simp [finalizeStep, hpc] at h
  | exitFinalize =>
      left
      by_cases hpost : s.isPost = true
      · simp only [finalizeStep, hpc, hpost, if_true, Option.some.injEq] at h
        subst h
        exact ⟨_, _, _, _, s.afterPostBody_isLate, rfl, Or.inl (hthread .ok)⟩
      · simp only [finalizeStep, hpc, hpost, Bool.false_eq_true, if_false, Option.some.injEq] at h
        subst h
        exact ⟨.ok, .handlerFinalize, _, true, rfl, rfl,
          Or.inr ⟨rfl, rfl, Bool.eq_false_iff.mpr hpost, rfl⟩⟩
  | postFinalize =>
      simp only [finalizeStep, hpc, Option.some.injEq] at h
      subst h
      exact Or.inl ⟨_, _, _, _, s.afterPostBody_isLate, rfl, Or.inl (hthread .ok)⟩
  | handlerFinalize =>
      simp only [finalizeStep, hpc, Option.some.injEq] at h
      subst h
      exact Or.inl ⟨_, _, _, _, rfl, rfl, Or.inl (hthread .again)⟩
  | phaseFinalize rc =>
      rcases finalizeStep_phase hpc h with ⟨status, hrc, herr, ht⟩ | ⟨_, ht⟩
      · exact Or.inr ⟨status, by rw [hrc], herr, ht⟩
      · exact Or.inl ⟨rc, .runPosted, false, _, rfl, ht, Or.inl (hthread rc)⟩

/-- A read event leaves what is sent, and does not begin to read a body or to handle
one, but where it is read already. -/
structure ReadEventKept (s t : Http) : Prop where
  view : t.view = s.view
  ends : EndsBy s t
  reads : s.readHandler ≠ .readBody → t.readHandler ≠ .readBody ∧ t.pc = .runPosted

theorem ReadEventKept.posted {s m : Http} (hview : m.view = s.view) (hends : EndsBy s m)
    (hreads : s.readHandler ≠ .readBody → m.readHandler ≠ .readBody) :
    ReadEventKept s { m with pc := .runPosted } :=
  ⟨hview, ⟨hends.cleanup, hends.freed, hends.exited⟩, fun h => ⟨hreads h, rfl⟩⟩

/-- A read event that finalizes the request. -/
theorem ReadEventKept.finalized (conf : HttpConf) (a : FinalizeAnswers) (rc : Rc) {s m : Http}
    (hview : m.view = s.view) (hends : EndsBy s m) (hreader : m.readHandler = s.readHandler) :
    ReadEventKept s { finalizeRequest conf a rc m with pc := .runPosted } := by
  refine ReadEventKept.posted ((finalizeRequest_view conf a rc m).trans hview)
    (hends.trans (finalizeRequest_endsBy conf a rc m)) fun h => ?_
  exact (finalizeRequest_keepsReader conf a rc m).reads (hreader ▸ h)

/-- A read event that ends the discarding of a body. -/
theorem ReadEventKept.discarded (conf : HttpConf) (a : FinalizeAnswers) {s m : Http}
    (hview : m.view = s.view) (hends : EndsBy s m) (hreader : m.readHandler ≠ .readBody) :
    ReadEventKept s { finalizeConnection conf a m with pc := .runPosted } := by
  refine ReadEventKept.posted ((finalizeConnection_view conf a m).trans hview)
    (hends.trans (finalizeConnection_endsBy conf a m)) fun _ => ?_
  exact (finalizeConnection_keepsReader conf a m).reads hreader

theorem runReadHandler_kept (conf : HttpConf) (body : BodyRead) (closed : Bool)
    (a : FinalizeAnswers) (s : Http) : ReadEventKept s (runReadHandler conf body closed a s) := by
  have hwaits : ReadEventKept s { s with pc := .runPosted } := .posted rfl (.refl s) id
  unfold runReadHandler
  split
  next => exact hwaits
  next =>
    split
    · exact .finalized conf a _ rfl ⟨rfl, id, Or.inl⟩ rfl
    · exact hwaits
  next hreader =>
    cases body with
    | whole unread => exact ⟨rfl, ⟨rfl, id, Or.inl⟩, fun h => absurd hreader h⟩
    | more => exact hwaits
    | closed failed => exact .finalized conf a _ rfl ⟨rfl, id, Or.inl⟩ rfl
    | timedOut => exact .finalized conf a _ rfl (.refl s) rfl
    | refused status stage => exact ⟨rfl, ⟨rfl, id, Or.inl⟩, fun h => absurd hreader h⟩
  next hreader =>
    have hreads : s.readHandler ≠ .readBody := by
      rw [hreader]
      decide
    cases body with
    | whole unread => exact .discarded conf a rfl ⟨rfl, id, Or.inl⟩ nofun
    | more => exact hwaits
    | closed failed => exact .discarded conf a rfl ⟨rfl, id, Or.inl⟩ hreads
    | timedOut => exact .finalized conf a _ rfl ⟨rfl, id, Or.inl⟩ rfl
    | refused status stage => exact .finalized conf a _ rfl ⟨rfl, id, Or.inl⟩ rfl

/-- The read event handler of a request whose body is waited for. -/
theorem runReadHandler_readBody (conf : HttpConf) (body : BodyRead) (closed : Bool)
    (a : FinalizeAnswers) {s : Http} (h : s.readHandler = .readBody) :
    runReadHandler conf body closed a s =
      match body with
      | .whole unread =>
          { s with readHandler := .blockReading, unread := unread, pc := .forking }
      | .more => { s with pc := .runPosted }
      | .closed _ =>
          { finalizeRequest conf a (.special .badRequest)
              { s with resp := { s.resp with error := true } } with
            pc := .runPosted }
      | .timedOut => { finalizeRequest conf a .requestTimeOut s with pc := .runPosted }
      | .refused status _ => s.refuse status := by
  unfold runReadHandler
  split
  next hread => exact absurd (h.symm.trans hread) (by decide)
  next hread => exact absurd (h.symm.trans hread) (by decide)
  next => rfl
  next hread => exact absurd (h.symm.trans hread) (by decide)

/-- The read event handler of a request whose body is discarded. -/
theorem runReadHandler_discardBody (conf : HttpConf) (body : BodyRead) (closed : Bool)
    (a : FinalizeAnswers) {s : Http} (h : s.readHandler = .discardBody) :
    runReadHandler conf body closed a s =
      let s' := { s with discardBody := false, lingeringClose := false }
      match body with
      | .whole _ =>
          { finalizeConnection conf a { s' with readHandler := .blockReading } with
            pc := .runPosted }
      | .closed failed =>
          { finalizeConnection conf a { s' with
              readEof := s.readEof || !failed
              resp := { s.resp with error := s.resp.error || failed } } with
            pc := .runPosted }
      | .more => { s with pc := .runPosted }
      | .timedOut | .refused _ _ =>
          { finalizeRequest conf a .error { s with resp := { s.resp with error := true } } with
            pc := .runPosted } := by
  unfold runReadHandler
  split
  next hread => exact absurd (h.symm.trans hread) (by decide)
  next hread => exact absurd (h.symm.trans hread) (by decide)
  next hread => exact absurd (h.symm.trans hread) (by decide)
  next => rfl

/-- **The write event handler** sends or not, and leaves the method and the thread. -/
theorem runWriteHandler_kept (conf : HttpConf) (timedOut : Bool) (w : WriteAnswers)
    (a : FinalizeAnswers) (s : Http) :
    (runWriteHandler conf timedOut w a s).isPost = s.isPost ∧
      (runWriteHandler conf timedOut w a s).thread = s.thread := by
  cases hhandler : s.writeHandler with
  | empty =>
      rw [runWriteHandler_empty conf timedOut w a hhandler]
      exact ⟨rfl, rfl⟩
  | terminate =>
      rw [runWriteHandler_terminate conf timedOut w a hhandler]
      have hview : (terminateHandler s).view = s.view := closeRequest_view _
      exact ⟨Http.isPost_of_view hview, congrArg DrainView.thread hview⟩
  | writer =>
      rw [runWriteHandler_writer conf timedOut w a hhandler]
      split
      · have hview := finalizeRequest_view conf a .requestTimeOut s
        exact ⟨Http.isPost_of_view hview, congrArg DrainView.thread hview⟩
      · have hview : (writer conf w a s).view
            = { s with resp := (outputFilter conf.filter w [] s.resp).2 }.view :=
          writer_onlySends conf w a s
        refine ⟨?_, congrArg DrainView.thread hview⟩
        refine (Http.isPost_of_view hview).trans ?_
        unfold Http.isPost
        simp

/-- A finalization that keeps the request does not end the process. -/
theorem call_finalizeRequest_runs (conf : HttpConf) {a : FinalizeAnswers} (rc : Rc) {s : Http}
    (hrun : s.exited = false) (hkept : s.cleanup = false ∨ KeepsRequest conf a s) :
    (call (finalizeRequest conf a rc) s).exited = false := by
  rw [Bool.eq_false_iff]
  intro hexit
  by_cases hfreed : s.freed = true
  · unfold call at hexit
    rw [hrun, hfreed, if_neg Bool.false_ne_true, if_pos rfl] at hexit
    cases hexit
  have hlive : s.freed = false := Bool.eq_false_iff.mpr hfreed
  unfold call at hexit
  rw [hrun, hlive, if_neg Bool.false_ne_true, if_neg Bool.false_ne_true] at hexit
  rcases (finalizeRequest_endsBy conf a rc s).exited hexit with h | ⟨hcleanup, hgone⟩
  · rw [hrun] at h
    cases h
  · rcases hkept with h | h
    · rw [h] at hcleanup
      cases hcleanup
    · rw [finalizeRequest_keeps conf hlive h] at hgone
      cases hgone

/-- A write event handler that keeps the request does not end the process. -/
theorem runWriteHandler_ends (conf : HttpConf) {timedOut : Bool} {w : WriteAnswers}
    {a : FinalizeAnswers} {s : Http} (hrun : s.exited = false) (hlive : s.freed = false)
    (hready : s.resp.writeReady = true)
    (hexit : (runWriteHandler conf timedOut w a s).exited = true) :
    s.cleanup = true ∧ (s.writeHandler = .terminate ∨
      (s.writeHandler = .writer ∧ ¬ WriterKeeps conf timedOut w a s)) := by
  rcases (runWriteHandler_endsBy conf timedOut w a s).exited hexit with h | ⟨hcleanup, hgone⟩
  · rw [hrun] at h
    cases h
  refine ⟨hcleanup, ?_⟩
  cases hhandler : s.writeHandler with
  | empty =>
      rw [runWriteHandler_empty conf timedOut w a hhandler, hlive] at hgone
      cases hgone
  | terminate => exact Or.inl rfl
  | writer =>
      refine Or.inr ⟨rfl, fun hkeeps => ?_⟩
      rw [runWriteHandler_writer conf timedOut w a hhandler] at hgone
      by_cases htimed : timedOut = true
      · rw [if_pos htimed, finalizeRequest_terminates conf a (Or.inr (Or.inl rfl))] at hgone
        change s.freed = true at hgone
        rw [hlive] at hgone
        cases hgone
      · rw [if_neg htimed] at hgone
        rw [Bool.eq_false_iff.mpr htimed] at hkeeps
        rw [writer_keeps conf hready hlive hkeeps] at hgone
        cases hgone

/-- A special response does not end the process, and leaves the thread and the cleanup
handler. -/
theorem specialResponse_kept (conf : FilterConf) (p : PageAnswers) (status : SpecialStatus)
    (s : Http) :
    (specialResponse conf p status s).2.exited = s.exited ∧
      (specialResponse conf p status s).2.freed = s.freed ∧
      (specialResponse conf p status s).2.thread = s.thread ∧
      (specialResponse conf p status s).2.cleanup = s.cleanup := by
  have h := discardRequestBody_frame p { s with
    lingeringClose := s.lingeringClose && status != .badRequest
    resp := { s.resp with errStatus := status.code, keepalive := false } }
  exact ⟨h.exited, h.freed, h.thread, h.cleanup⟩

/-- A request whose body is discarded has the handler that does it. -/
theorem specialResponse_discards (conf : FilterConf) (p : PageAnswers) (status : SpecialStatus)
    {s : Http} (h : s.discardBody = true → s.readHandler = .discardBody)
    (hdiscard : (specialResponse conf p status s).2.discardBody = true) :
    (specialResponse conf p status s).2.readHandler = .discardBody := by
  unfold specialResponse at hdiscard ⊢
  dsimp only at hdiscard ⊢
  unfold discardRequestBody at hdiscard ⊢
  dsimp only at hdiscard ⊢
  split at hdiscard
  next hset => rw [if_pos hset]; exact h hdiscard
  next hset =>
    rw [Bool.or_eq_true, not_or] at hset
    rw [if_neg (by simp [hset])]
    cases hread : p.discard with
    | inHeader | whole | closed => rw [hread] at hdiscard; exact absurd hdiscard hset.2
    | refused waits =>
        rw [hread] at hdiscard
        cases waits with
        | true => rfl
        | false => exact absurd hdiscard hset.2
    | more => rfl

/-- **What ends the process**: the script, a round of the armed thread, or one of the
steps that `Ends` names. -/
theorem httpStep_ends {conf : HttpConf} {s t : Http} {event : HttpEvent} (h : Threaded s)
    (hstep : httpStep conf s event = some t) (hexit : t.exited = true) :
    (∃ cleanup, event = .execute cleanup none) ∨ (∃ ends, event = .poll ends ∧ s.armed = true) ∨
      Ends conf s event := by
  obtain ⟨hrun, hstepped⟩ := httpStep_cases hstep
  have hrunning : s.exited ≠ true := by rw [hrun]; exact Bool.false_ne_true
  cases hstepped with
  | @handler expect body _ _ _ =>
      have hsame : (toxicHandler expect body s).exited = s.exited := by
        unfold toxicHandler
        split
        · cases body with
          | refused status stage => cases stage <;> rfl
          | whole | more | closed | timedOut => rfl
        · rfl
      exact absurd (hsame.symm.trans hexit) hrunning
  | @fork child _ =>
      have hsame : (forked child s).exited = s.exited := by
        unfold forked
        split
        · rfl
        · split <;> rfl
      exact absurd (hsame.symm.trans hexit) hrunning
  | @execute cleanup run _ =>
      cases run with
      | none => exact Or.inl ⟨cleanup, rfl⟩
      | some run =>
          have hsame : (executed conf cleanup (some run) s).exited = s.exited := by
            unfold executed
            split <;> rfl
          exact absurd (hsame.symm.trans hexit) hrunning
  | @finalize a _ hstep =>
      right; right
      by_contra hends
      rcases finalizeStep_cases hstep with ⟨rc, pc, inPhase, thread, _, rfl, _⟩ | ⟨status, _, _, rfl⟩
      · have hkept : s.cleanup = false ∨ KeepsRequest conf a s := by
          by_cases hcleanup : s.cleanup = true
          · right
            by_contra hnot
            exact hends (Or.inl ⟨hcleanup, hnot⟩)
          · exact Or.inl (Bool.eq_false_iff.mpr hcleanup)
        have := call_finalizeRequest_runs conf rc hrun hkept
        rw [show _ = (call (finalizeRequest conf a rc) s).exited from rfl, this] at hexit
        cases hexit
      · have hsame : (call (fun s => { s with writeTimer := false, reader := .request }) s).exited
            = s.exited := by
          unfold call
          split
          · rfl
          · split <;> rfl
        exact hrunning (hsame.symm.trans hexit)
  | @special p status _ =>
      exact absurd ((specialResponse_kept conf.filter p status s).1.symm.trans hexit) hrunning
  | @runPosted w a _ =>
      right; right
      unfold runPostedStep at hexit
      split at hexit
      · exact absurd hexit hrunning
      split at hexit
      next hposted =>
        refine ⟨hposted, ?_⟩
        have hends := (runWriteHandler_endsBy conf false w a { s with posted := false }).exited hexit
        exact (hends.resolve_left hrunning).1
      next => exact absurd hexit hrunning
  | @writable timedOut w a hwaits _ =>
      right; right
      obtain ⟨hcleanup, hcases⟩ := runWriteHandler_ends conf (s := s.markWritable) hrun
        (waits_cases hwaits).2.1 rfl hexit
      exact ⟨hcleanup, hcases.imp_right fun hw => ⟨hw.1, fun hkeeps => hw.2 hkeeps.marked⟩⟩
  | @readable ready body closed a hwaits =>
      -- the discarding of a body ends with no cleanup handler there
      have hends := (runReadHandler_kept conf body closed a { s with readReady := ready }).ends.exited
        hexit
      obtain ⟨hcleanup, hgone⟩ := hends.resolve_left hrunning
      obtain ⟨hbody, _⟩ := h.answered (Or.inr hcleanup)
      have hfreed := (waits_cases hwaits).2.1
      rcases runReadHandler_cases conf body closed a (s := { s with readReady := ready }) hbody with
        heq | heq
      · rw [heq] at hexit
        exact absurd hexit hrunning
      · rw [heq, finalizeRequest_terminates conf a (Or.inr (Or.inr (Or.inl rfl)))] at hexit
        exact absurd hexit hrunning
  | @lingering ends _ =>
      right; right
      by_cases hends : ends = true
      · rw [if_pos hends] at hexit
        exact ⟨(((closeRequest_endsBy s).exited hexit).resolve_left hrunning).1, hends⟩
      · rw [if_neg hends] at hexit
        exact absurd hexit hrunning
  | @poll ends hthread =>
      right; left
      refine ⟨ends, rfl, ?_⟩
      unfold pollStep at hexit
      unfold Http.armed
      split at hexit
      next hthere =>
        split at hexit
        next hreached => simp [hthread, hreached]
        next => exact absurd hexit hrunning
      next hgone =>
        rw [Bool.and_eq_true, Bool.not_eq_true'] at hgone
        by_cases hframed : s.framed = true
        · have hfreed : s.freed = true := by
            by_contra hlive
            exact hgone ⟨hframed, Bool.eq_false_iff.mpr hlive⟩
          simp [hthread, hfreed]
        · simp [hthread, hframed]

/-- A thread that runs behind the return of the handler is armed. -/
theorem Http.armed_of_thread {s : Http} (hthread : s.thread = true) (hpc : s.pc ≠ .handlerFinalize) :
    s.armed = true := by
  simp [Http.armed, Http.framed, hthread, hpc]

/-- **What arms the thread**: it was armed, or one of the steps that `Ends`
names. -/
theorem httpStep_armed {conf : HttpConf} {s t : Http} {event : HttpEvent} (h : Threaded s)
    (hstep : httpStep conf s event = some t) (harmed : t.armed = true) :
    s.armed = true ∨ Ends conf s event := by
  have hthread : t.thread = true := by
    unfold Http.armed at harmed
    rw [Bool.and_eq_true] at harmed
    exact harmed.1
  -- a step that does not start the thread, outside of the handler's own finalization
  have hbehind : t.thread = s.thread → s.pc ≠ .handlerFinalize → s.armed = true :=
    fun hsame hpc => Http.armed_of_thread (hsame.symm.trans hthread) hpc
  obtain ⟨hrun, hstepped⟩ := httpStep_cases hstep
  cases hstepped with
  | @handler expect body hpc _ _ =>
      have hsame : (toxicHandler expect body s).thread = s.thread := by
        unfold toxicHandler
        split
        · cases body with
          | refused status stage => cases stage <;> rfl
          | whole | more | closed | timedOut => rfl
        · rfl
      exact Or.inl (hbehind hsame (by rw [hpc]; decide))
  | @fork child hpc =>
      have hsame : (forked child s).thread = s.thread := by
        unfold forked
        split
        · rfl
        · split <;> rfl
      exact Or.inl (hbehind hsame (by rw [hpc]; decide))
  | @execute cleanup run hpc =>
      have hsame : (executed conf cleanup run s).thread = s.thread := by
        unfold executed
        split
        · rfl
        · cases run <;> rfl
      exact Or.inl (hbehind hsame (by rw [hpc]; decide))
  | @finalize a _ hstep =>
      rcases finalizeStep_cases hstep with ⟨rc, pc, inPhase, thread, _, rfl, hstart⟩ |
        ⟨status, hpc, _, rfl⟩
      · rcases hstart with hsame | ⟨_, hpc, hget, rfl⟩
        · have hs : s.thread = true := hsame.symm.trans hthread
          by_cases hhandler : s.pc = .handlerFinalize
          · exact Or.inr (Or.inr (Or.inr ⟨hhandler, hs⟩))
          · exact Or.inl (Http.armed_of_thread hs hhandler)
        -- the thread starts: its test is true, or the request is gone
        · refine Or.inr (Or.inr (Or.inl ⟨hpc, hget, ?_⟩))
          by_contra hnot
          rw [not_or, not_not] at hnot
          have hview := call_finalizeRequest_view conf a rc s
          simp only [Http.view, DrainView.mk.injEq] at hview
          obtain ⟨hfreed, _⟩ := h.early (Or.inr hpc)
          have hlive : (call (finalizeRequest conf a rc) s).freed = false := by
            unfold call
            rw [hrun, hfreed, if_neg Bool.false_ne_true, if_neg Bool.false_ne_true]
            exact finalizeRequest_keeps conf hfreed hnot.2
          simp [Http.armed, Http.framed, hlive, hview.2.2.1, hview.2.2.2.2.1, hnot.1] at harmed
      · have hquiet := (h.plain (Or.inr (by rw [hpc]; rfl))).1
        have hsame : (call (fun s => { s with writeTimer := false, reader := .request }) s).thread
            = s.thread := by
          unfold call
          split
          · rfl
          · split <;> rfl
        rw [show _ = (call _ s).thread from rfl, hsame, hquiet] at hthread
        cases hthread
  | @special p status hpc =>
      exact Or.inl (hbehind (specialResponse_kept conf.filter p status s).2.2.1
        (by rw [hpc]; simp))
  | @runPosted w a hpc =>
      have hsame : (runPostedStep conf w a s).thread = s.thread := by
        unfold runPostedStep
        split
        · rfl
        split
        · exact (runWriteHandler_kept conf false w a { s with posted := false }).2
        · rfl
      exact Or.inl (hbehind hsame (by rw [hpc]; decide))
  | @writable timedOut w a hwaits _ =>
      exact Or.inl (hbehind (runWriteHandler_kept conf timedOut w a s.markWritable).2
        (by rw [(waits_cases hwaits).1]; decide))
  | @readable ready body closed a hwaits =>
      have hview := (runReadHandler_kept conf body closed a { s with readReady := ready }).view
      exact Or.inl (hbehind (congrArg DrainView.thread hview)
        (by rw [(waits_cases hwaits).1]; decide))
  | @lingering ends hwaits =>
      have hsame : (if ends then closeRequest s else s).thread = s.thread := by
        split
        · exact congrArg DrainView.thread (closeRequest_view s)
        · rfl
      exact Or.inl (hbehind hsame (by rw [(waits_cases hwaits).1]; decide))
  | @poll ends _ =>
      left
      unfold pollStep at harmed
      split at harmed
      · split at harmed <;> exact harmed
      · exact harmed

/-- The handler leaves the thread and the cleanup handler as they are, and no body is
discarded yet. -/
theorem Threaded.handled {s : Http} (h : Threaded s) (hpc : s.pc = .handler) (expect : Expect)
    (body : BodyRead) : Threaded (toxicHandler expect body s) := by
  obtain ⟨hfreed, hbody⟩ := h.early (Or.inl (by rw [hpc]; rfl))
  obtain ⟨hthread, hcleanup⟩ := h.quiet (by rw [hpc]; rfl)
  have hnone : ∀ m : Http, m.thread = s.thread → m.cleanup = s.cleanup →
      ¬ (m.thread = true ∨ m.cleanup = true) := by
    intro m ht hc
    rw [ht, hc, hthread, hcleanup]
    simp
  have hforking : ∀ m : Http, m.thread = s.thread → m.cleanup = s.cleanup → m.freed = s.freed →
      m.Bodyless → Threaded m := fun m ht hc hf hb =>
    ⟨fun hd => absurd hd (by rw [hb.2.2]; decide), fun _ => ⟨hf.trans hfreed, hb⟩,
      fun _ => ⟨ht.trans hthread, hc.trans hcleanup⟩, fun hone => absurd hone (hnone m ht hc)⟩
  have hreading : ∀ m : Http, m.thread = s.thread → m.cleanup = s.cleanup →
      m.discardBody = s.discardBody → (∃ rc, m.pc = .phaseFinalize rc) → Threaded m := by
    intro m ht hc hd ⟨rc, hm⟩
    refine ⟨fun hdiscard => ?_, fun hat => ?_, fun hat => ?_, fun hone => absurd hone (hnone m ht hc)⟩
    · rw [hd, hbody.2.2] at hdiscard
      cases hdiscard
    · rw [hm] at hat
      rcases hat with hat | hat <;> cases hat
    · rw [hm] at hat
      cases hat
  unfold toxicHandler
  split
  · cases body with
    | whole unread => exact hforking _ rfl rfl rfl hbody
    | more | closed | timedOut => exact hreading _ rfl rfl rfl ⟨_, rfl⟩
    | refused status stage => cases stage <;> exact hreading _ rfl rfl rfl ⟨_, rfl⟩
  · exact hforking _ rfl rfl rfl hbody

/-- `fork()` and the script. -/
theorem Threaded.answering {s : Http} (h : Threaded s) (conf : HttpConf) :
    (∀ child, s.pc = .forking → Threaded (forked child s)) ∧
      (∀ cleanup run, s.pc = .executing → Threaded (executed conf cleanup run s)) := by
  constructor
  · intro child hpc
    obtain ⟨hfreed, hbody⟩ := h.early (Or.inl (by rw [hpc]; rfl))
    obtain ⟨hthread, hcleanup⟩ := h.quiet (by rw [hpc]; rfl)
    have hnone : ¬ (s.thread = true ∨ s.cleanup = true) := by
      rw [hthread, hcleanup]
      simp
    unfold forked
    split
    · exact ⟨h.discards, fun _ => ⟨hfreed, hbody⟩, fun _ => ⟨hthread, hcleanup⟩,
        fun hone => absurd hone hnone⟩
    · split <;> exact h.late (.refl s) rfl fun hone => absurd hone hnone
  · intro cleanup run hpc
    obtain ⟨hfreed, hbody⟩ := h.early (Or.inl (by rw [hpc]; rfl))
    obtain ⟨hthread, hcleanup⟩ := h.quiet (by rw [hpc]; rfl)
    unfold executed
    split
    · exact h.late (t := { s with pc := s.afterPostBody }) (.refl s) s.afterPostBody_isLate
        fun _ => hbody
    · cases run with
      | none => exact ⟨h.discards, h.early, h.quiet, h.answered⟩
      | some run =>
          exact ⟨h.discards, fun _ => ⟨hfreed, hbody⟩, fun hat => (nomatch hat),
            fun _ => ⟨hbody, rfl⟩⟩

/-- A read event begins to handle a body only where it is read, and no thread runs
then. -/
theorem Threaded.read {s : Http} (h : Threaded s) (conf : HttpConf) (hfreed : s.freed = false)
    (body : BodyRead) (closed : Bool) (a : FinalizeAnswers) (ready : Bool) :
    Threaded (runReadHandler conf body closed a { s with readReady := ready }) := by
  by_cases hbody : s.Bodyless
  · rcases runReadHandler_cases conf body closed a (s := { s with readReady := ready }) hbody with
      heq | heq <;> rw [heq]
    · exact h.late (.refl s) rfl fun _ => hbody
    · have hkeeps := finalizeRequest_keepsReader conf a .clientClosedRequest { s with
        readReady := ready, readEof := true, resp := { s.resp with error := true } }
      exact h.late ⟨hkeeps.discard, hkeeps.reader⟩ rfl fun _ => hbody
  obtain ⟨hthread, hcleanup⟩ := h.plain (Or.inl hbody)
  have hnone : ¬ (s.thread = true ∨ s.cleanup = true) := by
    rw [hthread, hcleanup]
    simp
  by_cases hread : s.readHandler = .readBody
  · have hquiet : s.discardBody = false := by
      rw [Bool.eq_false_iff]
      intro hdiscard
      rw [h.discards hdiscard] at hread
      cases hread
    have hfinal : ∀ (rc : Rc) (m : Http), KeepsReader s m → m.thread = s.thread →
        m.cleanup = s.cleanup → Threaded { finalizeRequest conf a rc m with pc := .runPosted } := by
      intro rc m hm ht hc
      have hkeeps := hm.trans (finalizeRequest_keepsReader conf a rc m)
      refine h.late ⟨hkeeps.discard, hkeeps.reader⟩ rfl fun hone => absurd ?_ hnone
      rw [← ht, ← hc]
      exact hone.imp ((congrArg DrainView.thread (finalizeRequest_view conf a rc m)).symm.trans ·)
        ((finalizeRequest_endsBy conf a rc m).cleanup.symm.trans ·)
    rw [runReadHandler_readBody conf body closed a (s := { s with readReady := ready }) hread]
    cases body with
    | whole unread =>
        exact ⟨fun hdiscard => absurd hdiscard (by simp [hquiet]),
          fun _ => ⟨hfreed, nofun, nofun, hquiet⟩, fun _ => ⟨hthread, hcleanup⟩,
          fun hone => absurd hone hnone⟩
    | more => exact h.late (.refl s) rfl fun hone => absurd hone hnone
    | closed failed => exact hfinal _ _ (.refl s) rfl rfl
    | timedOut => exact hfinal _ _ (.refl s) rfl rfl
    | refused status stage =>
        refine ⟨h.discards, fun hat => ?_, fun hat => (nomatch hat), fun hone => absurd hone hnone⟩
        rcases hat with hat | hat <;> cases hat
  · have hdiscards : s.readHandler = .discardBody := by
      by_contra hnot
      refine hbody ⟨hread, hnot, Bool.eq_false_iff.mpr fun hdiscard => hnot (h.discards hdiscard)⟩
    -- behind the body nothing is discarded
    have hended : ∀ m : Http, m.discardBody = false → m.thread = s.thread →
        m.cleanup = s.cleanup → Threaded { finalizeConnection conf a m with pc := .runPosted } := by
      intro m hm ht hc
      have hnot : ¬ (m.thread = true ∨ m.cleanup = true) := by
        rw [ht, hc]
        exact hnone
      have hkeeps := finalizeConnection_keepsReader conf a m
      refine ⟨fun hdiscard => ?_, fun hat => ?_, fun hat => (nomatch hat),
        fun hone => absurd (hone.imp ?_ ?_) hnot⟩
      · rw [show _ = (finalizeConnection conf a m).discardBody from rfl, hkeeps.discard, hm] at hdiscard
        cases hdiscard
      · rcases hat with hat | hat <;> cases hat
      · exact ((congrArg DrainView.thread (finalizeConnection_view conf a m)).symm.trans ·)
      · exact ((finalizeConnection_endsBy conf a m).cleanup.symm.trans ·)
    have hfailed : Threaded { finalizeRequest conf a .error
        { s with readReady := ready, resp := { s.resp with error := true } } with
        pc := .runPosted } := by
      rw [finalizeRequest_terminates conf a (Or.inl rfl)]
      exact h.late (.refl s) rfl fun hone => absurd hone hnone
    rw [runReadHandler_discardBody conf body closed a (s := { s with readReady := ready }) hdiscards]
    cases body with
    | whole unread => exact hended _ rfl rfl rfl
    | more =>
        exact h.late (t := { s with readReady := ready, pc := .runPosted }) (.refl s) rfl
          fun hone => absurd hone hnone
    | closed failed => exact hended _ rfl rfl rfl
    | timedOut => exact hfailed
    | refused status stage => exact hfailed

/-- The thread and the cleanup handler are there behind the answer only, in every
state. -/
theorem Threaded.step {conf : HttpConf} {s t : Http} {event : HttpEvent} (h : Threaded s)
    (hstep : httpStep conf s event = some t) : Threaded t := by
  have hs : s.thread = true ∨ s.cleanup = true → s.Bodyless := fun hone => (h.answered hone).1
  obtain ⟨_, hstepped⟩ := httpStep_cases hstep
  cases hstepped with
  | @handler expect body hpc _ _ => exact h.handled hpc expect body
  | @fork child hpc => exact (h.answering conf).1 child hpc
  | @execute cleanup run hpc => exact (h.answering conf).2 cleanup run hpc
  | @finalize a _ hstep =>
      rcases finalizeStep_cases hstep with ⟨rc, pc, inPhase, thread, hpc, rfl, hstart⟩ |
        ⟨status, hpc, _, rfl⟩
      · have hbody := call_finalizeRequest_keepsReader conf a rc s
        have hcleanup := (call_endsBy (finalizeRequest_endsBy conf a rc) s).cleanup
        refine h.late ⟨hbody.discard, hbody.reader⟩ hpc fun hone => ?_
        rcases hone with ht | hc
        · rcases hstart with hsame | ⟨_, hexit, _⟩
          · exact hs (Or.inl (hsame.symm.trans ht))
          · exact (h.early (Or.inr hexit)).2
        · exact hs (Or.inr (hcleanup.symm.trans hc))
      · obtain ⟨hthread, hcleanup⟩ := h.plain (Or.inr (by rw [hpc]; rfl))
        have hentry : ∀ m : Http, m.thread = s.thread → m.cleanup = s.cleanup →
            m.discardBody = s.discardBody → m.readHandler = s.readHandler →
            Threaded { m with pc := .special status } := by
          intro m ht hc hd hr
          refine ⟨fun hdiscard => hr.trans (h.discards (hd.symm.trans hdiscard)), fun hat => ?_,
            fun hat => (nomatch hat), fun hone => ?_⟩
          · rcases hat with hat | hat <;> cases hat
          · rcases hone with hone | hone
            · rw [show _ = m.thread from rfl, ht, hthread] at hone
              cases hone
            · rw [show _ = m.cleanup from rfl, hc, hcleanup] at hone
              cases hone
        unfold call
        split
        · exact hentry s rfl rfl rfl rfl
        split
        · exact hentry _ rfl rfl rfl rfl
        · exact hentry _ rfl rfl rfl rfl
  | @special p status hpc =>
      obtain ⟨hthread, hcleanup⟩ := h.plain (Or.inr (by rw [hpc]; rfl))
      obtain ⟨_, _, ht, hc⟩ := specialResponse_kept conf.filter p status s
      refine ⟨fun hdiscard => ?_, fun hat => ?_, fun hat => (nomatch hat), fun hone => ?_⟩
      · exact specialResponse_discards conf.filter p status h.discards hdiscard
      · rcases hat with hat | hat <;> cases hat
      · rw [show ∀ pc, ({ (specialResponse conf.filter p status s).2 with pc := pc } : Http).thread
            = s.thread from fun _ => ht, show ∀ pc, ({ (specialResponse conf.filter p status s).2 with
            pc := pc } : Http).cleanup = s.cleanup from fun _ => hc, hthread, hcleanup] at hone
        rcases hone with hone | hone <;> cases hone
  | @runPosted w a _ =>
      unfold runPostedStep
      split
      · exact h.late (.refl s) rfl hs
      split
      · have hbody := runWriteHandler_keepsReader conf false w a { s with posted := false }
        have hkept := runWriteHandler_kept conf false w a { s with posted := false }
        have hcleanup := (runWriteHandler_endsBy conf false w a { s with posted := false }).cleanup
        exact h.late ⟨hbody.discard, hbody.reader⟩ rfl fun hone =>
          hs (hone.imp (hkept.2.symm.trans ·) (hcleanup.symm.trans ·))
      · exact h.late (.refl s) rfl hs
  | @writable timedOut w a _ _ =>
      have hbody := runWriteHandler_keepsReader conf timedOut w a s.markWritable
      have hkept := runWriteHandler_kept conf timedOut w a s.markWritable
      have hcleanup := (runWriteHandler_endsBy conf timedOut w a s.markWritable).cleanup
      exact h.late ⟨hbody.discard, hbody.reader⟩ rfl fun hone =>
        hs (hone.imp (hkept.2.symm.trans ·) (hcleanup.symm.trans ·))
  | @readable ready body closed a hwaits =>
      exact h.read conf (waits_cases hwaits).2.1 body closed a ready
  | @lingering ends hwaits =>
      have hpc : s.pc = .idle := (waits_cases hwaits).1
      split
      · have hview := closeRequest_view s
        refine h.late (closeRequest_keepsReader s) ?_ fun hone => hs (hone.imp
          ((congrArg DrainView.thread hview).symm.trans ·)
          ((closeRequest_endsBy s).cleanup.symm.trans ·))
        rw [closeRequest_pc, hpc]
        rfl
      · exact h
  | @poll ends _ =>
      unfold pollStep
      split
      · split
        · exact ⟨h.discards, h.early, h.quiet, h.answered⟩
        · exact h
      · exact ⟨h.discards, h.early, h.quiet, h.answered⟩

/-- What another connection of the process is doing. -/
inductive OtherPhase
  /-- Nothing of a request has been read. -/
  | idle
  /-- A request is partly read. -/
  | reading
  /-- The response is unfinished. -/
  | responding
  | closed
  deriving DecidableEq, Repr

/-- Another connection, accepted by the process or inherited; `cleanup` says
that `waitIT` is a cleanup handler of its request's pool, as in a copy of the
connection an ancestor answers a POST or PUT on. -/
structure OtherConn where
  phase : OtherPhase
  cleanup : Bool
  deriving DecidableEq, Repr

/-- A partly read request or an unfinished response. -/
def OtherConn.busy (c : OtherConn) : Bool := c.phase == .reading || c.phase == .responding

/-- The same for the request the process was forked for. -/
def Http.busy (s : Http) : Bool := !s.freed && (!s.handled || s.resp.buffered)

/-- Whose request made `waitIT` end the process. -/
inductive ExitCause
  | own
  | other (c : Nat)
  deriving DecidableEq, Repr

/-- A process with a toxic request and its other connections. -/
structure Child where
  http : Http
  others : List OtherConn
  exitedBy : Option ExitCause
  deriving DecidableEq, Repr

/-- What happens next in the process: a step of the own request, a connection
accepted, or another connection's next phase. -/
inductive ChildEvent
  | own (event : HttpEvent)
  | accept
  | read (c : Nat)
  | respond (c : Nat)
  | finish (c : Nat)
  | close (c : Nat)
  deriving DecidableEq, Repr

/-- The script has ended the process, not `waitIT`. -/
def HttpEvent.endsInScript : HttpEvent → Bool
  | .execute _ none => true
  | _ => false

/-- The pool of another connection's request is destroyed. -/
def Child.destroyPool (c : Nat) (conn : OtherConn) (s : Child) : Child :=
  if conn.cleanup && conn.busy then
    { s with http := { s.http with exited := true }, exitedBy := some (.other c) }
  else s

def ChildEvent.isOwn : ChildEvent → Bool
  | .own _ => true
  | _ => false

/-- One step of `ngx_worker_process_cycle`: another connection gets its turn when the
process is back in its event loop. -/
def childStep (conf : HttpConf) (s : Child) (event : ChildEvent) : Option Child :=
  if s.http.exited || !(event.isOwn || s.http.pc == .idle) then none
  else
    match event with
    | .own event =>
        (httpStep conf s.http event).map fun t =>
          { s with
            http := t
            exitedBy := if t.exited && !event.endsInScript then some .own else s.exitedBy }
    | .accept => some { s with others := s.others ++ [⟨.idle, false⟩] }
    | .read c =>
        match s.others[c]? with
        | some conn =>
            if conn.phase = .idle then
              some { s with others := s.others.set c ⟨.reading, false⟩ }
            else none
        | none => none
    | .respond c =>
        match s.others[c]? with
        | some conn =>
            if conn.phase = .reading then
              some { s with others := s.others.set c { conn with phase := .responding } }
            else none
        | none => none
    | .finish c =>
        match s.others[c]? with
        | some conn =>
            if conn.phase = .responding then
              some ({ s with others := s.others.set c ⟨.idle, false⟩ }.destroyPool c conn)
            else none
        | none => none
    | .close c =>
        match s.others[c]? with
        | some conn => some ({ s with others := s.others.set c ⟨.closed, false⟩ }.destroyPool c conn)
        | none => none

/-- The process when the handler of its toxic request is called. -/
def Child.start (q : Incoming) (lingeringClose unread readReady readEof : Bool) (baseLen : Int)
    (others : List OtherConn) : Child :=
  ⟨Http.start q lingeringClose unread readReady readEof baseLen, others, none⟩

/-- No other connection is busy. -/
def Child.quiet (s : Child) : Bool := s.others.all fun c => !c.busy

/-- When `waitIT` has ended the process, no other connection was busy. -/
def ExitsAlone (s : Child) : Prop :=
  match s.exitedBy with
  | none => True
  | some .own => ∀ c ∈ s.others, c.busy = false
  | some (.other _) => s.http.busy = false ∧ ∀ c ∈ s.others, c.busy = false

/-- The steps under which `waitIT` takes nothing with it: those that let the
process end find the other connections quiet, and no request begins while a thread
is armed. -/
def AloneStep (conf : HttpConf) (s : Child) : ChildEvent → Prop
  | .own event => Ends conf s.http event → s.quiet = true
  | .read _ => s.http.armed = false
  | .finish c | .close c =>
      ∀ conn ∈ s.others[c]?, conn.cleanup = true → conn.busy = true →
        s.http.busy = false ∧ (s.others.eraseIdx c).all (fun d => !d.busy) = true
  | _ => True

instance (conf : HttpConf) (s : Child) (event : ChildEvent) :
    Decidable (AloneStep conf s event) := by
  cases event <;> unfold AloneStep <;> infer_instance

/-- The invariant of the process. -/
structure Alone (s : Child) : Prop where
  threaded : Threaded s.http
  armed : s.http.armed = true → s.quiet = true
  ended : s.exitedBy ≠ none → s.http.exited = true
  exits : ExitsAlone s

theorem Child.quiet_iff {s : Child} : s.quiet = true ↔ ∀ c ∈ s.others, c.busy = false := by
  simp [Child.quiet]

/-- A connection that is set to a quiet phase leaves the others as they were. -/
theorem quiet_set {others : List OtherConn} {c : Nat} {conn : OtherConn}
    (hconn : conn.busy = false)
    (hrest : (others.eraseIdx c).all (fun d => !d.busy) = true) :
    ∀ d ∈ others.set c conn, d.busy = false := by
  intro d hd
  obtain ⟨i, hi⟩ := List.mem_iff_getElem?.mp hd
  by_cases hic : i = c
  · subst hic
    rw [List.getElem?_set_self'] at hi
    obtain ⟨_, _, rfl⟩ := Option.map_eq_some_iff.mp hi
    exact hconn
  · rw [List.getElem?_set_ne (Ne.symm hic)] at hi
    have hmem : d ∈ others.eraseIdx c := List.mem_eraseIdx_iff_getElem?.mpr ⟨i, hic, hi⟩
    simpa using List.all_eq_true.mp hrest d hmem

/-- A connection of a quiet process that is set to a quiet phase. -/
theorem Child.quiet.set {s : Child} (h : s.quiet = true) {c : Nat} {conn : OtherConn}
    (hconn : conn.busy = false) : ∀ d ∈ s.others.set c conn, d.busy = false := by
  intro d hd
  rcases List.mem_or_eq_of_mem_set hd with hd | rfl
  · exact Child.quiet_iff.mp h d hd
  · exact hconn

/-- **The end of another connection's request.** -/
theorem Alone.destroyed {s : Child} (h : Alone s) (hrun : s.http.exited = false) {c : Nat}
    {conn conn' : OtherConn} (hconn' : conn'.busy = false)
    (hok : conn.cleanup = true → conn.busy = true →
      s.http.busy = false ∧ (s.others.eraseIdx c).all (fun d => !d.busy) = true) :
    Alone ({ s with others := s.others.set c conn' }.destroyPool c conn) := by
  have hnone : s.exitedBy = none := by
    by_contra hsome
    rw [h.ended hsome] at hrun
    cases hrun
  unfold Child.destroyPool
  split
  next hends =>
    rw [Bool.and_eq_true] at hends
    obtain ⟨hquiet, hrest⟩ := hok hends.1 hends.2
    have hset := quiet_set hconn' hrest
    refine ⟨⟨h.threaded.discards, h.threaded.early, h.threaded.quiet, h.threaded.answered⟩, ?_,
      fun _ => rfl, hquiet, hset⟩
    exact fun _ => Child.quiet_iff.mpr hset
  next =>
    refine ⟨h.threaded, ?_, ?_, ?_⟩
    · exact fun harmed => Child.quiet_iff.mpr (Child.quiet.set (h.armed harmed) hconn')
    · exact fun hsome => absurd hnone hsome
    · unfold ExitsAlone
      simp only [hnone]

/-- **A step of the own request.** -/
theorem Alone.own {conf : HttpConf} {s : Child} (h : Alone s) {event : HttpEvent} {t : Http}
    (hrun : s.http.exited = false) (hok : Ends conf s.http event → s.quiet = true)
    (hstep : httpStep conf s.http event = some t) :
    Alone { s with
      http := t
      exitedBy := if t.exited && !event.endsInScript then some .own else s.exitedBy } := by
  have hnone : s.exitedBy = none := by
    by_contra hsome
    rw [h.ended hsome] at hrun
    cases hrun
  refine ⟨h.threaded.step hstep, ?_, ?_, ?_⟩
  · intro harmed
    rcases httpStep_armed h.threaded hstep harmed with hbefore | hends
    · exact h.armed hbefore
    · exact hok hends
  · intro hsome
    by_contra hlives
    apply hsome
    simp [hlives, hnone]
  · unfold ExitsAlone
    by_cases hended : (t.exited && !event.endsInScript) = true
    · simp only [hended, if_true]
      rw [Bool.and_eq_true, Bool.not_eq_true'] at hended
      apply Child.quiet_iff.mp
      rcases httpStep_ends h.threaded hstep hended.1 with ⟨cleanup, hscript⟩ | ⟨_, _, harmed⟩ | hends
      · rw [hscript] at hended
        cases hended.2
      · exact h.armed harmed
      · exact hok hends
    · simp only [hended, hnone]
      trivial

/-- **Every step** that meets the condition keeps the invariant. -/
theorem Alone.step (conf : HttpConf) (s : Child) (event : ChildEvent) (t : Child) (h : Alone s)
    (hok : AloneStep conf s event) (hstep : childStep conf s event = some t) : Alone t := by
  unfold childStep at hstep
  split at hstep
  next => cases hstep
  next hruns =>
    rw [Bool.or_eq_true, not_or] at hruns
    have hrun : s.http.exited = false := Bool.eq_false_iff.mpr hruns.1
    have hnone : s.exitedBy = none := by
      by_contra hsome
      exact hruns.1 (h.ended hsome)
    have hexits : ∀ others, ExitsAlone { s with others := others } := by
      intro others
      unfold ExitsAlone
      simp only [hnone]
    cases event with
    | own event =>
        simp only [Option.map_eq_some_iff] at hstep
        obtain ⟨t', hown, rfl⟩ := hstep
        exact h.own hrun hok hown
    | accept =>
        obtain rfl := Option.some.inj hstep
        refine ⟨h.threaded, ?_, h.ended, hexits _⟩
        intro harmed
        apply Child.quiet_iff.mpr
        intro c hc
        rcases List.mem_append.mp hc with hc | hc
        · exact Child.quiet_iff.mp (h.armed harmed) c hc
        · obtain rfl := List.mem_singleton.mp hc
          rfl
    | read c =>
        cases hc : s.others[c]? with
        | none => simp [hc] at hstep
        | some conn =>
            simp only [hc, Option.ite_none_right_eq_some, Option.some.injEq] at hstep
            obtain ⟨_, rfl⟩ := hstep
            refine ⟨h.threaded, ?_, h.ended, hexits _⟩
            intro harmed
            exact absurd harmed (by rw [show s.http.armed = false from hok]; decide)
    | respond c =>
        cases hc : s.others[c]? with
        | none => simp [hc] at hstep
        | some conn =>
            simp only [hc, Option.ite_none_right_eq_some, Option.some.injEq] at hstep
            obtain ⟨hphase, rfl⟩ := hstep
            refine ⟨h.threaded, ?_, h.ended, hexits _⟩
            intro harmed
            have hquiet := Child.quiet_iff.mp (h.armed harmed) conn (List.mem_of_getElem? hc)
            simp [OtherConn.busy, hphase] at hquiet
    | finish c =>
        cases hc : s.others[c]? with
        | none => simp [hc] at hstep
        | some conn =>
            simp only [hc, Option.ite_none_right_eq_some, Option.some.injEq] at hstep
            obtain ⟨_, rfl⟩ := hstep
            exact h.destroyed hrun rfl (hok conn hc)
    | close c =>
        cases hc : s.others[c]? with
        | none => simp [hc] at hstep
        | some conn =>
            simp only [hc, Option.some.injEq] at hstep
            subst hstep
            exact h.destroyed hrun rfl (hok conn hc)

/-- The handler is called on a process that satisfies the invariant. -/
theorem Alone.start (q : Incoming) (lingeringClose unread readReady readEof : Bool)
    (baseLen : Int) (others : List OtherConn) :
    Alone (Child.start q lingeringClose unread readReady readEof baseLen others) := by
  refine ⟨⟨fun hdiscard => (nomatch hdiscard), fun _ => ⟨rfl, nofun, nofun, rfl⟩,
    fun _ => ⟨rfl, rfl⟩, fun hone => ?_⟩, fun harmed => ?_, fun hsome => ?_, trivial⟩
  · rcases hone with hone | hone <;> cases hone
  · cases harmed
  · exact absurd rfl hsome

/-- **`waitIT` takes nothing with it.**  In every run of a process with a toxic
request of any method, which accepts connections, reads requests and answers
them in any order, and whose steps meet `AloneStep`: when `waitIT` ends the
process, no other connection has a partly read request or an unfinished
response. -/
theorem exitsAlone_of_guarded (conf : HttpConf) (q : Incoming)
    (lingeringClose unread readReady readEof : Bool) (baseLen : Int) (others : List OtherConn)
    {events : List ChildEvent} {t : Child}
    (hrun : GuardedRun (childStep conf) (AloneStep conf)
      (Child.start q lingeringClose unread readReady readEof baseLen others) events t) :
    ExitsAlone t := by
  have h : Alone t := by
    apply hrun.invariant _
      (Alone.start q lingeringClose unread readReady readEof baseLen others)
    exact fun s event t h hok hstep => h.step conf s event t hok hstep
  exact h.exits

/-- A POST request whose body comes behind its header: the child runs the script, and
of the response the socket takes nothing yet. -/
def sampleForkRun : List ChildEvent :=
  [.own (.handler .unasked .more), .own (.finalize sampleFinalize),
    .own (.runPosted ⟨none, ⟨0, false⟩⟩ sampleFinalize),
    .own (.readable false (.whole false) false sampleFinalize), .own (.fork true),
    .own (.execute true (some ⟨⟨none, none, [], [[65]]⟩,
      ⟨⟨true, none, ⟨0, false⟩⟩, none, ⟨0, false⟩⟩⟩)),
    .own (.finalize sampleFinalize), .own (.runPosted ⟨none, ⟨0, false⟩⟩ sampleFinalize), .accept]

/-- `exitsAlone_of_guarded` for a child that answers another request before the
socket takes its own response. -/
theorem exitsAlone_of_guarded_sample :
    ∃ t, GuardedRun (childStep sampleHttpConf) (AloneStep sampleHttpConf)
        (Child.start ⟨.post, 1001, 0, true, false, true⟩ false false false false 0 [])
        (sampleForkRun ++ [.read 0, .respond 0, .finish 0,
          .own (.writable false ⟨none, ⟨4096, false⟩⟩ sampleFinalize)]) t ∧
      t.exitedBy = some .own ∧ ExitsAlone t := by
  have hended : (check (childStep sampleHttpConf) (AloneStep sampleHttpConf)
      (Child.start ⟨.post, 1001, 0, true, false, true⟩ false false false false 0 [])
      (sampleForkRun ++ [.read 0, .respond 0, .finish 0,
        .own (.writable false ⟨none, ⟨4096, false⟩⟩ sampleFinalize)])).map
          (·.exitedBy) = some (some .own) := by decide +kernel
  obtain ⟨t, hcheck, ht⟩ := Option.map_eq_some_iff.mp hended
  have hrun := guardedRun_iff_check.mpr hcheck
  exact ⟨t, hrun, ht, exitsAlone_of_guarded sampleHttpConf _ false false false false 0 [] hrun⟩

/-- A child that has read a part of another request when the writer finalizes its own
and the pool is destroyed. -/
theorem exit_takes_request :
    ∃ t, Run (childStep sampleHttpConf)
        (Child.start ⟨.post, 1001, 0, true, false, true⟩ false false false false 0 [])
        (sampleForkRun ++ [.read 0,
          .own (.writable false ⟨none, ⟨4096, false⟩⟩ sampleFinalize)]) t ∧
      t.exitedBy = some .own ∧ t.others = [⟨.reading, false⟩] ∧ ¬ ExitsAlone t := by
  have hended : (execute (childStep sampleHttpConf)
      (Child.start ⟨.post, 1001, 0, true, false, true⟩ false false false false 0 [])
      (sampleForkRun ++ [.read 0,
        .own (.writable false ⟨none, ⟨4096, false⟩⟩ sampleFinalize)])).map
          (fun t => (t.exitedBy, t.others)) = some (some .own, [⟨.reading, false⟩]) := by
    decide +kernel
  obtain ⟨t, hexec, ht⟩ := Option.map_eq_some_iff.mp hended
  obtain ⟨hown, hothers⟩ := Prod.mk.inj ht
  refine ⟨t, run_iff_execute.mpr hexec, hown, hothers, ?_⟩
  intro halone
  unfold ExitsAlone at halone
  simp only [hown, hothers] at halone
  have := halone ⟨.reading, false⟩ List.mem_cons_self
  cases this

end Toxic
