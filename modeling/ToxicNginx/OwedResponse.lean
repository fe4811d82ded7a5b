import ToxicNginx.ChildExit

/-!
# The response a process still owes

A process with a toxic request may come to answer it as long as `fork()` is to
come, the script is to run, or bytes of the response wait in `r->out`; after
that nothing makes it answer, but the refusal of a body, behind which `fork()` is
not called any more.  This file says so of every step of the process, with no
condition on the outside answers.

* `Http.owes` — the process may still write a byte of the response;
* `Answered` — the script has run, or the parent has left it to the child;
* `BodyPending`, `Declined` — the body is waited for, or was refused while it was
  read; `AsRead`, `Tidy` — what holds of a request before its script runs;
* `Tidy.step`, `Answered.step`, `Spent.step` — the step lemmas;
* `Effect`, `httpStep_effect` — what a step can do to the response;
* `httpStep_reads`, `httpStep_runs` — a body that is not whole stays pending,
  and a script that is to run is what runs next;
* `answersOnce_of_run` — over a whole run a process forks once and runs the
  script once, and a parent sends nothing but `100 Continue`.
-/

namespace Toxic

open ChunkQueue StepSystem

/-- `fork()` may still be called for the request. -/
def Http.unforked (s : Http) : Bool :=
  s.pc == .handler || s.pc == .forking || s.readHandler == .readBody

/-- Bytes of the response wait in `r->out`. -/
def Http.pending (s : Http) : Bool := !(contents s.resp.out).isEmpty

/-- The process may still write a byte of the response. -/
def Http.owes (s : Http) : Bool :=
  !s.freed && (s.unforked || s.pc == .executing || s.pending)

/-- A special response does not begin to read a body. -/
theorem specialResponse_reads (conf : FilterConf) (p : PageAnswers) (status : SpecialStatus)
    {s : Http} (hreads : s.readHandler ≠ .readBody) :
    (specialResponse conf p status s).2.readHandler ≠ .readBody := by
  unfold specialResponse
  dsimp only
  unfold discardRequestBody
  split
  · exact hreads
  · cases p.discard with
    | inHeader | closed => exact hreads
    | whole | more => exact nofun
    | refused waits =>
        cases waits with
        | true => exact nofun
        | false => exact hreads

/-- A step of a process that neither reads a body nor has one to handle begins neither. -/
theorem httpStep_late {conf : HttpConf} {s t : Http} {event : HttpEvent}
    (hreads : s.readHandler ≠ .readBody) (hpc : s.pc.unanswered = false)
    (hstep : httpStep conf s event = some t) :
    t.readHandler ≠ .readBody ∧ t.pc.unanswered = false := by
  obtain ⟨_, hstepped⟩ := httpStep_cases hstep
  cases hstepped with
  | @handler expect body hat _ _ => rw [hat] at hpc; cases hpc
  | @fork child hat => rw [hat] at hpc; cases hpc
  | @execute cleanup run hat => rw [hat] at hpc; cases hpc
  | @finalize a _ hstep =>
      rcases finalizeStep_cases hstep with ⟨rc, pc, inPhase, thread, hlate, rfl, _⟩ |
        ⟨status, _, _, rfl⟩
      · exact ⟨(call_finalizeRequest_keepsReader conf a rc s).reads hreads,
          (Pc.isLate.places hlate).1⟩
      · refine ⟨?_, rfl⟩
        unfold call
        split
        · exact hreads
        · split <;> exact hreads
  | @special p status _ =>
      exact ⟨specialResponse_reads conf.filter p status hreads, rfl⟩
  | @runPosted w a _ =>
      unfold runPostedStep
      split
      · exact ⟨hreads, rfl⟩
      split
      · exact ⟨(runWriteHandler_keepsReader conf false w a _).reads hreads, rfl⟩
      · exact ⟨hreads, rfl⟩
  | @writable timedOut w a _ _ =>
      exact ⟨(runWriteHandler_keepsReader conf timedOut w a s.markWritable).reads hreads, rfl⟩
  | @readable ready body closed a _ =>
      have hkept := runReadHandler_kept conf body closed a { s with readReady := ready }
      obtain ⟨hstill, hat⟩ := hkept.reads hreads
      exact ⟨hstill, by rw [hat]; rfl⟩
  | @lingering ends hwaits =>
      split
      · exact ⟨(closeRequest_keepsReader s).reads hreads, (closeRequest_pc s).symm ▸ hpc⟩
      · exact ⟨hreads, hpc⟩
  | @poll ends _ =>
      unfold pollStep
      split
      · split <;> exact ⟨hreads, hpc⟩
      · exact ⟨hreads, hpc⟩

/-- The script has run, or the parent has left it to the child: nothing of the
request is read, discarded or refused any more. -/
structure Answered (s : Http) : Prop where
  bodyless : s.Bodyless
  place : s.pc.isLate = true ∨ s.pc = .exitFinalize

theorem Answered.places {s : Http} (h : Answered s) :
    s.pc.unanswered = false ∧ s.pc.refuses = false := by
  rcases h.place with hpc | hpc
  · exact ⟨(Pc.isLate.places hpc).1, (Pc.isLate.places hpc).2.2⟩
  · rw [hpc]
    exact ⟨rfl, rfl⟩

/-- **Behind the answer** every step is. -/
theorem Answered.step {conf : HttpConf} {s t : Http} {event : HttpEvent} (h : Answered s)
    (hstep : httpStep conf s event = some t) : Answered t := by
  obtain ⟨hunanswered, hrefuses⟩ := h.places
  obtain ⟨_, hstepped⟩ := httpStep_cases hstep
  cases hstepped with
  | @handler expect body hat _ _ => rw [hat] at hunanswered; cases hunanswered
  | @fork child hat => rw [hat] at hunanswered; cases hunanswered
  | @execute cleanup run hat => rw [hat] at hunanswered; cases hunanswered
  | @finalize a _ hstep =>
      rcases finalizeStep_cases hstep with ⟨rc, pc, inPhase, thread, hlate, rfl, _⟩ |
        ⟨status, hat, _, rfl⟩
      · exact ⟨(call_finalizeRequest_keepsReader conf a rc s).bodyless h.bodyless, Or.inl hlate⟩
      · rw [hat] at hrefuses
        cases hrefuses
  | @special p status hat => rw [hat] at hrefuses; cases hrefuses
  | @runPosted w a _ =>
      unfold runPostedStep
      split
      · exact ⟨h.bodyless, Or.inl rfl⟩
      split
      · exact ⟨(runWriteHandler_keepsReader conf false w a { s with posted := false }).bodyless
          h.bodyless, Or.inl rfl⟩
      · exact ⟨h.bodyless, Or.inl rfl⟩
  | @writable timedOut w a _ _ =>
      exact ⟨(runWriteHandler_keepsReader conf timedOut w a s.markWritable).bodyless h.bodyless,
        Or.inl rfl⟩
  | @readable ready body closed a _ =>
      rcases runReadHandler_cases conf body closed a (s := { s with readReady := ready })
        h.bodyless with heq | heq <;> rw [heq]
      · exact ⟨h.bodyless, Or.inl rfl⟩
      · have hkeeps := finalizeRequest_keepsReader conf a .clientClosedRequest { s with
          readReady := ready, readEof := true, resp := { s.resp with error := true } }
        exact ⟨hkeeps.bodyless h.bodyless, Or.inl rfl⟩
  | @lingering ends hwaits =>
      split
      · exact ⟨(closeRequest_keepsReader s).bodyless h.bodyless, (closeRequest_pc s).symm ▸ h.place⟩
      · exact h
  | @poll ends _ =>
      unfold pollStep
      split
      · split
        · exact ⟨h.bodyless, h.place⟩
        · exact h
      · exact ⟨h.bodyless, h.place⟩

/-- A request of which nothing is answered and whose body is not waited for. -/
structure AsRead (s : Http) : Prop where
  freed : s.freed = false
  thread : s.thread = false
  out : s.resp.out = []
  interim : s.resp.wire <+: continueLine
  bodyless : s.Bodyless

/-- What holds of a request while its body is waited for, wherever the process is. -/
def BodyAwaited (s : Http) : Prop :=
  s.thread = false ∧ s.resp.out = [] ∧ s.resp.wire <+: continueLine ∧ s.resp.buffered = false ∧
    s.discardBody = false ∧ s.requestBody = true ∧ s.writeHandler ≠ .writer ∧
    (s.reader = .request ∨ s.reader = .closed)

theorem BodyAwaited.thread {s : Http} (h : BodyAwaited s) : s.thread = false := h.1

theorem BodyAwaited.out {s : Http} (h : BodyAwaited s) : s.resp.out = [] := h.2.1

theorem BodyAwaited.interim {s : Http} (h : BodyAwaited s) : s.resp.wire <+: continueLine := h.2.2.1

theorem BodyAwaited.buffered {s : Http} (h : BodyAwaited s) : s.resp.buffered = false := h.2.2.2.1

theorem BodyAwaited.discard {s : Http} (h : BodyAwaited s) : s.discardBody = false := h.2.2.2.2.1

theorem BodyAwaited.requestBody {s : Http} (h : BodyAwaited s) : s.requestBody = true :=
  h.2.2.2.2.2.1

theorem BodyAwaited.writeHandler {s : Http} (h : BodyAwaited s) : s.writeHandler ≠ .writer :=
  h.2.2.2.2.2.2.1

theorem BodyAwaited.reader {s : Http} (h : BodyAwaited s) :
    s.reader = .request ∨ s.reader = .closed :=
  h.2.2.2.2.2.2.2

/-- The terminate handler is posted. -/
def Http.terminating (s : Http) : Prop := s.posted = true ∧ s.writeHandler = .terminate

/-- A request whose body is waited for. -/
structure BodyPending (s : Http) : Prop where
  waits : BodyAwaited s
  place : (s.pc = .runPosted ∧ (s.freed = true ∨ s.count = 1 ∨ s.terminating)) ∨
    (s.pc = .idle ∧ (s.freed = true ∨ s.count = 1)) ∨
    ∃ rc, s.pc = .phaseFinalize rc ∧ ((rc = .ok ∧ s.count = 2) ∨ s.resp.error = true)

/-- A request whose body was refused while it was read: the read event handler is still
that of the body, but no read event comes to it. -/
structure Declined (s : Http) : Prop where
  thread : s.thread = false
  place : (s.pc.refuses = true ∧ s.count = 1 ∧ s.requestBody = true) ∨
    (∃ rc, s.pc = .phaseFinalize rc ∧ s.pc.refuses = false ∧ s.count = 1 ∧
      s.resp.keepalive = false) ∨
    (s.pc = .runPosted ∧ (s.freed = true ∨ (s.reader = .lingering ∧ s.writeHandler ≠ .writer) ∨
      s.terminating)) ∨
    (s.pc = .idle ∧ (s.freed = true ∨ (s.reader = .lingering ∧ s.writeHandler ≠ .writer)))

theorem BodyPending.late {s : Http} (h : BodyPending s) : s.pc.unanswered = false := by
  rcases h.place with ⟨hpc, _⟩ | ⟨hpc, _⟩ | ⟨rc, hpc, _⟩ <;> rw [hpc] <;> rfl

theorem Declined.late {s : Http} (h : Declined s) : s.pc.unanswered = false := by
  rcases h.place with ⟨hpc, _⟩ | ⟨rc, hpc, _⟩ | ⟨hpc, _⟩ | ⟨hpc, _⟩
  · cases hat : s.pc <;> rw [hat] at hpc <;> first | rfl | cases hpc
  all_goals
    rw [hpc]
    rfl

/-- What holds of a request until its script runs. -/
structure Tidy (s : Http) : Prop where
  called : s.pc = .handler → s.count = 1 ∧ s.resp.buffered = false ∧ s.writeHandler = .empty ∧
    s.reader = .request ∧ s.resp.wire = []
  early : s.pc.unanswered = true → AsRead s
  body : s.readHandler = .readBody → BodyPending s ∨ Declined s

/-- Behind the script nothing is asked of a request that waits for no body. -/
theorem Tidy.late {s : Http} (hpc : s.pc.unanswered = false) (hreads : s.readHandler ≠ .readBody) :
    Tidy s := by
  refine ⟨fun h => ?_, fun h => ?_, fun h => absurd h hreads⟩
  · rw [h] at hpc
    cases hpc
  · rw [hpc] at h
    cases h

/-- A request whose body is waited for or was refused. -/
theorem Tidy.reading {s : Http} (h : BodyPending s ∨ Declined s) : Tidy s := by
  have hpc : s.pc.unanswered = false := h.elim BodyPending.late Declined.late
  refine ⟨fun hat => ?_, fun hat => ?_, fun _ => h⟩
  · rw [hat] at hpc
    cases hpc
  · rw [hpc] at hat
    cases hat

/-- The handler is called on a tidy request. -/
theorem Tidy.start (q : Incoming) (lingeringClose unread readReady readEof : Bool)
    (baseLen : Int) : Tidy (Http.start q lingeringClose unread readReady readEof baseLen) :=
  ⟨fun _ => ⟨rfl, rfl, rfl, rfl, rfl⟩,
    fun _ => ⟨rfl, rfl, rfl, List.nil_prefix, nofun, nofun, rfl⟩, fun h => (nomatch h)⟩

/-- An error posts the terminate handler of a request whose body is waited for. -/
theorem BodyAwaited.terminated {s : Http} (h : BodyAwaited s) :
    BodyPending { terminateRequest s with pc := .runPosted } :=
  ⟨⟨h.thread, h.out, h.interim, h.buffered, h.discard, h.requestBody, nofun, h.reader⟩,
    Or.inl ⟨rfl, Or.inr (Or.inr ⟨rfl, rfl⟩)⟩⟩

/-- The content phase's finalization of such a request leaves it waiting. -/
theorem BodyAwaited.finalized (conf : HttpConf) (a : FinalizeAnswers) {rc : Rc} {s : Http}
    (h : BodyAwaited s) (hrc : (rc = .ok ∧ s.count = 2) ∨ s.resp.error = true) :
    (finalizeRequest conf a rc s).readHandler = s.readHandler ∧
      BodyPending { finalizeRequest conf a rc s with pc := .runPosted } := by
  by_cases herr : s.resp.error = true
  · rw [finalizeRequest_terminates conf a (Or.inr (Or.inr (Or.inr herr)))]
    exact ⟨rfl, h.terminated⟩
  obtain ⟨rfl, hcount⟩ := hrc.resolve_right herr
  rw [finalizeRequest_shared conf a (by simp [Rc.Fine]) (Bool.eq_false_iff.mpr herr) h.buffered
    hcount fun hdiscard => absurd hdiscard (by simp [h.discard])]
  exact ⟨rfl, ⟨h.thread, h.out, h.interim, h.buffered, h.discard, h.requestBody, by simp, h.reader⟩,
    Or.inl ⟨rfl, Or.inr (Or.inl rfl)⟩⟩

/-- The write event handler of such a request. -/
theorem BodyAwaited.ranWriteHandler (conf : HttpConf) (timedOut : Bool) (w : WriteAnswers)
    (a : FinalizeAnswers) {s : Http} (h : BodyAwaited s)
    (hplace : s.freed = true ∨ s.count = 1 ∨ s.writeHandler = .terminate) :
    (runWriteHandler conf timedOut w a s).readHandler = s.readHandler ∧
      BodyPending { runWriteHandler conf timedOut w a s with pc := .runPosted } := by
  cases hhandler : s.writeHandler with
  | empty =>
      rw [runWriteHandler_empty conf timedOut w a hhandler]
      refine ⟨rfl, h, Or.inl ⟨rfl, ?_⟩⟩
      rcases hplace with hfreed | hcount | hterm
      · exact Or.inl hfreed
      · exact Or.inr (Or.inl hcount)
      · rw [hhandler] at hterm
        cases hterm
  | terminate =>
      rw [runWriteHandler_terminate conf timedOut w a hhandler]
      have hclose : terminateHandler s
          = { freeRequest { s with count := 0 } with reader := .closed } := by
        unfold terminateHandler closeRequest
        rw [if_neg Nat.one_ne_zero, if_pos rfl]
      rw [hclose]
      exact ⟨rfl, ⟨h.thread, h.out, h.interim, h.buffered, h.discard, h.requestBody,
        h.writeHandler, Or.inr rfl⟩, Or.inl ⟨rfl, Or.inl rfl⟩⟩
  | writer => exact absurd hhandler h.writeHandler

/-- **A pending body.**  Every step leaves the body pending, but the read event that
finds it whole or refuses it. -/
theorem BodyPending.step {conf : HttpConf} {s t : Http} {event : HttpEvent} (h : BodyPending s)
    (hreads : s.readHandler = .readBody) (hstep : httpStep conf s event = some t) :
    (t.readHandler = .readBody ∧
      (BodyPending t ∨ (Declined t ∧ t.pc.refuses = true ∧ t.reader = s.reader))) ∨
    (∃ ready unread closed a, event = .readable ready (.whole unread) closed a ∧
      s.freed = false ∧
      t = { s with
        readReady := ready, readHandler := .blockReading, unread := unread, pc := .forking }) := by
  obtain ⟨hrun, hstepped⟩ := httpStep_cases hstep
  have hpc : ∀ pc : Pc, pc.unanswered = true → s.pc ≠ pc := by
    intro pc hun hpc
    rw [← hpc, h.late] at hun
    cases hun
  -- a process that waits for events has one user of the request left
  have hidle : s.waits .request = true → s.freed = false ∧ s.count = 1 := by
    intro hwaits
    obtain ⟨hat, hfreed, _⟩ := waits_cases hwaits
    refine ⟨hfreed, ?_⟩
    rcases h.place with ⟨hother, _⟩ | ⟨_, hgone | hcount⟩ | ⟨rc, hother, _⟩
    · rw [hat] at hother
      cases hother
    · rw [hfreed] at hgone
      cases hgone
    · exact hcount
    · rw [hat] at hother
      cases hother
  cases hstepped with
  | @handler expect body hat _ _ => exact absurd hat (hpc _ rfl)
  | @fork child hat => exact absurd hat (hpc _ rfl)
  | @execute cleanup run hat => exact absurd hat (hpc _ rfl)
  | @special p status hat =>
      rcases h.place with ⟨hother, _⟩ | ⟨hother, _⟩ | ⟨rc, hother, _⟩ <;> rw [hat] at hother <;>
        cases hother
  | @finalize a _ hstep =>
      left
      rcases h.place with ⟨hat, _⟩ | ⟨hat, _⟩ | ⟨rc, hat, hrc⟩
      · simp [finalizeStep, hat] at hstep
      · simp [finalizeStep, hat] at hstep
      · rcases finalizeStep_phase hat hstep with ⟨status, hspecial, herr, _⟩ | ⟨_, rfl⟩
        · rcases hrc with ⟨hok, _⟩ | herr'
          · rw [hok] at hspecial
            cases hspecial
          · rw [herr] at herr'
            cases herr'
        · unfold call
          rw [hrun, if_neg Bool.false_ne_true]
          by_cases hfreed : s.freed = true
          · rw [if_pos hfreed]
            exact ⟨hreads, Or.inl ⟨h.waits, Or.inl ⟨rfl, Or.inl hfreed⟩⟩⟩
          · rw [if_neg hfreed]
            obtain ⟨hstill, hpending⟩ := h.waits.finalized conf a hrc
            refine ⟨hstill.trans hreads, Or.inl ⟨hpending.waits, Or.inl ⟨rfl, ?_⟩⟩⟩
            rcases hpending.place with ⟨_, hplace⟩ | ⟨hat', _⟩ | ⟨_, hat', _⟩
            · exact hplace
            · cases hat'
            · cases hat'
  | @runPosted w a hat =>
      left
      have hplace : s.freed = true ∨ s.count = 1 ∨ s.terminating := by
        rcases h.place with ⟨_, hplace⟩ | ⟨hother, _⟩ | ⟨rc, hother, _⟩
        · exact hplace
        · rw [hat] at hother
          cases hother
        · rw [hat] at hother
          cases hother
      unfold runPostedStep
      split
      next hfreed => exact ⟨hreads, Or.inl ⟨h.waits, Or.inr (Or.inl ⟨rfl, Or.inl hfreed⟩)⟩⟩
      next hfreed =>
        split
        · obtain ⟨hstill, hpending⟩ := BodyAwaited.ranWriteHandler conf false w a
            (s := { s with posted := false }) h.waits
            (hplace.imp_right fun hrest => hrest.imp_right fun hterm => hterm.2)
          exact ⟨hstill.trans hreads, Or.inl hpending⟩
        next hposted =>
          refine ⟨hreads, Or.inl ⟨h.waits, Or.inr (Or.inl ⟨rfl, ?_⟩)⟩⟩
          rcases hplace with hgone | hcount | hterm
          · exact Or.inl hgone
          · exact Or.inr hcount
          · exact absurd hterm.1 hposted
  | @writable timedOut w a hwaits _ =>
      left
      obtain ⟨hstill, hpending⟩ := BodyAwaited.ranWriteHandler conf timedOut w a
        (s := s.markWritable) h.waits (Or.inr (Or.inl (hidle hwaits).2))
      exact ⟨hstill.trans hreads, Or.inl hpending⟩
  | @readable ready body closed a hwaits =>
      obtain ⟨hfreed, hcount⟩ := hidle hwaits
      have hready : BodyAwaited { s with readReady := ready } := h.waits
      rw [runReadHandler_readBody conf body closed a (s := { s with readReady := ready }) hreads]
      cases body with
      | whole unread => exact Or.inr ⟨ready, unread, closed, a, rfl, hfreed, rfl⟩
      | more => exact Or.inl ⟨hreads, Or.inl ⟨h.waits, Or.inl ⟨rfl, Or.inr (Or.inl hcount)⟩⟩⟩
      | closed failed =>
          left
          have herror : BodyAwaited
              { s with readReady := ready, resp := { s.resp with error := true } } := h.waits
          obtain ⟨hstill, hpending⟩ := @BodyAwaited.finalized conf a
            (.special .badRequest) _ herror (Or.inr rfl)
          exact ⟨hstill.trans hreads, Or.inl hpending⟩
      | timedOut =>
          left
          rw [finalizeRequest_terminates conf a (Or.inr (Or.inl rfl))]
          exact ⟨hreads, Or.inl hready.terminated⟩
      | refused status stage =>
          left
          exact ⟨hreads, Or.inr ⟨⟨h.waits.thread, Or.inl ⟨rfl, hcount, h.waits.requestBody⟩⟩,
            rfl, rfl⟩⟩
  | @lingering ends hwaits =>
      have := (waits_cases hwaits).2.2
      rcases h.waits.reader with hreader | hreader <;> rw [hreader] at this <;> cases this
  | @poll ends hthread =>
      rw [h.waits.thread] at hthread
      cases hthread

/-- The finalization of a special response whose request has no other user: the response
waits and the read event handler is another one, or the connection is closed or lingers. -/
theorem finalizeRequest_declined (conf : HttpConf) (a : FinalizeAnswers) (rc : Rc) {s : Http}
    (hcount : s.count = 1) (hkeep : s.resp.keepalive = false) :
    (finalizeRequest conf a rc s).readHandler ≠ .readBody ∨
      (finalizeRequest conf a rc s).freed = true ∨
      ((finalizeRequest conf a rc s).reader = .lingering ∧
        (finalizeRequest conf a rc s).writeHandler ≠ .writer) ∨
      (finalizeRequest conf a rc s).terminating := by
  have hclose : ∀ m : Http, m.count = 1 → (closeRequest m).freed = true := by
    intro m hm
    unfold closeRequest
    rw [if_neg (by omega), if_pos hm]
    rfl
  unfold finalizeRequest setWriteHandler
  split
  · exact Or.inr (Or.inr (Or.inr ⟨rfl, rfl⟩))
  split
  · left
    by_cases hevent : a.writeEvent = true
    · simp only [hevent, if_true]
      exact s.writingReader_ne
    · simp only [hevent, if_false, Bool.false_eq_true]
      have hkeeps := closeRequest_keepsReader { s with
        readHandler := s.writingReader, writeHandler := .writer, writeTimer := true }
      have hreads := hkeeps.reads s.writingReader_ne
      unfold call
      split
      · exact hreads
      · split <;> exact hreads
  · dsimp only
    split
    · exact Or.inr (Or.inl (hclose _ hcount))
    · unfold finalizeConnection
      rw [if_neg (fun h => h hcount)]
      simp only [hkeep, Bool.and_false, Bool.false_eq_true, if_false]
      split
      · unfold setLingeringClose
        dsimp only
        split
        · exact Or.inr (Or.inl (hclose _ hcount))
        split
        · exact Or.inr (Or.inl (hclose _ hcount))
        split
        · split
          · exact Or.inr (Or.inr (Or.inl ⟨rfl, nofun⟩))
          · exact Or.inr (Or.inl (hclose _ hcount))
        · exact Or.inr (Or.inr (Or.inl ⟨rfl, nofun⟩))
      · exact Or.inr (Or.inl (hclose _ hcount))

/-- The finalization of a refused request, by the content phase or behind its special
response. -/
theorem Declined.finalized (conf : HttpConf) (a : FinalizeAnswers) (rc : Rc) {s : Http}
    (hrun : s.exited = false) (hthread : s.thread = false) (hcount : s.count = 1)
    (hcloses : s.resp.keepalive = false ∨ s.resp.error = true)
    (hreads : ({ call (finalizeRequest conf a rc) s with pc := .runPosted, inPhase := false } :
      Http).readHandler = .readBody) :
    Declined { call (finalizeRequest conf a rc) s with pc := .runPosted, inPhase := false } := by
  refine ⟨(congrArg DrainView.thread (call_finalizeRequest_view conf a rc s)).trans hthread,
    Or.inr (Or.inr (Or.inl ⟨rfl, ?_⟩))⟩
  unfold call at hreads ⊢
  rw [if_neg (by rw [hrun]; exact Bool.false_ne_true)] at hreads ⊢
  by_cases hfreed : s.freed = true
  · rw [if_pos hfreed]
    exact Or.inl hfreed
  rw [if_neg hfreed] at hreads ⊢
  rcases hcloses with hkeep | herr
  · exact (finalizeRequest_declined conf a rc hcount hkeep).resolve_left fun hnot => hnot hreads
  · rw [finalizeRequest_terminates conf a (Or.inr (Or.inr (Or.inr herr)))]
    exact Or.inr (Or.inr ⟨rfl, rfl⟩)

/-- The special response of such a request, which has `r->request_body` set. -/
theorem Declined.special (conf : FilterConf) (p : PageAnswers) (status : SpecialStatus) {s : Http}
    (hthread : s.thread = false) (hcount : s.count = 1) (hbody : s.requestBody = true) :
    Declined { (specialResponse conf p status s).2 with
      pc := .phaseFinalize (specialResponse conf p status s).1 } := by
  unfold specialResponse
  dsimp only
  unfold discardRequestBody
  rw [if_pos (by rw [show Http.requestBody _ = s.requestBody from rfl, hbody]; rfl)]
  obtain ⟨_, hkeep, hrc⟩ := sendSpecialResponse_kept conf p status
    { s.resp with errStatus := status.code, keepalive := false }
  refine ⟨hthread, Or.inr (Or.inl ⟨_, rfl, ?_, hcount, hkeep⟩)⟩
  rcases hrc with hrc | hrc | hrc <;> dsimp only <;> rw [hrc] <;> rfl

/-- **A refused body** is not read any more. -/
theorem Declined.step {conf : HttpConf} {s t : Http} {event : HttpEvent} (h : Declined s)
    (hstep : httpStep conf s event = some t) :
    t.pc.unanswered = false ∧ (t.readHandler = .readBody → Declined t) := by
  obtain ⟨hrun, hstepped⟩ := httpStep_cases hstep
  have hpc : ∀ pc : Pc, pc.unanswered = true → s.pc ≠ pc := by
    intro pc hun hpc
    rw [← hpc, h.late] at hun
    cases hun
  have hidle : s.pc = .idle → s.freed = false →
      s.reader = .lingering ∧ s.writeHandler ≠ .writer := by
    intro hat hfreed
    rcases h.place with ⟨hother, _⟩ | ⟨rc, hother, _⟩ | ⟨hother, _⟩ | ⟨_, hplace⟩
    · rw [hat] at hother
      cases hother
    · rw [hat] at hother
      cases hother
    · rw [hat] at hother
      cases hother
    · exact hplace.resolve_left (by rw [hfreed]; exact Bool.false_ne_true)
  cases hstepped with
  | @handler expect body hat _ _ => exact absurd hat (hpc _ rfl)
  | @fork child hat => exact absurd hat (hpc _ rfl)
  | @execute cleanup run hat => exact absurd hat (hpc _ rfl)
  | @finalize a _ hstep =>
      rcases h.place with ⟨hrefuses, hcount, hbody⟩ | ⟨rc, hat, hrefuses, hcount, hkeep⟩ |
        ⟨hat, _⟩ | ⟨hat, _⟩
      · cases hat : s.pc with
        | phaseFinalize rc =>
            rcases finalizeStep_phase hat hstep with ⟨status, _, _, rfl⟩ | ⟨hspecial, rfl⟩
            · refine ⟨rfl, fun _ => ?_⟩
              unfold call
              split
              · exact ⟨h.thread, Or.inl ⟨rfl, hcount, hbody⟩⟩
              · split <;> exact ⟨h.thread, Or.inl ⟨rfl, hcount, hbody⟩⟩
            · refine ⟨rfl, Declined.finalized conf a rc hrun h.thread hcount (Or.inr ?_)⟩
              rw [hat] at hrefuses
              cases rc with
              | special status => exact hspecial status rfl
              | ok | error | again | requestTimeOut | clientClosedRequest => cases hrefuses
        | special status => simp [finalizeStep, hat] at hstep
        | handler | forking | executing | exitFinalize | postFinalize | handlerFinalize | runPosted
        | idle =>
            rw [hat] at hrefuses
            cases hrefuses
      · rcases finalizeStep_phase hat hstep with ⟨status, hrc, _, _⟩ | ⟨_, rfl⟩
        · rw [hat, hrc] at hrefuses
          cases hrefuses
        · exact ⟨rfl, Declined.finalized conf a rc hrun h.thread hcount (Or.inl hkeep)⟩
      · simp [finalizeStep, hat] at hstep
      · simp [finalizeStep, hat] at hstep
  | @special p status hat =>
      refine ⟨rfl, fun _ => ?_⟩
      rcases h.place with ⟨_, hcount, hbody⟩ | ⟨rc, hother, _⟩ | ⟨hother, _⟩ | ⟨hother, _⟩
      · exact Declined.special conf.filter p status h.thread hcount hbody
      all_goals
        rw [hat] at hother
        cases hother
  | @runPosted w a hat =>
      have hplace : s.freed = true ∨ (s.reader = .lingering ∧ s.writeHandler ≠ .writer) ∨
          s.terminating := by
        rcases h.place with ⟨hother, _⟩ | ⟨rc, hother, _⟩ | ⟨_, hplace⟩ | ⟨hother, _⟩
        · rw [hat] at hother
          cases hother
        · rw [hat] at hother
          cases hother
        · exact hplace
        · rw [hat] at hother
          cases hother
      unfold runPostedStep
      split
      next hfreed =>
        exact ⟨rfl, fun _ => ⟨h.thread, Or.inr (Or.inr (Or.inr ⟨rfl, Or.inl hfreed⟩))⟩⟩
      next hfreed =>
        have hplace := hplace.resolve_left hfreed
        split
        · refine ⟨rfl, fun _ => ⟨?_, Or.inr (Or.inr (Or.inl ⟨rfl, ?_⟩))⟩⟩
          · exact (runWriteHandler_kept conf false w a { s with posted := false }).2.trans h.thread
          · have hquiet : s.writeHandler ≠ .writer := by
              rcases hplace with hlingers | hterm
              · exact hlingers.2
              · rw [hterm.2]
                decide
            by_cases hterm : s.writeHandler = .terminate
            · rw [runWriteHandler_terminate conf false w a (s := { s with posted := false }) hterm]
              exact Or.inl rfl
            · have hempty : s.writeHandler = .empty := by
                cases hhandler : s.writeHandler with
                | empty => rfl
                | terminate => exact absurd hhandler hterm
                | writer => exact absurd hhandler hquiet
              rw [runWriteHandler_empty conf false w a (s := { s with posted := false }) hempty]
              exact Or.inr (hplace.imp_right fun h => absurd h.2 hterm)
        next hposted =>
          refine ⟨rfl, fun _ => ⟨h.thread, Or.inr (Or.inr (Or.inr ⟨rfl, Or.inr ?_⟩))⟩⟩
          exact hplace.resolve_right fun hterm => hposted hterm.1
  | @writable timedOut w a hwaits _ =>
      obtain ⟨hat, hfreed, hreader⟩ := waits_cases hwaits
      rw [(hidle hat hfreed).1] at hreader
      cases hreader
  | @readable ready body closed a hwaits =>
      obtain ⟨hat, hfreed, hreader⟩ := waits_cases hwaits
      rw [(hidle hat hfreed).1] at hreader
      cases hreader
  | @lingering ends hwaits =>
      obtain ⟨hat, hfreed, _⟩ := waits_cases hwaits
      obtain ⟨hreader, hwriter⟩ := hidle hat hfreed
      have hstays : Declined s :=
        ⟨h.thread, Or.inr (Or.inr (Or.inr ⟨hat, Or.inr ⟨hreader, hwriter⟩⟩))⟩
      split
      · refine ⟨(closeRequest_pc s).symm ▸ h.late, fun _ => ?_⟩
        unfold closeRequest
        split
        · exact ⟨h.thread, Or.inr (Or.inr (Or.inr ⟨hat, Or.inr ⟨hreader, hwriter⟩⟩))⟩
        split
        · exact ⟨h.thread, Or.inr (Or.inr (Or.inr ⟨hat, Or.inl rfl⟩))⟩
        · exact ⟨h.thread, Or.inr (Or.inr (Or.inr ⟨hat, Or.inr ⟨hreader, hwriter⟩⟩))⟩
      · exact ⟨h.late, fun _ => hstays⟩
  | @poll ends hthread =>
      rw [h.thread] at hthread
      cases hthread

/-- `fork()` is not called for the request any more. -/
structure Spent (s : Http) : Prop where
  late : s.pc.unanswered = false
  declined : s.readHandler = .readBody → Declined s

theorem Answered.spent {s : Http} (h : Answered s) : Spent s :=
  ⟨h.places.1, fun hreads => absurd hreads h.bodyless.1⟩

/-- It never is again. -/
theorem Spent.step {conf : HttpConf} {s t : Http} {event : HttpEvent} (h : Spent s)
    (hstep : httpStep conf s event = some t) : Spent t := by
  by_cases hreads : s.readHandler = .readBody
  · obtain ⟨hlate, hdeclined⟩ := (h.declined hreads).step hstep
    exact ⟨hlate, hdeclined⟩
  · obtain ⟨hstill, hlate⟩ := httpStep_late hreads h.late hstep
    exact ⟨hlate, fun hread => absurd hread hstill⟩

/-- The handler leaves a tidy request. -/
theorem Tidy.handled {s : Http} (h : Tidy s) (hpc : s.pc = .handler) (expect : Expect)
    (body : BodyRead) : Tidy (toxicHandler expect body s) := by
  obtain ⟨hcount, hbuffered, hwriter, hreader, hwire⟩ := h.called hpc
  have huntouched := h.early (by rw [hpc]; rfl)
  obtain ⟨hreads, _, hdiscard⟩ := huntouched.bodyless
  have hout : (testExpect expect s.resp).out = [] := by
    rw [← huntouched.out]
    cases expect <;> rfl
  have hinterim : (testExpect expect s.resp).wire <+: continueLine := by
    cases expect with
    | unasked => exact huntouched.interim
    | sent =>
        rw [show (testExpect .sent s.resp).wire = s.resp.wire ++ continueLine from rfl, hwire]
        exact List.prefix_rfl
    | failed taken writeReady =>
        rw [show (testExpect (.failed taken writeReady) s.resp).wire
          = s.resp.wire ++ continueLine.take taken from rfl, hwire]
        exact List.take_prefix _ _
  have hbuffered' : (testExpect expect s.resp).buffered = false := by
    rw [← hbuffered]
    cases expect <;> rfl
  have hwaits : ∀ count pc (error : Bool), BodyAwaited { s with
      resp := { testExpect expect s.resp with error := error }
      requestBody := true, count := count, readHandler := .readBody, writeHandler := .empty
      pc := pc } := fun count pc error =>
    ⟨huntouched.thread, hout, hinterim, hbuffered', hdiscard, rfl, nofun, Or.inl hreader⟩
  have hrefused : ∀ m : Http, m.pc.unanswered = false → m.readHandler ≠ .readBody → Tidy m :=
    fun m => Tidy.late
  unfold toxicHandler
  split
  · cases body with
    | whole unread =>
        exact ⟨fun hat => (nomatch hat),
          fun _ => ⟨huntouched.freed, huntouched.thread, hout, hinterim, huntouched.bodyless⟩,
          fun hread => absurd hread hreads⟩
    | closed failed =>
        exact Tidy.reading (Or.inl ⟨hwaits s.count _ true,
          Or.inr (Or.inr ⟨.special .badRequest, rfl, Or.inr rfl⟩)⟩)
    | more | timedOut =>
        refine Tidy.reading (Or.inl ⟨hwaits (s.count + 1) _ (testExpect expect s.resp).error,
          Or.inr (Or.inr ⟨.ok, rfl, Or.inl ⟨rfl, ?_⟩⟩)⟩)
        dsimp only
        rw [hcount]
    | refused status stage =>
        cases stage with
        | unset | preread => exact hrefused _ rfl hreads
        | reading =>
            exact Tidy.reading (Or.inr ⟨huntouched.thread, Or.inl ⟨rfl, hcount, rfl⟩⟩)
  · exact ⟨fun hat => (nomatch hat),
      fun _ => ⟨huntouched.freed, huntouched.thread, huntouched.out, huntouched.interim,
        huntouched.bodyless⟩, fun hread => absurd hread hreads⟩

/-- The handler queues nothing. -/
theorem toxicHandler_out (expect : Expect) (body : BodyRead) (s : Http) :
    (toxicHandler expect body s).resp.out = s.resp.out := by
  unfold toxicHandler
  split
  · cases body with
    | refused status stage => cases stage <;> exact testExpect_out expect s.resp
    | whole | closed | more | timedOut => exact testExpect_out expect s.resp
  · rfl

/-- The handler sends nothing but `100 Continue`. -/
theorem toxicHandler_interim {s : Http} (hwire : s.resp.wire = []) (expect : Expect)
    (body : BodyRead) : (toxicHandler expect body s).resp.wire <+: continueLine := by
  have hexpect : (testExpect expect s.resp).wire <+: continueLine := by
    cases expect with
    | unasked => exact hwire ▸ List.nil_prefix
    | sent =>
        rw [show (testExpect .sent s.resp).wire = s.resp.wire ++ continueLine from rfl, hwire]
        exact List.prefix_rfl
    | failed taken writeReady =>
        rw [show (testExpect (.failed taken writeReady) s.resp).wire
          = s.resp.wire ++ continueLine.take taken from rfl, hwire]
        exact List.take_prefix _ _
  unfold toxicHandler
  split
  · cases body with
    | refused status stage => cases stage <;> exact hexpect
    | whole | closed | more | timedOut => exact hexpect
  · exact hwire ▸ List.nil_prefix

/-- Both branches behind `fork()`. -/
theorem Tidy.forked {s : Http} (h : Tidy s) (hpc : s.pc = .forking) (child : Bool) :
    Tidy (forked child s) := by
  have huntouched := h.early (by rw [hpc]; rfl)
  have hreads := huntouched.bodyless.1
  unfold Toxic.forked
  split
  · exact ⟨fun hat => (nomatch hat),
      fun _ => ⟨huntouched.freed, huntouched.thread, huntouched.out, huntouched.interim,
        huntouched.bodyless⟩, fun hread => absurd hread hreads⟩
  · split <;> exact Tidy.late rfl hreads

/-- The child's part up to its finalization. -/
theorem Tidy.executed {s : Http} (h : Tidy s) (hpc : s.pc = .executing) (conf : HttpConf)
    (cleanup : Bool) (run : Option ScriptRun) : Tidy (executed conf cleanup run s) := by
  have huntouched := h.early (by rw [hpc]; rfl)
  have hreads := huntouched.bodyless.1
  unfold Toxic.executed
  split
  · exact Tidy.late (Pc.isLate.places s.afterPostBody_isLate).1 hreads
  · cases run with
    | none =>
        exact ⟨h.called, fun _ => ⟨huntouched.freed, huntouched.thread, huntouched.out,
          huntouched.interim, huntouched.bodyless⟩, fun hread => absurd hread hreads⟩
    | some run => exact Tidy.late rfl hreads

/-- What is next for a request of which nothing is answered. -/
theorem httpStep_unanswered {conf : HttpConf} {s t : Http} {event : HttpEvent}
    (hpc : s.pc.unanswered = true) (hthread : s.thread = false)
    (hstep : httpStep conf s event = some t) :
    (s.pc = .handler ∧ ∃ expect body, event = .handler expect body ∧
      t = toxicHandler expect body s) ∨
    (s.pc = .forking ∧ ∃ child, event = .fork child ∧ t = Toxic.forked child s) ∨
    (s.pc = .executing ∧ ∃ cleanup run, event = .execute cleanup run ∧
      t = Toxic.executed conf cleanup run s) := by
  obtain ⟨_, hstepped⟩ := httpStep_cases hstep
  cases hstepped with
  | @handler expect body hat _ _ => exact Or.inl ⟨hat, expect, body, rfl, rfl⟩
  | @fork child hat => exact Or.inr (Or.inl ⟨hat, child, rfl, rfl⟩)
  | @execute cleanup run hat => exact Or.inr (Or.inr ⟨hat, cleanup, run, rfl, rfl⟩)
  | @finalize a _ hstep =>
      cases hat : s.pc <;> rw [hat] at hpc <;>
        first | (simp [finalizeStep, hat] at hstep; done) | cases hpc
  | @special p status hat => rw [hat] at hpc; cases hpc
  | @runPosted w a hat => rw [hat] at hpc; cases hpc
  | @writable timedOut w a hwaits _ => rw [(waits_cases hwaits).1] at hpc; cases hpc
  | @readable ready body closed a hwaits => rw [(waits_cases hwaits).1] at hpc; cases hpc
  | @lingering ends hwaits => rw [(waits_cases hwaits).1] at hpc; cases hpc
  | @poll ends hpoll => rw [hthread] at hpoll; cases hpoll

/-- **Every step** leaves the request tidy. -/
theorem Tidy.step {conf : HttpConf} {s t : Http} {event : HttpEvent} (h : Tidy s)
    (hstep : httpStep conf s event = some t) : Tidy t := by
  by_cases hpc : s.pc.unanswered = true
  · rcases httpStep_unanswered hpc (h.early hpc).thread hstep with
      ⟨hat, expect, body, _, rfl⟩ | ⟨hat, child, _, rfl⟩ | ⟨hat, cleanup, run, _, rfl⟩
    · exact h.handled hat expect body
    · exact h.forked hat child
    · exact h.executed hat conf cleanup run
  have hlate : s.pc.unanswered = false := Bool.eq_false_iff.mpr hpc
  by_cases hreads : s.readHandler = .readBody
  · rcases h.body hreads with hbody | hdeclined
    · rcases hbody.step hreads hstep with ⟨_, hstill⟩ | ⟨ready, unread, _, _, _, hfreed, rfl⟩
      · exact Tidy.reading (hstill.imp_right And.left)
      · exact ⟨fun hat => (nomatch hat), fun _ => ⟨hfreed, hbody.waits.thread, hbody.waits.out,
          hbody.waits.interim, nofun, nofun, hbody.waits.discard⟩, fun hread => (nomatch hread)⟩
    · obtain ⟨hpc', hstill⟩ := hdeclined.step hstep
      by_cases hread : t.readHandler = .readBody
      · exact Tidy.reading (Or.inr (hstill hread))
      · exact Tidy.late hpc' hread
  · obtain ⟨hstill, hpc'⟩ := httpStep_late hreads hlate hstep
    exact Tidy.late hpc' hstill

/-- Without a new chain the output filter only adds to what is sent, and it
sends nothing when nothing waits. -/
theorem outputFilter_nil_wire (conf : FilterConf) (w : WriteAnswers) (r : Response) :
    r.wire.length ≤ (outputFilter conf w [] r).2.wire.length ∧
      (contents r.out = [] → (outputFilter conf w [] r).2.wire = r.wire ∧
        contents (outputFilter conf w [] r).2.out = []) := by
  by_cases herr : r.error = true
  · rw [outputFilter, writeFilter_refused conf w [] herr]
    exact ⟨le_rfl, fun h => ⟨rfl, h⟩⟩
  rcases writeFilter_nil conf w (Bool.eq_false_iff.mpr herr) with ⟨_, hw⟩ | ⟨hpacked, hout, hw⟩
  · rw [outputFilter, hw]
    exact ⟨le_rfl, fun h => ⟨rfl, h⟩⟩
  have hsome : contents r.out ≠ [] := List.length_pos_iff.mp (hpacked.contents_length_pos hout)
  refine ⟨?_, fun h => absurd h hsome⟩
  have hwire : r.wire.length ≤ (writeOut w.send r).2.wire.length := by
    by_cases hready : r.writeReady = true
    · by_cases hfail : w.send.failed = true
      · rw [writeOut_failed hready hfail]
        simp
      · rw [writeOut_taken hready (Bool.eq_false_iff.mpr hfail)]
        simp
    · rw [writeOut_blocked (Bool.eq_false_iff.mpr hready) hout]
  rw [outputFilter, hw]
  split
  next heq =>
    rw [heq] at hwire
    exact hwire
  next => exact hwire

/-- The socket takes bytes behind those it has. -/
theorem writeFilter_grows (conf : FilterConf) (w : WriteAnswers) (new : List OutBuf)
    (r : Response) : r.wire <+: (writeFilter conf w new r).2.wire := by
  have hout : ∀ r : Response, r.wire <+: (writeOut w.send r).2.wire := by
    intro r
    by_cases hready : r.writeReady = true
    · by_cases hfail : w.send.failed = true
      · rw [writeOut_failed hready hfail]
        exact List.prefix_append _ _
      · rw [writeOut_taken hready (Bool.eq_false_iff.mpr hfail)]
        exact List.prefix_append _ _
    · have hblocked : r.writeReady = false := Bool.eq_false_iff.mpr hready
      by_cases hnil : r.out = []
      · simp [writeOut, sendChain, hblocked, hnil]
      · rw [writeOut_blocked hblocked hnil]
  unfold writeFilter
  split
  · exact List.prefix_rfl
  split
  · exact List.prefix_rfl
  dsimp only
  split
  · exact List.prefix_rfl
  split
  · exact List.prefix_rfl
  split
  · split <;> exact List.prefix_rfl
  · exact hout { r with out := r.out ++ (linkChain w.links new).1 }

theorem outputFilter_grows (conf : FilterConf) (w : WriteAnswers) (new : List OutBuf)
    (r : Response) : r.wire <+: (outputFilter conf w new r).2.wire := by
  have h := writeFilter_grows conf w new r
  unfold outputFilter
  split
  next hwrite =>
    rw [hwrite] at h
    exact h
  next => exact h

theorem sendHeader_grows (conf : FilterConf) (a : HeaderAnswers) (r : Response) :
    r.wire <+: (sendHeader conf a r).2.wire := by
  have hrules : ∀ r : Response, (statusRules r).wire = r.wire := by
    intro r
    unfold statusRules
    split
    · rfl
    · split <;> rfl
  have hprepare : ∀ r : Response, (prepareHeader r).wire = r.wire := by
    intro r
    unfold prepareHeader
    rw [hrules]
    split <;> rfl
  have hheader : ∀ r : Response, r.wire <+: (headerFilter conf a r).2.wire := by
    intro r
    unfold headerFilter
    split
    · exact List.prefix_rfl
    split
    · exact List.prefix_rfl
    dsimp only
    split
    · rw [hprepare]
    · exact (hprepare r) ▸ writeFilter_grows conf a.write _ (prepareHeader r)
  unfold sendHeader
  split
  · exact List.prefix_rfl
  · split
    · exact hheader r
    · exact hheader { r with headersOut := { r.headersOut with status := r.errStatus } }

/-- What was sent before the script stays in front of the response. -/
theorem exitRequestSend_grows (conf : FilterConf) (a : ExitAnswers) (baseLen : Int)
    (chain : List NgxBuf) (script : ScriptResult) (r : Response) :
    r.wire <+: (exitRequestSend conf a baseLen chain (callStart script r)).final.wire := by
  have hcall : (callStart script r).wire = r.wire := by
    unfold callStart
    split <;> rfl
  have hheader := sendHeader_grows conf a.header { callStart script r with
    headersOut := { (callStart script r).headersOut with contentLengthN := baseLen } }
  rw [show Response.wire _ = (callStart script r).wire from rfl, hcall] at hheader
  unfold exitRequestSend
  dsimp only
  split
  · exact hheader
  · exact hheader.trans (outputFilter_grows ..)

/-- The steps that are no `fork()` and send neither `100 Continue` nor the page of a
refusal. -/
def HttpEvent.isPlain : HttpEvent → Bool
  | .fork _ | .special _ => false
  | .handler expect _ => expect == .unasked
  | _ => true

/-- What a plain step does to the response. -/
structure Effect (s t : Http) : Prop where
  freed : s.freed = true → t.freed = true
  unforked : t.unforked = true → s.unforked = true
  executing : t.pc = .executing → s.pc = .executing
  grows : s.resp.wire.length ≤ t.resp.wire.length
  sends : s.resp.wire.length ≠ t.resp.wire.length → s.freed = false
  quiet : s.pc ≠ .executing → s.pending = false →
    t.pending = false ∧ t.resp.wire = s.resp.wire

theorem Http.pending_iff {s : Http} : s.pending = false ↔ contents s.resp.out = [] := by
  simp [Http.pending]

theorem Http.unforked_iff {s : Http} :
    s.unforked = true ↔ s.pc = .handler ∨ s.pc = .forking ∨ s.readHandler = .readBody := by
  simp [Http.unforked, or_assoc]

/-- A step that leaves the response alone and does not go back to `fork()` or
the script. -/
theorem Effect.frame {s t : Http} (hfreed : s.freed = true → t.freed = true)
    (hview : t.view = s.view) (hpc : t.pc.unanswered = true → t.pc = s.pc)
    (hreads : t.readHandler = .readBody → s.unforked = true) : Effect s t := by
  simp only [Http.view, DrainView.mk.injEq] at hview
  refine ⟨hfreed, fun h => ?_, fun h => ?_, ?_, fun h => ?_, fun _ h => ⟨?_, ?_⟩⟩
  · rw [Http.unforked_iff] at h
    rcases h with h | h | h
    · exact Http.unforked_iff.mpr (Or.inl ((hpc (by rw [h]; rfl)).symm.trans h))
    · exact Http.unforked_iff.mpr (Or.inr (Or.inl ((hpc (by rw [h]; rfl)).symm.trans h)))
    · exact hreads h
  · exact (hpc (by rw [h]; rfl)).symm.trans h
  · rw [hview.2.2.2.1]
  · exact absurd (by rw [hview.2.2.2.1]) h
  · rw [Http.pending, hview.2.1]
    exact h
  · exact hview.2.2.2.1

/-- **The write event handler** sends what waits in `r->out`. -/
theorem runWriteHandler_effect (conf : HttpConf) (timedOut : Bool) (w : WriteAnswers)
    (a : FinalizeAnswers) {s : Http} (hfreed : s.freed = false) :
    Effect s { runWriteHandler conf timedOut w a s with pc := .runPosted } := by
  have hreads : (runWriteHandler conf timedOut w a s).readHandler = .readBody →
      s.unforked = true := by
    intro hread
    rw [Http.unforked_iff]
    by_contra hnot
    have hnot' : s.readHandler ≠ .readBody := fun h => hnot (Or.inr (Or.inr h))
    exact (runWriteHandler_keepsReader conf timedOut w a s).reads hnot' hread
  have hlate : ∀ {m : Http}, m.view = s.view → m.readHandler =
      (runWriteHandler conf timedOut w a s).readHandler →
      Effect s { m with pc := .runPosted } := by
    intro m hview hsame
    refine Effect.frame (fun h => ?_) hview (fun h => ?_) (fun h => hreads (hsame ▸ h))
    · rw [hfreed] at h
      cases h
    · cases h
  cases hhandler : s.writeHandler with
  | empty => exact hlate (by rw [runWriteHandler_empty conf timedOut w a hhandler]) rfl
  | terminate =>
      refine hlate ?_ rfl
      rw [runWriteHandler_terminate conf timedOut w a hhandler]
      exact closeRequest_view _
  | writer =>
      by_cases htimed : timedOut = true
      · refine hlate ?_ rfl
        rw [runWriteHandler_writer conf timedOut w a hhandler, if_pos htimed]
        exact finalizeRequest_view conf a .requestTimeOut s
      rw [runWriteHandler_writer conf timedOut w a hhandler, if_neg htimed] at hreads ⊢
      have hview := writer_onlySends conf w a s
      simp only [Http.view, DrainView.mk.injEq] at hview
      obtain ⟨hgrows, hquiet⟩ := outputFilter_nil_wire conf.filter w s.resp
      refine ⟨fun h => ?_, fun h => ?_, fun h => ?_, ?_, fun _ => hfreed, fun _ h => ?_⟩
      · rw [hfreed] at h
        cases h
      · rw [Http.unforked_iff] at h
        rcases h with h | h | h
        · cases h
        · cases h
        · exact hreads h
      · cases h
      · rw [hview.2.2.2.1]
        exact hgrows
      · obtain ⟨hwire, hout⟩ := hquiet (Http.pending_iff.mp h)
        refine ⟨Http.pending_iff.mpr ?_, ?_⟩
        · rw [hview.2.1]
          exact hout
        · exact hview.2.2.2.1.trans hwire

/-- The entry of a special response leaves the request as it is. -/
theorem specialEntry_effect (status : SpecialStatus) (s : Http) :
    Effect s { call (fun s => { s with writeTimer := false, reader := .request }) s with
      pc := .special status } := by
  have hentry : ∀ m : Http, m.freed = s.freed → m.view = s.view →
      m.readHandler = s.readHandler → Effect s { m with pc := .special status } := by
    intro m hfreed hview hreads
    refine Effect.frame (fun h => hfreed.trans h) hview (fun h => (nomatch h)) fun h => ?_
    exact Http.unforked_iff.mpr (Or.inr (Or.inr (hreads.symm.trans h)))
  unfold call
  split
  · exact hentry s rfl rfl rfl
  split
  · exact hentry _ rfl rfl rfl
  · exact hentry _ rfl rfl rfl

/-- **Every plain step** writes only what waits in `r->out`, but for the script, and
does not go back to `fork()` or the script. -/
theorem httpStep_effect {conf : HttpConf} {s t : Http} {event : HttpEvent} (h : Tidy s)
    (hstep : httpStep conf s event = some t) (hplain : event.isPlain = true) : Effect s t := by
  obtain ⟨_, hstepped⟩ := httpStep_cases hstep
  cases hstepped with
  | @handler expect body hpc _ _ =>
      have hun : s.unforked = true := Http.unforked_iff.mpr (Or.inl hpc)
      obtain rfl : expect = .unasked := of_decide_eq_true hplain
      have hmoved : ∀ m : Http, m.freed = s.freed → m.pc ≠ .executing →
          m.resp.wire = s.resp.wire → m.resp.out = s.resp.out → Effect s m := by
        intro m hfreed hexecuting hwire hout
        refine ⟨fun hs => hfreed.trans hs, fun _ => hun, fun hat => absurd hat hexecuting,
          by rw [hwire], fun hne => absurd (by rw [hwire]) hne, fun _ hs => ⟨?_, hwire⟩⟩
        rw [Http.pending, hout]
        exact hs
      unfold toxicHandler
      split
      · cases body with
        | refused status stage => cases stage <;> exact hmoved _ rfl (by simp [Http.refuse]) rfl rfl
        | whole | closed | more | timedOut => exact hmoved _ rfl (by simp) rfl rfl
      · exact hmoved _ rfl (by simp) rfl rfl
  | @fork child _ => cases hplain
  | @special p status _ => cases hplain
  | @execute cleanup run hpc =>
      have huntouched := h.early (by rw [hpc]; rfl)
      have hlate : ∀ {m : Http}, m.freed = s.freed → m.pc ≠ .handler → m.pc ≠ .forking →
          m.readHandler = s.readHandler → s.resp.wire.length ≤ m.resp.wire.length →
          Effect s m := by
        intro m hfreed hhandler hforking hread hgrows
        refine ⟨fun hs => hfreed.trans hs, fun h => ?_, fun _ => hpc, hgrows,
          fun _ => huntouched.freed, fun hnot => absurd hpc hnot⟩
        rw [Http.unforked_iff] at h
        rcases h with h | h | h
        · exact absurd h hhandler
        · exact absurd h hforking
        · exact absurd (hread.symm.trans h) huntouched.bodyless.1
      unfold executed
      split
      · unfold Http.afterPostBody
        split <;> exact hlate rfl (by simp) (by simp) rfl le_rfl
      · cases run with
        | none => exact hlate rfl (by rw [hpc]; simp) (by rw [hpc]; simp) rfl le_rfl
        | some run => exact hlate rfl (by simp) (by simp) rfl (exitRequestSend_grows ..).length_le
  | @finalize a _ hstep =>
      rcases finalizeStep_cases hstep with ⟨rc, pc, inPhase, thread, hlate, rfl, _⟩ |
        ⟨status, _, _, rfl⟩
      · have hpc := (Pc.isLate.places hlate).1
        have hends := call_endsBy (finalizeRequest_endsBy conf a rc) s
        have hview := call_finalizeRequest_view conf a rc s
        simp only [Http.view, DrainView.mk.injEq] at hview
        refine ⟨hends.freed, fun h => ?_, fun h => ?_, ?_, fun h => ?_, fun _ h => ⟨?_, ?_⟩⟩
        · rw [Http.unforked_iff] at h
          rcases h with h | h | h
          · rw [show pc = .handler from h] at hpc
            cases hpc
          · rw [show pc = .forking from h] at hpc
            cases hpc
          · by_contra hnot
            have hnot' : s.readHandler ≠ .readBody := by
              intro hread
              exact hnot (Http.unforked_iff.mpr (Or.inr (Or.inr hread)))
            exact (call_finalizeRequest_keepsReader conf a rc s).reads hnot' h
        · rw [show pc = .executing from h] at hpc
          cases hpc
        · rw [hview.2.2.2.1]
        · exact absurd (by rw [hview.2.2.2.1]) h
        · rw [Http.pending, hview.2.1]
          exact h
        · exact hview.2.2.2.1
      · exact specialEntry_effect status s
  | @runPosted w a hpc =>
      have hidle : Effect s { s with pc := .idle } := by
        refine Effect.frame id rfl (fun h => ?_) fun h => ?_
        · cases h
        · exact Http.unforked_iff.mpr (Or.inr (Or.inr h))
      unfold runPostedStep
      split
      · exact hidle
      next hfreed =>
        split
        · have heffect := runWriteHandler_effect conf false w a (s := { s with posted := false })
            (Bool.eq_false_iff.mpr hfreed)
          exact ⟨heffect.freed, heffect.unforked, heffect.executing, heffect.grows, heffect.sends,
            heffect.quiet⟩
        · exact hidle
  | @writable timedOut w a hwaits _ =>
      have heffect := runWriteHandler_effect conf timedOut w a (s := s.markWritable)
        (waits_cases hwaits).2.1
      exact ⟨heffect.freed, heffect.unforked, heffect.executing, heffect.grows, heffect.sends,
        heffect.quiet⟩
  | @readable ready body closed a hwaits =>
      have hkept := runReadHandler_kept conf body closed a { s with readReady := ready }
      obtain ⟨hidle, hfreed, _⟩ := waits_cases hwaits
      have hgone : ∀ m : Http, s.freed = true → m.freed = true :=
        fun m hs => absurd hs (by rw [hfreed]; decide)
      by_cases hreads : s.readHandler = .readBody
      · have hun : s.unforked = true := Http.unforked_iff.mpr (Or.inr (Or.inr hreads))
        rcases h.body hreads with hbody | hdeclined
        · rcases hbody.step hreads hstep with ⟨_, hstill⟩ | ⟨_, unread, _, _, _, _, heq⟩
          · have hlate : (runReadHandler conf body closed a
                { s with readReady := ready }).pc.unanswered = false :=
              hstill.elim BodyPending.late fun h => Declined.late h.1
            refine Effect.frame (hgone _) hkept.view (fun hat => ?_) fun _ => hun
            rw [hlate] at hat
            cases hat
          · rw [heq]
            exact ⟨id, fun _ => hun, fun hat => absurd hat (by simp), le_rfl,
              fun hne => absurd rfl hne,
              fun _ hs => ⟨hs, rfl⟩⟩
        · obtain ⟨hlate, _⟩ := hdeclined.step hstep
          refine Effect.frame (hgone _) hkept.view (fun hat => ?_) fun _ => hun
          rw [hlate] at hat
          cases hat
      · obtain ⟨hstill, hpc⟩ := hkept.reads hreads
        refine Effect.frame (hgone _) hkept.view (fun hat => ?_) fun hread => absurd hread hstill
        rw [hpc] at hat
        cases hat
  | @lingering ends hwaits =>
      split
      · refine Effect.frame (closeRequest_endsBy s).freed (closeRequest_view s)
          (fun _ => closeRequest_pc s) fun hread => ?_
        by_contra hnot
        have hnot' : s.readHandler ≠ .readBody :=
          fun hs => hnot (Http.unforked_iff.mpr (Or.inr (Or.inr hs)))
        exact (closeRequest_keepsReader s).reads hnot' hread
      · exact Effect.frame id rfl (fun _ => rfl)
          fun h => Http.unforked_iff.mpr (Or.inr (Or.inr h))
  | @poll ends _ =>
      have hsame : ∀ stale exited : Bool,
          Effect s { s with staleRead := stale, exited := exited } :=
        fun stale exited => ⟨id, id, id, le_rfl, fun h => absurd rfl h, fun _ h => ⟨h, rfl⟩⟩
      unfold pollStep
      split
      · split
        · exact hsame s.staleRead true
        · exact hsame s.staleRead s.exited
      · exact hsame _ _

/-- **A script that is to run** is what runs next. -/
theorem httpStep_runs {conf : HttpConf} {s t : Http} {event : HttpEvent} (h : Tidy s)
    (hpc : s.pc = .executing) (hstep : httpStep conf s event = some t) :
    ∃ cleanup run, event = .execute cleanup run := by
  have hun : s.pc.unanswered = true := by
    rw [hpc]
    rfl
  rcases httpStep_unanswered hun (h.early hun).thread hstep with
    ⟨hat, _⟩ | ⟨hat, _⟩ | ⟨_, cleanup, run, hevent, _⟩
  · rw [hpc] at hat
    cases hat
  · rw [hpc] at hat
    cases hat
  · exact ⟨cleanup, run, hevent⟩

/-- A request whose response nothing will make the process send. -/
structure Silent (s : Http) : Prop where
  answered : Answered s
  pending : s.pending = false
  interim : s.resp.wire <+: continueLine

def HttpEvent.isFork : HttpEvent → Bool
  | .fork _ => true
  | _ => false

def HttpEvent.isExecute : HttpEvent → Bool
  | .execute _ _ => true
  | _ => false

/-- A step behind the answer is plain and does not run the script. -/
theorem Answered.plain {conf : HttpConf} {s t : Http} {event : HttpEvent} (h : Answered s)
    (hstep : httpStep conf s event = some t) :
    event.isPlain = true ∧ event.isFork = false ∧ event.isExecute = false := by
  obtain ⟨hunanswered, hrefuses⟩ := h.places
  obtain ⟨_, hstepped⟩ := httpStep_cases hstep
  cases hstepped with
  | handler hat _ _ => rw [hat] at hunanswered; cases hunanswered
  | fork hat => rw [hat] at hunanswered; cases hunanswered
  | execute hat => rw [hat] at hunanswered; cases hunanswered
  | special hat => rw [hat] at hrefuses; cases hrefuses
  | finalize | runPosted | writable | readable | lingering | poll => exact ⟨rfl, rfl, rfl⟩

/-- A silent process stays silent. -/
theorem Silent.step {conf : HttpConf} {s t : Http} {event : HttpEvent} (h : Silent s)
    (htidy : Tidy s) (hstep : httpStep conf s event = some t) : Silent t := by
  have hpc : s.pc ≠ .executing := by
    intro hpc
    have := h.answered.places.1
    rw [hpc] at this
    cases this
  have heffect := httpStep_effect htidy hstep (h.answered.plain hstep).1
  obtain ⟨hpending, hwire⟩ := heffect.quiet hpc h.pending
  exact ⟨h.answered.step hstep, hpending, hwire ▸ h.interim⟩

/-- The state of a process by what it has done: `fork()` has not been called, or
the body was refused and never will be, or the process is the parent and silent, or it
is the child, which runs the script next or has run it. -/
inductive Told (s : Http) (past : List HttpEvent) : Prop
  | before (hforks : past.countP HttpEvent.isFork = 0)
      (hruns : past.countP HttpEvent.isExecute = 0) (hpc : s.pc ≠ .executing)
      (hpending : s.pending = false) (hinterim : s.resp.wire <+: continueLine)
  | refused (hforks : past.countP HttpEvent.isFork = 0)
      (hruns : past.countP HttpEvent.isExecute = 0) (hpage : ∃ p, .special p ∈ past)
      (hspent : Spent s)
  | parent (hforks : past.countP HttpEvent.isFork = 1)
      (hruns : past.countP HttpEvent.isExecute = 0) (hsilent : Silent s)
  | forked (hforks : past.countP HttpEvent.isFork = 1)
      (hruns : past.countP HttpEvent.isExecute = 0) (hchild : .fork true ∈ past)
      (hpc : s.pc = .executing)
  | child (hforks : past.countP HttpEvent.isFork = 1)
      (hruns : past.countP HttpEvent.isExecute = 1) (hchild : .fork true ∈ past)
      (hdone : s.exited = true ∨ Answered s)

/-- What one more step adds to a count. -/
theorem count_snoc {past : List HttpEvent} {event : HttpEvent} {P : HttpEvent → Bool} :
    (past ++ [event]).countP P = past.countP P + if P event then 1 else 0 := by
  simp [List.countP_append]

/-- A step that is neither `fork()` nor the script leaves the counts. -/
theorem counts_snoc {past : List HttpEvent} {event : HttpEvent} {m n : Nat}
    (hforks : past.countP HttpEvent.isFork = m) (hruns : past.countP HttpEvent.isExecute = n)
    (hfork : event.isFork = false) (hexec : event.isExecute = false) :
    (past ++ [event]).countP HttpEvent.isFork = m ∧
      (past ++ [event]).countP HttpEvent.isExecute = n := by
  rw [count_snoc, count_snoc, hforks, hruns, hfork, hexec]
  exact ⟨rfl, rfl⟩

/-- `fork()` for a request that is tidy and of which nothing waits. -/
theorem Told.forks {s : Http} {past : List HttpEvent} (htidy : Tidy s)
    (hforks : past.countP HttpEvent.isFork = 0) (hruns : past.countP HttpEvent.isExecute = 0)
    (hpending : s.pending = false) (hinterim : s.resp.wire <+: continueLine)
    (hpc : s.pc = .forking) (child : Bool) :
    Told (Toxic.forked child s) (past ++ [.fork child]) := by
  have huntouched := htidy.early (by rw [hpc]; rfl)
  have hforks' : (past ++ [HttpEvent.fork child]).countP HttpEvent.isFork = 1 := by
    rw [count_snoc, hforks]
    rfl
  have hruns' : (past ++ [HttpEvent.fork child]).countP HttpEvent.isExecute = 0 := by
    rw [count_snoc, hruns]
    rfl
  cases child with
  | true => exact Told.forked hforks' hruns' (by simp) rfl
  | false =>
      refine Told.parent hforks' hruns' ?_
      unfold Toxic.forked
      rw [if_neg Bool.false_ne_true]
      split <;> exact ⟨⟨huntouched.bodyless, Or.inl rfl⟩, hpending, hinterim⟩

theorem Told.step {conf : HttpConf} {s t : Http} {past : List HttpEvent} {event : HttpEvent}
    (h : Told s past) (htidy : Tidy s) (hstep : httpStep conf s event = some t) :
    Told t (past ++ [event]) := by
  obtain ⟨hrun, hstepped⟩ := httpStep_cases hstep
  cases h with
  | before hforks hruns hpc hpending hinterim =>
      have hplain : event.isPlain = true → event.isExecute = false →
          Told t (past ++ [event]) := by
        intro hplain hexec
        have hfork : event.isFork = false := by
          cases event <;> first | rfl | cases hplain
        obtain ⟨hforks', hruns'⟩ := counts_snoc hforks hruns hfork hexec
        have heffect := httpStep_effect htidy hstep hplain
        obtain ⟨hpending', hwire⟩ := heffect.quiet hpc hpending
        exact Told.before hforks' hruns' (fun hat => hpc (heffect.executing hat)) hpending'
          (hwire ▸ hinterim)
      cases hstepped with
      | @handler expect body hat _ _ =>
          obtain ⟨hforks', hruns'⟩ := counts_snoc hforks hruns
            (rfl : HttpEvent.isFork (.handler expect body) = false) rfl
          have hafter := htidy.handled hat expect body
          -- what the handler leaves is waited for, read or refused, and nothing is pending
          refine Told.before hforks' hruns' ?_ ?_ ?_
          · unfold toxicHandler
            split
            · cases body with
              | refused status stage => cases stage <;> exact nofun
              | whole | closed | more | timedOut => exact nofun
            · exact nofun
          · rw [Http.pending, toxicHandler_out]
            exact hpending
          · exact toxicHandler_interim (htidy.called hat).2.2.2.2 expect body
      | @fork child hat => exact Told.forks htidy hforks hruns hpending hinterim hat child
      | @execute cleanup run hat => exact absurd hat hpc
      | @special p status hat =>
          obtain ⟨hforks', hruns'⟩ := counts_snoc hforks hruns
            (rfl : HttpEvent.isFork (.special p) = false) rfl
          refine Told.refused hforks' hruns' ⟨p, by simp⟩ ⟨rfl, fun hread => ?_⟩
          by_cases hreads : s.readHandler = .readBody
          · rcases htidy.body hreads with hbody | hdeclined
            · rcases hbody.place with ⟨hother, _⟩ | ⟨hother, _⟩ | ⟨rc, hother, _⟩ <;>
                rw [hat] at hother <;> cases hother
            · exact (hdeclined.step hstep).2 hread
          · exact absurd hread (specialResponse_reads conf.filter p status hreads)
      | finalize | runPosted | writable | readable | lingering | poll => exact hplain rfl rfl
  | refused hforks hruns hpage hspent =>
      have hspent' := hspent.step hstep
      have hquiet : event.isFork = false ∧ event.isExecute = false := by
        have hlate := hspent.late
        cases hstepped with
        | fork hat => rw [hat] at hlate; cases hlate
        | execute hat => rw [hat] at hlate; cases hlate
        | handler | finalize | special | runPosted | writable | readable | lingering | poll =>
            exact ⟨rfl, rfl⟩
      obtain ⟨hforks', hruns'⟩ := counts_snoc hforks hruns hquiet.1 hquiet.2
      obtain ⟨p, hp⟩ := hpage
      exact Told.refused hforks' hruns' ⟨p, List.mem_append_left _ hp⟩ hspent'
  | parent hforks hruns hsilent =>
      obtain ⟨_, hfork, hexec⟩ := hsilent.answered.plain hstep
      obtain ⟨hforks', hruns'⟩ := counts_snoc hforks hruns hfork hexec
      exact Told.parent hforks' hruns' (hsilent.step htidy hstep)
  | forked hforks hruns hchild hpc =>
      obtain ⟨cleanup, run, rfl⟩ := httpStep_runs htidy hpc hstep
      have huntouched := htidy.early (by rw [hpc]; rfl)
      cases hstepped with
      | execute _ =>
          refine Told.child ?_ ?_ (List.mem_append_left _ hchild) ?_
          · rw [count_snoc, hforks]
            rfl
          · rw [count_snoc, hruns]
            rfl
          · unfold executed
            split
            · exact Or.inr ⟨huntouched.bodyless, Or.inl s.afterPostBody_isLate⟩
            · cases run with
              | none => exact Or.inl rfl
              | some run => exact Or.inr ⟨huntouched.bodyless, Or.inr rfl⟩
  | child hforks hruns hchild hdone =>
      have hanswered := hdone.resolve_left (by rw [hrun]; exact Bool.false_ne_true)
      obtain ⟨_, hfork, hexec⟩ := hanswered.plain hstep
      obtain ⟨hforks', hruns'⟩ := counts_snoc hforks hruns hfork hexec
      exact Told.child hforks' hruns' (List.mem_append_left _ hchild)
        (Or.inr (hanswered.step hstep))

/-- What a process does for its request: it calls `fork()` at most once and runs
the script at most once; the parent of a `fork()` never runs the script and sends
nothing but `100 Continue`; and a process that sends anything else is a child that has
run the script, or has refused the body and calls no `fork()`. -/
structure AnswersOnce (events : List HttpEvent) (t : Http) : Prop where
  forks : events.countP HttpEvent.isFork ≤ 1
  runs : events.countP HttpEvent.isExecute ≤ 1
  parent : .fork false ∈ events → events.countP HttpEvent.isExecute = 0 ∧
    t.resp.wire <+: continueLine ∧ contents t.resp.out = []
  answer : ¬ t.resp.wire <+: continueLine →
    (.fork true ∈ events ∧ events.countP HttpEvent.isExecute = 1) ∨
    (events.countP HttpEvent.isFork = 0 ∧ ∃ p, .special p ∈ events)

/-- **One process answers.**  In every run of a process from the call of the
handler on, with a request of any method and under any outside answers. -/
theorem answersOnce_of_run (conf : HttpConf) (q : Incoming)
    (lingeringClose unread readReady readEof : Bool) (baseLen : Int) {events : List HttpEvent}
    {t : Http}
    (hrun : Run (httpStep conf)
      (Http.start q lingeringClose unread readReady readEof baseLen) events t) :
    AnswersOnce events t := by
  have hstart : Tidy (Http.start q lingeringClose unread readReady readEof baseLen) ∧
      Told (Http.start q lingeringClose unread readReady readEof baseLen) [] :=
    ⟨Tidy.start _ _ _ _ _ _, Told.before rfl rfl nofun rfl List.nil_prefix⟩
  have hkeep : ∀ s past a m, (Tidy s ∧ Told s past) → httpStep conf s a = some m →
      (Tidy m ∧ Told m (past ++ [a])) :=
    fun s past a m h hstep => ⟨h.1.step hstep, h.2.step h.1 hstep⟩
  have hend : Tidy t ∧ Told t ([] ++ events) := hrun.history hkeep hstart
  obtain ⟨htidy, htold⟩ := hend
  rw [List.nil_append] at htold
  have hnone : events.countP HttpEvent.isFork = 0 → .fork false ∉ events := by
    intro hzero hmem
    have := List.countP_pos_iff.mpr ⟨_, hmem, (rfl : HttpEvent.isFork (.fork false) = true)⟩
    omega
  have hparent : .fork false ∈ events → .fork true ∈ events →
      events.countP HttpEvent.isFork ≠ 1 := by
    intro hfalse htrue hone
    obtain ⟨before, after, rfl⟩ := List.append_of_mem hfalse
    rw [List.countP_append, List.countP_cons_of_pos (by rfl)] at hone
    have hpos : ∀ l : List HttpEvent, .fork true ∈ l → 0 < l.countP HttpEvent.isFork :=
      fun l hl => List.countP_pos_iff.mpr ⟨_, hl, rfl⟩
    rcases List.mem_append.mp htrue with h | h
    · have := hpos before h
      omega
    · rcases List.mem_cons.mp h with h | h
      · cases h
      · have := hpos after h
        omega
  cases htold with
  | before hforks hruns _ _ hinterim =>
      exact ⟨by omega, by omega, fun hmem => absurd hmem (hnone hforks),
        fun hne => absurd hinterim hne⟩
  | refused hforks hruns hpage _ =>
      exact ⟨by omega, by omega, fun hmem => absurd hmem (hnone hforks),
        fun _ => Or.inr ⟨hforks, hpage⟩⟩
  | parent hforks hruns hsilent =>
      exact ⟨by omega, by omega,
        fun _ => ⟨hruns, hsilent.interim, Http.pending_iff.mp hsilent.pending⟩,
        fun hne => absurd hsilent.interim hne⟩
  | forked hforks hruns hchild hpc =>
      have huntouched := htidy.early (by rw [hpc]; rfl)
      exact ⟨by omega, by omega, fun hmem => absurd hforks (hparent hmem hchild),
        fun hne => absurd huntouched.interim hne⟩
  | child hforks hruns hchild _ =>
      exact ⟨by omega, by omega, fun hmem => absurd hforks (hparent hmem hchild),
        fun _ => Or.inl ⟨hchild, hruns⟩⟩

/-- A worker that asks for the body of a POST request, finds it invalid and answers
with a page. -/
def sampleRefusedRun : List HttpEvent :=
  [.handler .sent .more, .finalize sampleFinalize, .runPosted ⟨none, ⟨0, false⟩⟩ sampleFinalize,
    .readable false (.refused .badRequest .reading) false sampleFinalize,
    .finalize sampleFinalize,
    .special ⟨.inHeader, false, false, false, true, ⟨true, none, ⟨0, false⟩⟩, none, ⟨4096, false⟩⟩]

/-- `answersOnce_of_run` for that worker. -/
theorem answersOnce_of_run_sample :
    ∃ t, Run (httpStep sampleHttpConf)
        (Http.start ⟨.post, 1001, 0, true, false, true⟩ true false false false 0)
        sampleRefusedRun t ∧
      ¬ t.resp.wire <+: continueLine ∧ AnswersOnce sampleRefusedRun t := by
  have hsent : (execute (httpStep sampleHttpConf)
      (Http.start ⟨.post, 1001, 0, true, false, true⟩ true false false false 0)
      sampleRefusedRun).map (fun t => t.resp.wire.isPrefixOf continueLine) = some false := by
    decide +kernel
  obtain ⟨t, hexec, ht⟩ := Option.map_eq_some_iff.mp hsent
  have hrun := run_iff_execute.mpr hexec
  refine ⟨t, hrun, ?_, answersOnce_of_run sampleHttpConf _ true false false false 0 hrun⟩
  rw [← List.isPrefixOf_iff_prefix, ht]
  exact Bool.false_ne_true

end Toxic
