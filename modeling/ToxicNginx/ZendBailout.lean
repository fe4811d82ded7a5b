import ToxicNginx.OutputHandlers

/-!
# How a script ends and what becomes of its request

`toxic_excecute` calls the PHP function `Start` and then `exit_request`.  A
script that does not return comes back through `zend_bailout`, and the port
replaces the `exit()` calls of the engine by `toxic_exit`, which calls
`ngx_toxic_exit` when that pointer is set.  The pointer is `static` in
`zend.h`: every translation unit has its own copy, `toxic_excecute` sets the
copy of the module and `toxic_exit` reads the copy of `zend.c`.  What a script
prints goes through the output handlers, and nothing empties these before
`exit_request` builds the response.

* `Script` — what a script can do that matters here, calls to any depth and C
  code with its own bailout frame included; `Script.ending` is how it ends as
  PHP sees it, `Script.calls` what it does with its output until then;
* `exec` — the same script in the engine, with the bailout frames of
  `EG(bailout)`, the copies of `ngx_toxic_exit` and the output handlers;
* `exec_ending` — the engine's result from the ending and the calls, by
  induction on the script;
* `servedOnce_iff` — the request is answered with its output and finalized
  exactly when `Start` returns, clearing `$_POST` does not end the script, and
  the handlers have passed its output on.
-/

namespace Toxic

/-- The translation units with a copy of `static void (*ngx_toxic_exit)(int)`:
the module, `toxic.c`, `zend.c` and the other files that include `zend.h`. -/
inductive TransUnit
  | module
  | toxicC
  | zendC
  | other (file : Nat)
  deriving DecidableEq, Repr

/-- What a PHP script does, as far as its output and its end are concerned. -/
inductive Script
  /-- Statements without output. -/
  | skip
  /-- `echo`, or a call that concerns the output handlers. -/
  | output (call : OutputCall)
  | seq (first second : Script)
  /-- A call of a user function or an `include`. -/
  | call (body : Script)
  /-- `exit` or `die`, with the string it prints. -/
  | exit (message : Bytes)
  /-- A fatal error with the text `php_error_cb` displays. -/
  | fatal (message : Bytes)
  /-- `throw`, with the text displayed when nothing catches it. -/
  | throw (message : Bytes)
  | tryCatch (body handler : Script)
  /-- C code that runs `body` between `zend_try` and `zend_end_try`; `rebail`
  says that its `zend_catch` ends in `zend_bailout()`, as in
  `zend_eval_stringl` and around destructors. -/
  | zendTry (body : Script) (rebail : Bool)
  /-- Heap corruption found by `zend_mm_panic`. -/
  | mmPanic
  deriving DecidableEq, Repr

/-- How a script ends as PHP sees it. -/
inductive Ending
  | normalReturn
  | exitCalled
  | fatalError
  | uncaughtException (message : Bytes)
  | mmPanic
  deriving DecidableEq, Repr

/-- The ending of a script. -/
def Script.ending : Script → Ending
  | .skip => .normalReturn
  | .output _ => .normalReturn
  | .seq first second =>
      match first.ending with
      | .normalReturn => second.ending
      | other => other
  | .call body => body.ending
  | .exit _ => .exitCalled
  | .fatal _ => .fatalError
  | .throw message => .uncaughtException message
  | .tryCatch body handler =>
      match body.ending with
      | .uncaughtException _ => handler.ending
      | other => other
  | .zendTry body rebail =>
      match body.ending with
      | .exitCalled => if rebail then .exitCalled else .normalReturn
      | .fatalError => if rebail then .fatalError else .normalReturn
      | other => other
  | .mmPanic => .mmPanic

/-- What a script does with its output until it ends. -/
def Script.calls : Script → List OutputCall
  | .skip => []
  | .output done => [done]
  | .seq first second =>
      match first.ending with
      | .normalReturn => first.calls ++ second.calls
      | _ => first.calls
  | .call body => body.calls
  | .exit message => [.echo message]
  | .fatal message => [.echo message]
  | .throw _ => []
  | .tryCatch body handler =>
      match body.ending with
      | .uncaughtException _ => body.calls ++ handler.calls
      | _ => body.calls
  | .zendTry body _ => body.calls
  | .mmPanic => []

/-- The state of the process while it runs PHP. -/
structure Engine where
  /-- The copies of `ngx_toxic_exit`: the request whose `exit_request` each
  holds, `none` for NULL. -/
  copies : TransUnit → Option Nat
  /-- The output handlers, and the strings `callback_output` has got for the
  current request. -/
  layer : OutputLayer
  /-- The runs of `exit_request`: the request and the strings handed to nginx. -/
  served : List (Nat × List (List Written))
  /-- The requests finalized. -/
  finalized : List Nat
  /-- The status of libc `exit()`, once called. -/
  exited : Option Int
  /-- Whether a statement behind a `toxic_exit` call was executed. -/
  pastToxicExit : Bool
  /-- `EG(exception)` left set by a destructor. -/
  pendingException : Bool

/-- A call that concerns the output. -/
def Engine.output (e : Engine) (call : OutputCall) : Engine :=
  { e with layer := outputStep e.layer call }

/-- Hand the strings for `request` to nginx and finalize the request. -/
def Engine.respond (e : Engine) (request : Nat) : Engine :=
  { e with
    served := e.served ++ [(request, e.layer.delivered)]
    finalized := e.finalized ++ [request] }

/-- How control leaves a piece of engine code. -/
inductive Signal
  | normal
  | exception (message : Bytes)
  /-- `LONGJMP` to the innermost bailout frame. -/
  | longjmp
  /-- Nothing further runs in this process. -/
  | stopped
  deriving DecidableEq, Repr

section Engine

/- What running the `exit_request` of a request from inside the engine does;
it is reached only when the copy of `zend.c` is set. -/
variable (callHandler : Nat → Engine → Engine)

/-- `toxic_exit` of `zend.c`. -/
def toxicExit (status : Int) (e : Engine) : Signal × Engine :=
  match e.copies .zendC with
  | some request => (.normal, callHandler request e)
  | none => (.stopped, { e with exited := some status })

/-- `_zend_bailout`; `frames` is the number of `zend_try` frames that
`EG(bailout)` chains, 0 when it is NULL. -/
def zendBailout (frames : Nat) (e : Engine) : Signal × Engine :=
  if frames = 0 then
    match toxicExit callHandler (-1) e with
    -- `toxic_exit` came back: the function runs on to `LONGJMP(*NULL)`
    | (.normal, e') => (.stopped, { e' with pastToxicExit := true })
    | result => result
  else
    (.longjmp, e)

/-- `zend_mm_panic`, declared `noreturn`. -/
def zendMmPanic (e : Engine) : Signal × Engine :=
  match toxicExit callHandler 1 e with
  | (.normal, e') => (.stopped, { e' with pastToxicExit := true })
  | result => result

/-- Run a script under `frames` bailout frames. -/
def exec (frames : Nat) : Script → Engine → Signal × Engine
  | .skip, e => (.normal, e)
  | .output call, e => (.normal, e.output call)
  | .seq first second, e =>
      match exec frames first e with
      | (.normal, e') => exec frames second e'
      | result => result
  | .call body, e => exec frames body e
  | .exit message, e => zendBailout callHandler frames (e.output (.echo message))
  | .fatal message, e => zendBailout callHandler frames (e.output (.echo message))
  | .throw message, e => (.exception message, e)
  | .tryCatch body handler, e =>
      match exec frames body e with
      | (.exception _, e') => exec frames handler e'
      | result => result
  | .zendTry body rebail, e =>
      match exec (frames + 1) body e with
      | (.longjmp, e') => if rebail then zendBailout callHandler frames e' else (.normal, e')
      | result => result
  | .mmPanic, e => zendMmPanic callHandler e

/-- `call_user_function_ex` on `Start`, outside every frame: it fails without
a call when an exception is pending, and an exception that leaves `Start` is
raised as an `E_ERROR` by `zend_throw_exception_internal`. -/
def callUserFunctionEx (start : Script) (e : Engine) : Signal × Engine :=
  if e.pendingException then
    (.normal, e)
  else
    match exec callHandler 0 start e with
    | (.exception message, e') => zendBailout callHandler 0 (e'.output (.echo message))
    | result => result

/-- `exit_request` of `request`: evaluate `$_POST = array();`, which runs the
destructors `postDtors` of what it held, then hand the output over and
finalize the request.  `zend_execute` does nothing while an exception is
pending. -/
def exitRequest (request : Nat) (postDtors : Script) (e : Engine) : Engine :=
  if e.pendingException then e.respond request
  else
    match exec callHandler 0 (.zendTry postDtors true) e with
    | (.normal, e') => e'.respond request
    | (.exception _, e') => { e'.respond request with pendingException := true }
    | (_, e') => e'

/-- The handlers that a request has left open, for the next one. -/
def OutputLayer.left (s : OutputLayer) : List (OutputHandler UInt8) :=
  s.handlers.map fun h => { h with buffer := h.buffer.map Prod.fst }

/-- `toxic_excecute`: install `exit_request` in the module's copy of
`ngx_toxic_exit`, call `Start` and, when it comes back, `ngx_toxic_exit(1)`. -/
def toxicExcecute (request : Nat) (key : Bytes) (start postDtors : Script) (e : Engine) : Engine :=
  let e := { e with
    copies := Function.update e.copies .module (some request)
    layer := OutputLayer.start key e.layer.left }
  match callUserFunctionEx callHandler start e with
  | (.normal, e') => exitRequest callHandler request postDtors e'
  | (_, e') => e'

end Engine

/-- The engine after `ngx_http_toxic` has evaluated the configuration string:
no copy of `ngx_toxic_exit` is set and `zend_end_try` has restored the NULL
`EG(bailout)`. -/
def Engine.boot : Engine where
  copies := fun _ => none
  layer := OutputLayer.start [] []
  served := []
  finalized := []
  exited := none
  pastToxicExit := false
  pendingException := false

/-- A request as `toxic_excecute` runs it: its number, the key of its callbacks, its
`Start` and the destructors run when `$_POST` is cleared. -/
structure Job where
  request : Nat
  key : Bytes
  start : Script
  postDtors : Script
  deriving DecidableEq, Repr

/-- The process after it has run some requests one after the other. -/
def runJobs (callHandler : Nat → Engine → Engine) : List Job → Engine → Engine
  | [], e => e
  | job :: jobs, e =>
      match e.exited with
      | some _ => e
      | none =>
          runJobs callHandler jobs
            (toxicExcecute callHandler job.request job.key job.start job.postDtors e)

/-- What every piece of engine code leaves alone. -/
structure Kept (e e' : Engine) : Prop where
  copies : e'.copies = e.copies
  served : e'.served = e.served
  finalized : e'.finalized = e.finalized
  pastToxicExit : e'.pastToxicExit = e.pastToxicExit
  pendingException : e'.pendingException = e.pendingException

theorem Kept.refl (e : Engine) : Kept e e := ⟨rfl, rfl, rfl, rfl, rfl⟩

theorem Kept.trans {e e' e'' : Engine} (h : Kept e e') (h' : Kept e' e'') : Kept e e'' :=
  ⟨h'.copies.trans h.copies, h'.served.trans h.served, h'.finalized.trans h.finalized,
    h'.pastToxicExit.trans h.pastToxicExit, h'.pendingException.trans h.pendingException⟩

theorem Kept.output (e : Engine) (call : OutputCall) : Kept e (e.output call) :=
  ⟨rfl, rfl, rfl, rfl, rfl⟩

/-- The signal an ending becomes: a return and an exception stay inside, an
`exit` or a fatal error jumps to a bailout frame, and where there is none, as
well as after a panic, the process has ended. -/
def Ending.signal (frames : Nat) : Ending → Signal
  | .normalReturn => .normal
  | .uncaughtException message => .exception message
  | .exitCalled | .fatalError => if frames = 0 then .stopped else .longjmp
  | .mmPanic => .stopped

/-- The status of the libc `exit()` an ending runs into. -/
def Ending.status (frames : Nat) : Ending → Option Int
  | .normalReturn => none
  | .uncaughtException _ => none
  | .exitCalled | .fatalError => if frames = 0 then some (-1) else none
  | .mmPanic => some 1

/-- An ending that bails out: `exit` or a fatal error. -/
def Ending.Bails (ending : Ending) : Prop := ending = .exitCalled ∨ ending = .fatalError

/-- What a piece of engine code returns for an ending, and for the calls it has made
until then. -/
structure Outcome (frames : Nat) (e : Engine) (ending : Ending) (calls : List OutputCall)
    (result : Signal × Engine) : Prop where
  kept : Kept e result.2
  signal : result.1 = ending.signal frames
  exited : result.2.exited = (ending.status frames).or e.exited
  layer : result.2.layer = e.layer.run calls

/-- Only a normal return gives the normal signal. -/
theorem Ending.signal_eq_normal {frames : Nat} {ending : Ending}
    (h : ending.signal frames = .normal) : ending = .normalReturn := by
  cases ending with
  | normalReturn => rfl
  | exitCalled | fatalError =>
      by_cases hframes : frames = 0 <;> simp [Ending.signal, hframes] at h
  | uncaughtException | mmPanic => cases h

/-- Only an uncaught exception gives an exception signal. -/
theorem Ending.signal_eq_exception {frames : Nat} {ending : Ending} {message : Bytes}
    (h : ending.signal frames = .exception message) : ending = .uncaughtException message := by
  cases ending with
  | uncaughtException m =>
      obtain rfl := Signal.exception.inj h
      rfl
  | exitCalled | fatalError =>
      by_cases hframes : frames = 0 <;> simp [Ending.signal, hframes] at h
  | normalReturn | mmPanic => cases h

/-- Only an ending that bails out jumps. -/
theorem Ending.signal_eq_longjmp {frames : Nat} {ending : Ending}
    (h : ending.signal frames = .longjmp) : ending.Bails := by
  cases ending with
  | exitCalled => exact Or.inl rfl
  | fatalError => exact Or.inr rfl
  | normalReturn | uncaughtException | mmPanic => cases h

/-- An ending that does not bail out is the same under any frames. -/
theorem Outcome.reframe {frames : Nat} {e : Engine} {ending : Ending}
    {calls : List OutputCall} {result : Signal × Engine}
    (h : Outcome (frames + 1) e ending calls result) (hbails : ¬ ending.Bails) :
    Outcome frames e ending calls result := by
  cases ending with
  | normalReturn | uncaughtException | mmPanic => exact ⟨h.kept, h.signal, h.exited, h.layer⟩
  | exitCalled => exact absurd (Or.inl rfl) hbails
  | fatalError => exact absurd (Or.inr rfl) hbails

/-- Code that runs after kept, live code has the outcome seen from before it. -/
theorem Outcome.after {frames : Nat} {e e' : Engine} {ending : Ending}
    {earlier calls : List OutputCall} {result : Signal × Engine} (hkept : Kept e e')
    (hexited : e'.exited = e.exited) (hlayer : e'.layer = e.layer.run earlier)
    (h : Outcome frames e' ending calls result) :
    Outcome frames e ending (earlier ++ calls) result :=
  ⟨hkept.trans h.kept, h.signal, by rw [h.exited, hexited],
    by rw [h.layer, hlayer, OutputLayer.run, OutputLayer.run, OutputLayer.run, List.foldl_append]⟩

/-- **No return.**  With the copy of `zend.c` unset, `toxic_exit` ends the
process, so nothing behind a call of it is executed. -/
theorem toxicExit_unset (callHandler : Nat → Engine → Engine) {e : Engine}
    (hzend : e.copies .zendC = none) (status : Int) :
    toxicExit callHandler status e = (.stopped, { e with exited := some status }) := by
  simp only [toxicExit, hzend]

/-- `zend_bailout` is the outcome of every ending that bails out. -/
theorem zendBailout_outcome (callHandler : Nat → Engine → Engine) {e : Engine}
    (hzend : e.copies .zendC = none) (frames : Nat) {ending : Ending} (hbails : ending.Bails) :
    Outcome frames e ending [] (zendBailout callHandler frames e) := by
  have hsignal : ending.signal frames = if frames = 0 then .stopped else .longjmp := by
    rcases hbails with rfl | rfl <;> rfl
  have hstatus : ending.status frames = if frames = 0 then some (-1) else none := by
    rcases hbails with rfl | rfl <;> rfl
  unfold zendBailout
  by_cases hframes : frames = 0
  · rw [if_pos hframes, toxicExit_unset callHandler hzend]
    exact ⟨⟨rfl, rfl, rfl, rfl, rfl⟩, by rw [hsignal, if_pos hframes],
      by rw [hstatus, if_pos hframes]; rfl, rfl⟩
  · rw [if_neg hframes]
    exact ⟨Kept.refl e, by rw [hsignal, if_neg hframes],
      by rw [hstatus, if_neg hframes]; rfl, rfl⟩

/-- **The engine's result.**  What `exec` returns for a script is the outcome
of the script's ending and calls, under any number of bailout frames. -/
theorem exec_ending (callHandler : Nat → Engine → Engine) (script : Script) :
    ∀ (frames : Nat) (e : Engine), e.copies .zendC = none →
      Outcome frames e script.ending script.calls (exec callHandler frames script e) := by
  induction script with
  | skip => intro frames e _; exact ⟨Kept.refl e, rfl, rfl, rfl⟩
  | output call => intro frames e _; exact ⟨Kept.output e call, rfl, rfl, rfl⟩
  | throw message => intro frames e _; exact ⟨Kept.refl e, rfl, rfl, rfl⟩
  | call body ih => intro frames e hzend; exact ih frames e hzend
  | exit message =>
      intro frames e hzend
      have hlayer : (e.output (.echo message)).layer = e.layer.run [.echo message] := rfl
      exact (zendBailout_outcome callHandler (e := e.output (.echo message)) hzend frames
        (Or.inl rfl)).after (Kept.output e (.echo message)) rfl hlayer
  | fatal message =>
      intro frames e hzend
      have hlayer : (e.output (.echo message)).layer = e.layer.run [.echo message] := rfl
      exact (zendBailout_outcome callHandler (e := e.output (.echo message)) hzend frames
        (Or.inr rfl)).after (Kept.output e (.echo message)) rfl hlayer
  | mmPanic =>
      intro frames e hzend
      unfold exec zendMmPanic
      rw [toxicExit_unset callHandler hzend]
      exact ⟨⟨rfl, rfl, rfl, rfl, rfl⟩, rfl, rfl, rfl⟩
  | seq first second ihFirst ihSecond =>
      intro frames e hzend
      obtain ⟨hkept, hsignal, hexited, hlayer⟩ := ihFirst frames e hzend
      unfold exec
      split
      · next e' hres =>
          rw [hres] at hkept hsignal hexited hlayer
          have hend : first.ending = .normalReturn := Ending.signal_eq_normal hsignal.symm
          have hend' : (Script.seq first second).ending = second.ending := by
            rw [Script.ending, hend]
          have hcalls : (Script.seq first second).calls = first.calls ++ second.calls := by
            rw [Script.calls, hend]
          rw [hend] at hexited
          rw [hend', hcalls]
          have hzend' : e'.copies .zendC = none := by rw [hkept.copies]; exact hzend
          exact (ihSecond frames e' hzend').after hkept hexited hlayer
      · next hne =>
          have hnormal : first.ending ≠ .normalReturn := by
            intro hend
            rw [hend] at hsignal
            exact hne _ (Prod.ext hsignal rfl)
          have hend' : (Script.seq first second).ending = first.ending := by
            rw [Script.ending]
            split
            · next hend => exact absurd hend hnormal
            · rfl
          have hcalls : (Script.seq first second).calls = first.calls := by
            rw [Script.calls]
            split
            · next hend => exact absurd hend hnormal
            · rfl
          rw [hend', hcalls]
          exact ⟨hkept, hsignal, hexited, hlayer⟩
  | tryCatch body handler ihBody ihHandler =>
      intro frames e hzend
      obtain ⟨hkept, hsignal, hexited, hlayer⟩ := ihBody frames e hzend
      unfold exec
      split
      · next message e' hres =>
          rw [hres] at hkept hsignal hexited hlayer
          have hend : body.ending = .uncaughtException message :=
            Ending.signal_eq_exception hsignal.symm
          have hend' : (Script.tryCatch body handler).ending = handler.ending := by
            rw [Script.ending, hend]
          have hcalls : (Script.tryCatch body handler).calls = body.calls ++ handler.calls := by
            rw [Script.calls, hend]
          rw [hend] at hexited
          rw [hend', hcalls]
          have hzend' : e'.copies .zendC = none := by rw [hkept.copies]; exact hzend
          exact (ihHandler frames e' hzend').after hkept hexited hlayer
      · next hne =>
          have hthrow : ∀ message, body.ending ≠ .uncaughtException message := by
            intro message hend
            rw [hend] at hsignal
            exact hne message _ (Prod.ext hsignal rfl)
          have hend' : (Script.tryCatch body handler).ending = body.ending := by
            rw [Script.ending]
            split
            · next message hend => exact absurd hend (hthrow message)
            · rfl
          have hcalls : (Script.tryCatch body handler).calls = body.calls := by
            rw [Script.calls]
            split
            · next message hend => exact absurd hend (hthrow message)
            · rfl
          rw [hend', hcalls]
          exact ⟨hkept, hsignal, hexited, hlayer⟩
  | zendTry body rebail ih =>
      intro frames e hzend
      have hbody := ih (frames + 1) e hzend
      unfold exec
      split
      · next e' hres =>
          rw [hres] at hbody
          obtain ⟨hkept, hsignal, hexited, hlayer⟩ := hbody
          have hbails : body.ending.Bails := Ending.signal_eq_longjmp hsignal.symm
          have hlive : e'.exited = e.exited := by
            rw [hexited]
            rcases hbails with h | h <;> rw [h] <;> rfl
          have hzend' : e'.copies .zendC = none := by rw [hkept.copies]; exact hzend
          cases rebail with
          | true =>
              have hend' : (Script.zendTry body true).ending = body.ending := by
                rcases hbails with h | h <;> rw [Script.ending, h] <;> rfl
              have hcalls : (Script.zendTry body true).calls = body.calls ++ [] := by
                rw [Script.calls, List.append_nil]
              rw [if_pos rfl, hend', hcalls]
              exact (zendBailout_outcome callHandler hzend' frames hbails).after hkept hlive hlayer
          | false =>
              have hend' : (Script.zendTry body false).ending = .normalReturn := by
                rcases hbails with h | h <;> rw [Script.ending, h] <;> rfl
              rw [if_neg Bool.false_ne_true, hend']
              exact ⟨hkept, rfl, hlive, hlayer⟩
      · next hne =>
          have hbails : ¬ body.ending.Bails := by
            intro hb
            have hjump : body.ending.signal (frames + 1) = .longjmp := by
              rcases hb with h | h <;> rw [h] <;> rfl
            exact hne _ (Prod.ext (hbody.signal.trans hjump) rfl)
          have hend' : (Script.zendTry body rebail).ending = body.ending := by
            rw [Script.ending]
            split
            · next h => exact absurd (Or.inl h) hbails
            · next h => exact absurd (Or.inr h) hbails
            · rfl
          rw [hend']
          exact hbody.reframe hbails

/-- What `call_user_function_ex` returns: control comes back only when `Start`
was not called or returned; otherwise the process has ended. -/
theorem callUserFunctionEx_result (callHandler : Nat → Engine → Engine) (start : Script)
    {e : Engine} (hzend : e.copies .zendC = none) :
    ∃ e', Kept e e' ∧
      (((e.pendingException = true ∨ start.ending = .normalReturn) ∧
          callUserFunctionEx callHandler start e = (.normal, e') ∧ e'.exited = e.exited ∧
          e'.layer = e.layer.run (if e.pendingException then [] else start.calls)) ∨
       (¬ (e.pendingException = true ∨ start.ending = .normalReturn) ∧
          callUserFunctionEx callHandler start e = (.stopped, e') ∧ e'.exited ≠ none)) := by
  by_cases hpending : e.pendingException = true
  · refine ⟨e, Kept.refl e, Or.inl ⟨Or.inl hpending, ?_, rfl, ?_⟩⟩
    · rw [callUserFunctionEx, if_pos hpending]
    · rw [if_pos hpending]
      rfl
  · obtain ⟨hkept, hsignal, hexited, hlayer⟩ := exec_ending callHandler start 0 e hzend
    have hcall : callUserFunctionEx callHandler start e
        = match exec callHandler 0 start e with
          | (.exception message, e') => zendBailout callHandler 0 (e'.output (.echo message))
          | result => result := by
      rw [callUserFunctionEx, if_neg hpending]
    cases hres : exec callHandler 0 start e with
    | mk signal e' =>
        rw [hres] at hcall hkept hsignal hexited hlayer
        cases hend : start.ending with
        | normalReturn =>
            rw [hend] at hsignal hexited
            obtain rfl : signal = .normal := hsignal
            refine ⟨e', hkept, Or.inl ⟨Or.inr rfl, hcall, hexited, ?_⟩⟩
            rw [if_neg hpending]
            exact hlayer
        | uncaughtException message =>
            rw [hend] at hsignal
            obtain rfl : signal = .exception message := hsignal
            have hzend' : (e'.output (.echo message)).copies .zendC = none := by
              show e'.copies .zendC = none
              rw [hkept.copies]
              exact hzend
            have hbail := zendBailout_outcome callHandler hzend' 0 (Or.inl rfl)
            refine ⟨_, hkept.trans ((Kept.output e' (.echo message)).trans hbail.kept),
              Or.inr ⟨by simp [hpending], hcall.trans (Prod.ext hbail.signal rfl), ?_⟩⟩
            rw [hbail.exited]
            exact Option.some_ne_none _
        | exitCalled | fatalError | mmPanic =>
            rw [hend] at hsignal hexited
            obtain rfl : signal = .stopped := hsignal
            refine ⟨e', hkept, Or.inr ⟨by simp [hpending], hcall, ?_⟩⟩
            rw [show e'.exited = _ from hexited]
            exact Option.some_ne_none _

/-- The destructors that run when `$_POST` is cleared let `exit_request` go
on: they return or leave an exception pending. -/
def Script.GoesOn (postDtors : Script) : Prop :=
  postDtors.ending = .normalReturn ∨ ∃ message, postDtors.ending = .uncaughtException message

/-- What `exit_request` does: it responds exactly when no exception is pending
already and the destructors let it go on; otherwise the process has ended. -/
theorem exitRequest_result (callHandler : Nat → Engine → Engine) (request : Nat)
    (postDtors : Script) {e : Engine} (hzend : e.copies .zendC = none) :
    ∃ e', Kept e e' ∧
      (((e.pendingException = true ∨ postDtors.GoesOn) ∧ e'.exited = e.exited ∧
          e'.layer = e.layer.run (if e.pendingException then [] else postDtors.calls) ∧
          ∃ pending, exitRequest callHandler request postDtors e
            = { e'.respond request with pendingException := pending }) ∨
       (¬ (e.pendingException = true ∨ postDtors.GoesOn) ∧ e'.exited ≠ none ∧
          exitRequest callHandler request postDtors e = e')) := by
  unfold exitRequest
  by_cases hpending : e.pendingException = true
  · rw [if_pos hpending, if_pos hpending]
    exact ⟨e, Kept.refl e, Or.inl ⟨Or.inl hpending, rfl, rfl, e.pendingException, rfl⟩⟩
  rw [if_neg hpending, if_neg hpending, or_iff_right hpending]
  have htry : (Script.zendTry postDtors true).ending = postDtors.ending := by
    rw [Script.ending]
    split <;> simp [*]
  obtain ⟨hkept, hsignal, hexited, hlayer⟩ :=
    exec_ending callHandler (.zendTry postDtors true) 0 e hzend
  rw [htry] at hsignal hexited
  cases hres : exec callHandler 0 (.zendTry postDtors true) e with
  | mk signal e' =>
      rw [hres] at hkept hsignal hexited hlayer
      refine ⟨e', hkept, ?_⟩
      cases hend : postDtors.ending with
      | normalReturn =>
          rw [hend] at hsignal hexited
          obtain rfl : signal = .normal := hsignal
          exact Or.inl ⟨Or.inl hend, hexited, hlayer, e'.pendingException, rfl⟩
      | uncaughtException message =>
          rw [hend] at hsignal hexited
          obtain rfl : signal = .exception message := hsignal
          exact Or.inl ⟨Or.inr ⟨message, hend⟩, hexited, hlayer, true, rfl⟩
      | exitCalled | fatalError | mmPanic =>
          rw [hend] at hsignal hexited
          obtain rfl : signal = .stopped := hsignal
          refine Or.inr ⟨by simp [Script.GoesOn, hend], ?_, rfl⟩
          rw [show e'.exited = _ from hexited]
          exact Option.some_ne_none _

/-- The request was answered as it should be: `exit_request` ran exactly
once, the strings it has handed over are what the request has printed and not
discarded, the request is finalized, the process lives and nothing behind a
`toxic_exit` was executed. -/
structure ServedOnce (request : Nat) (before after : Engine) : Prop where
  once : after.served = before.served ++ [(request, after.layer.delivered)]
  output : after.layer.delivered.flatten =
    (after.layer.written.drop (pending before.layer.left).length).filter
      fun b => b ∉ after.layer.discarded
  finalized : after.finalized = before.finalized ++ [request]
  alive : after.exited = none
  noReturn : after.pastToxicExit = false

/-- What a request does with its output: `Start`, and the destructors of `$_POST`,
unless an exception is pending. -/
def Job.calls (job : Job) (pendingException : Bool) : List OutputCall :=
  if pendingException then [] else job.start.calls ++ job.postDtors.calls

/-- The condition on a request: an exception is pending, or `Start` returns and the
destructors let `exit_request` go on; and the handlers, with what earlier requests
have left in them, have passed on what the request has printed. -/
structure Job.Served (job : Job) (before : Engine) : Prop where
  comesBack : before.pendingException = true ∨
    job.start.ending = .normalReturn ∧ job.postDtors.GoesOn
  brings : (fullness before.layer.left (job.calls before.pendingException)).Brings

/-- What the runs of `toxic_excecute` never change: the copy of `zend.c` stays
NULL and no statement behind a `toxic_exit` is executed. -/
structure Booted (e : Engine) : Prop where
  zendUnset : e.copies .zendC = none
  noReturn : e.pastToxicExit = false

theorem Kept.booted {e e' : Engine} (h : Kept e e') (hboot : Booted e) : Booted e' :=
  ⟨by rw [h.copies]; exact hboot.zendUnset, by rw [h.pastToxicExit]; exact hboot.noReturn⟩

/-- Installing `exit_request` in the module's copy leaves the one of `zend.c`
alone. -/
theorem Booted.install {e : Engine} (hboot : Booted e) (request : Nat) (layer : OutputLayer) :
    Booted { e with
      copies := Function.update e.copies .module (some request)
      layer := layer } :=
  ⟨by simpa using hboot.zendUnset, hboot.noReturn⟩

/-- What a run of the output calls leaves is what the request has printed exactly
if the levels say so. -/
theorem run_brings_iff (key : Bytes) (left : List (OutputHandler UInt8))
    (calls : List OutputCall) :
    ((OutputLayer.start key left).run calls).delivered.flatten =
        (((OutputLayer.start key left).run calls).written.drop (pending left).length).filter
          (fun b => b ∉ ((OutputLayer.start key left).run calls).discarded) ↔
      (fullness left calls).Brings := by
  obtain ⟨passed, h⟩ := (OutputLayer.start_kept key left).run calls
  exact h.brings_iff

/-- **One request.**  In a live process, `toxic_excecute` answers the request
exactly when the condition on it holds; and it keeps the invariant in any case. -/
theorem toxicExcecute_servedOnce_iff (callHandler : Nat → Engine → Engine) (job : Job)
    {e : Engine} (hboot : Booted e) (halive : e.exited = none) :
    Booted (toxicExcecute callHandler job.request job.key job.start job.postDtors e) ∧
    (ServedOnce job.request e
        (toxicExcecute callHandler job.request job.key job.start job.postDtors e) ↔
      job.Served e) := by
  have hinstall := hboot.install job.request (OutputLayer.start job.key e.layer.left)
  unfold toxicExcecute
  obtain ⟨e₁, hkept₁, ⟨hcond, hcall, hexited₁, hlayer₁⟩ | ⟨hcond, hcall, hexited₁⟩⟩ :=
    callUserFunctionEx_result callHandler job.start hinstall.zendUnset
  · have hboot₁ := hkept₁.booted hinstall
    have hpending : e₁.pendingException = e.pendingException := hkept₁.pendingException
    simp only [hcall]
    obtain ⟨e₂, hkept₂, ⟨hgo, hexited₂, hlayer₂, left, hexit⟩ | ⟨hgo, hexited₂, hexit⟩⟩ :=
      exitRequest_result callHandler job.request job.postDtors hboot₁.zendUnset
    · have hboot₂ := hkept₂.booted hboot₁
      rw [hexit]
      refine ⟨⟨hboot₂.zendUnset, hboot₂.noReturn⟩, ?_⟩
      have hlayer : e₂.layer = (OutputLayer.start job.key e.layer.left).run
          (job.calls e.pendingException) := by
        rw [hlayer₂, hlayer₁, hpending]
        unfold Job.calls OutputLayer.run
        dsimp only
        split
        · rfl
        · rw [List.foldl_append]
      have hbrings := run_brings_iff job.key e.layer.left (job.calls e.pendingException)
      rw [← hlayer] at hbrings
      constructor
      · intro h
        refine ⟨?_, hbrings.mp h.output⟩
        rw [hpending] at hgo
        rcases hcond with hcond | hcond
        · exact Or.inl hcond
        · rcases hgo with hgo | hgo
          · exact Or.inl hgo
          · exact Or.inr ⟨hcond, hgo⟩
      · intro h
        refine ⟨?_, hbrings.mpr h.brings, ?_, ?_, hboot₂.noReturn⟩
        · show e₂.served ++ _ = e.served ++ _
          rw [hkept₂.served, hkept₁.served]
          rfl
        · show e₂.finalized ++ _ = e.finalized ++ _
          rw [hkept₂.finalized, hkept₁.finalized]
        · show e₂.exited = none
          rw [hexited₂, hexited₁]
          exact halive
    · rw [hexit]
      refine ⟨hkept₂.booted hboot₁, ⟨fun h => absurd h.alive hexited₂, fun h => ?_⟩⟩
      rw [hpending] at hgo
      exact absurd (h.comesBack.imp_right And.right) hgo
  · simp only [hcall]
    refine ⟨hkept₁.booted hinstall, ⟨fun h => absurd h.alive hexited₁, fun h => ?_⟩⟩
    exact absurd (h.comesBack.imp_right And.left) hcond

/-- Every process that has run any requests is still `Booted`. -/
theorem runJobs_booted (callHandler : Nat → Engine → Engine) (jobs : List Job) :
    ∀ {e : Engine}, Booted e → Booted (runJobs callHandler jobs e) := by
  induction jobs with
  | nil => intro e hboot; exact hboot
  | cons job jobs ih =>
      intro e hboot
      unfold runJobs
      cases hexited : e.exited with
      | some status => exact hboot
      | none =>
          exact ih (toxicExcecute_servedOnce_iff callHandler job hboot hexited).1

/-- `ob_start(); echo "A"; return;` is answered without the `A`. -/
example : ¬ ServedOnce 0 Engine.boot
    (toxicExcecute (fun _ e => e) 0 [107]
      (.seq (.output (.obStart 0 true true true)) (.output (.echo [65]))) .skip Engine.boot) := by
  intro h
  exact absurd h.output (by decide +kernel)

end Toxic
