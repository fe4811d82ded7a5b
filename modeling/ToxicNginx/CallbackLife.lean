import ToxicNginx.OutputChain
import ToxicNginx.StepSystem

/-!
# The callbacks over the life of a process

`callback_output`, `header_callback`, `header_function` and `exit_request` are
nested functions of `toxic_excecute`: a pointer to one is good while that
activation is on the stack.  `callbacks[0]` and `ngx_toxic_exit` keep the
pointers of the last activation, and PHP runs at other times too.  A life is
that of one process and of the processes it was forked from, as `fork()` copies
the pointers; a toxic request is always answered in a fresh child.

* `CallbackLife`, `callbackStep` — the pointers, where the process is, and what happens;
* `PointerCall.Valid`, `CallsValid` — every call went to a pointer of the
  activation on the stack, whose request had not been freed;
* `CallbackOk` — what PHP may do outside of an activation;
* `CallbackSound` — which pointers an activation can find;
* `callsValid_iff_guarded` — the lives without a bad call are those whose steps
  are all allowed.
-/

namespace Toxic

open StepSystem

/-- Where a process is: PHP is run in `loading` (the configuration is parsed),
`parsing` (`toxic_parse_post`), `start` (the call of `Start`) and `exitRequest`
(`$_POST = array();`, whose destructors are PHP). -/
inductive Place
  | loading
  | eventLoop
  | parsing
  | start
  | exitRequest
  /-- `exit_request` has finalized the request. -/
  | returning
  /-- libc `exit()` was called. -/
  | ended
  deriving DecidableEq, Repr

/-- A call through a pointer: the activation that has installed it, `none` when
none has, the activation on the stack, and whether its request was freed. -/
structure PointerCall where
  target : Option Nat
  frame : Option Nat
  requestFreed : Bool
  deriving DecidableEq, Repr

/-- The pointer was installed by the activation on the stack, whose request is
there. -/
def PointerCall.Valid (c : PointerCall) : Prop :=
  c.target.isSome = true ∧ c.target = c.frame ∧ c.requestFreed = false

instance (c : PointerCall) : Decidable c.Valid := inferInstanceAs (Decidable (_ ∧ _ ∧ _))

/-- The process: the activations that have installed `callbacks[0]`, with its
key, and `ngx_toxic_exit`; the one on the stack; the string of
`Toxic::$output_index`; the flags of the SAPI; whether a script has set a time
limit, whose signal runs PHP anywhere; and the calls so far. -/
structure CallbackLife where
  place : Place
  callbacks : Option Nat
  key : Option Bytes
  ngxToxicExit : Option Nat
  frame : Option Nat
  requestFreed : Bool
  next : Nat
  outputIndex : Option Bytes
  headersSent : Bool
  noHeaders : Bool
  timer : Bool
  calls : List PointerCall
  deriving DecidableEq, Repr

/-- What happens in a process. -/
inductive CallbackEvent
  /-- Output leaves the handlers.  `stray` says that the search of `toxic_output`
  finds the index behind the array `callbacks` and calls what is there. -/
  | echo (stray : Bool)
  | header
  | setIndex (index : Option Bytes)
  | setTimeLimit
  /-- `exit`, or an error that ends the script. -/
  | exit
  /-- A configuration is parsed: `php_embed_init` and the text of the script. -/
  | load
  | loaded
  /-- A child is forked for a request, with a body to parse or without. -/
  | parsePost
  | parsed (key : Bytes)
  | excecute (key : Bytes)
  /-- `Start` has returned: `ngx_toxic_exit(1)`. -/
  | exitRequest
  /-- `ngx_http_finalize_request`, and whether it frees the request. -/
  | finalize (freed : Bool)
  | excecuteReturns
  deriving DecidableEq, Repr

/-- The process before it parses its first configuration. -/
def CallbackLife.start : CallbackLife :=
  ⟨.loading, none, none, none, none, false, 0, none, true, true, false, []⟩

/-- A call through a pointer. -/
def CallbackLife.invoke (s : CallbackLife) (target : Option Nat) : CallbackLife :=
  { s with calls := s.calls ++ [⟨target, s.frame, s.requestFreed⟩] }

/-- PHP code is run. -/
def CallbackLife.runsPhp (s : CallbackLife) : Bool :=
  match s.place with
  | .loading | .parsing | .start | .exitRequest => true
  | .eventLoop | .returning => s.timer
  | .ended => false

/-- `php_output_header` has to call `toxic_send_header`. -/
def CallbackLife.headerDue (s : CallbackLife) : Bool := !s.headersSent && !s.noHeaders

/-- `sapi_send_headers` as output calls it; `toxic_send_header` has no test for
NULL. -/
def CallbackLife.sendHeaders (s : CallbackLife) : CallbackLife :=
  if s.headerDue then { s.invoke s.callbacks with headersSent := true } else s

/-- `toxic_output` with the string of `Toxic::$output_index`. -/
def CallbackLife.toxicOutput (s : CallbackLife) (stray : Bool) : CallbackLife :=
  match s.outputIndex with
  | none => s
  | some index =>
      if s.key = some index then s.invoke s.callbacks
      else if stray then s.invoke none
      else s

/-- The head of `toxic_excecute`, up to the call of `Start`. -/
def CallbackLife.install (s : CallbackLife) (key : Bytes) : CallbackLife :=
  { s with
    place := .start
    callbacks := some s.next
    key := some key
    ngxToxicExit := some s.next
    frame := some s.next
    requestFreed := false
    next := s.next + 1
    headersSent := false
    noHeaders := false }

/-- One step. -/
def callbackStep (s : CallbackLife) : CallbackEvent → Option CallbackLife
  | .echo stray => if s.runsPhp then some (s.sendHeaders.toxicOutput stray) else none
  | .header => if s.runsPhp then some (s.invoke s.callbacks) else none
  | .setIndex index => if s.runsPhp then some { s with outputIndex := index } else none
  | .setTimeLimit => if s.runsPhp then some { s with timer := true } else none
  | .exit => if s.runsPhp then some { s with place := .ended } else none
  | .load =>
      if s.place = .eventLoop then
        some { s with
          place := .loading, outputIndex := none, headersSent := true, noHeaders := true }
      else none
  | .loaded => if s.place = .loading then some { s with place := .eventLoop } else none
  -- a forked child has no timers
  | .parsePost =>
      if s.place = .eventLoop then some { s with place := .parsing, timer := false } else none
  | .parsed key => if s.place = .parsing then some (s.install key) else none
  | .excecute key =>
      if s.place = .eventLoop then some { s.install key with timer := false } else none
  | .exitRequest =>
      if s.place = .start then some { s.invoke s.ngxToxicExit with place := .exitRequest } else none
  | .finalize freed =>
      if s.place = .exitRequest then some { s with place := .returning, requestFreed := freed }
      else none
  | .excecuteReturns =>
      if s.place = .returning then some { s with place := .eventLoop, frame := none } else none

/-- Every call so far was valid. -/
def CallsValid (s : CallbackLife) : Prop := ∀ c ∈ s.calls, c.Valid

/-- A request is being answered: `toxic_excecute` is on the stack and has not
freed it yet. -/
def CallbackLife.answering (s : CallbackLife) : Prop :=
  s.frame.isSome = true ∧ s.requestFreed = false

instance (s : CallbackLife) : Decidable s.answering := inferInstanceAs (Decidable (_ ∧ _))

/-- What may happen: outside of a request that is being answered no header is
set, nothing is printed that would send the headers or that is addressed to the
last request, and no output finds its index behind the array. -/
def CallbackOk (s : CallbackLife) : CallbackEvent → Prop
  | .echo stray =>
      (s.headerDue = true → s.answering) ∧
        ∀ index, s.outputIndex = some index →
          if s.key = some index then s.answering else stray = false
  | .header => s.answering
  | _ => True

/-- The pointers an activation finds are its own, and its request is there until
it is finalized. -/
structure CallbackSound (s : CallbackLife) : Prop where
  installed : ∀ a, s.frame = some a → s.callbacks = some a ∧ s.ngxToxicExit = some a
  running : s.place = .start ∨ s.place = .exitRequest → s.answering

/-- No activation has been there yet. -/
theorem callbackSound_start : CallbackSound .start := by
  refine ⟨fun a ha => ?_, fun hplace => ?_⟩
  · cases ha
  · rcases hplace with hplace | hplace <;> cases hplace

/-- A call through `callbacks[0]` or `ngx_toxic_exit` is valid exactly when a
request is being answered. -/
theorem CallbackSound.valid_iff {s : CallbackLife} (h : CallbackSound s) {target : Option Nat}
    (htarget : target = s.callbacks ∨ target = s.ngxToxicExit) :
    PointerCall.Valid ⟨target, s.frame, s.requestFreed⟩ ↔ s.answering := by
  constructor
  · intro h
    obtain ⟨hsome, hframe, hfreed⟩ := h
    exact ⟨(congrArg Option.isSome hframe).symm.trans hsome, hfreed⟩
  · intro hanswering
    obtain ⟨hframe, hfreed⟩ := hanswering
    obtain ⟨a, ha⟩ := Option.isSome_iff_exists.mp hframe
    obtain ⟨hcallbacks, hexit⟩ := h.installed a ha
    have heq : target = some a := by
      rcases htarget with rfl | rfl
      · exact hcallbacks
      · exact hexit
    subst heq
    exact ⟨rfl, ha.symm, hfreed⟩

/-- One more call. -/
theorem callsValid_invoke (s : CallbackLife) (target : Option Nat) :
    CallsValid (s.invoke target) ↔
      CallsValid s ∧ PointerCall.Valid ⟨target, s.frame, s.requestFreed⟩ := by
  simp [CallsValid, CallbackLife.invoke, or_imp, forall_and]

/-- The headers of a request that is sent change what the module keeps in
nothing but the calls and the flag. -/
theorem CallbackSound.sendHeaders {s : CallbackLife} (h : CallbackSound s) :
    CallbackSound s.sendHeaders := by
  unfold CallbackLife.sendHeaders
  split
  · exact ⟨h.installed, h.running⟩
  · exact h

theorem CallbackSound.toxicOutput {s : CallbackLife} (h : CallbackSound s) (stray : Bool) :
    CallbackSound (s.toxicOutput stray) := by
  unfold CallbackLife.toxicOutput
  split
  · exact h
  · split
    · exact ⟨h.installed, h.running⟩
    · split
      · exact ⟨h.installed, h.running⟩
      · exact h

/-- An activation installs its own pointers. -/
theorem CallbackSound.install (s : CallbackLife) (key : Bytes) : CallbackSound (s.install key) := by
  refine ⟨fun a ha => ?_, fun _ => ⟨rfl, rfl⟩⟩
  obtain rfl : s.next = a := Option.some.inj ha
  exact ⟨rfl, rfl⟩

/-- A step that is enabled. -/
theorem enabled_eq_some {p : Prop} [Decidable p] {s t : CallbackLife}
    (h : (if p then some s else none) = some t) : p ∧ s = t := by
  obtain ⟨hp, hs⟩ := Option.ite_none_right_eq_some.mp h
  exact ⟨hp, Option.some.inj hs⟩

/-- Outside of `Start` and `exit_request` nothing is asked of the request. -/
theorem CallbackSound.elsewhere {s t : CallbackLife} (h : CallbackSound s)
    (hframe : t.frame = s.frame) (hcallbacks : t.callbacks = s.callbacks)
    (hexit : t.ngxToxicExit = s.ngxToxicExit) (hstart : t.place ≠ .start)
    (hplace : t.place ≠ .exitRequest) : CallbackSound t := by
  refine ⟨fun a ha => ?_, fun h => ?_⟩
  · rw [hcallbacks, hexit]
    exact h.installed a (hframe ▸ ha)
  · rcases h with h | h
    · exact absurd h hstart
    · exact absurd h hplace

/-- **Step lemma.**  Every step keeps the pointers sound. -/
theorem CallbackSound.step {s t : CallbackLife} {e : CallbackEvent} (h : CallbackSound s)
    (hstep : callbackStep s e = some t) : CallbackSound t := by
  cases e with
  | echo stray =>
      obtain ⟨-, rfl⟩ := enabled_eq_some hstep
      exact h.sendHeaders.toxicOutput stray
  | header | setIndex | setTimeLimit =>
      obtain ⟨-, rfl⟩ := enabled_eq_some hstep
      exact ⟨h.installed, h.running⟩
  | exit | load | loaded | parsePost | finalize =>
      obtain ⟨-, rfl⟩ := enabled_eq_some hstep
      exact h.elsewhere rfl rfl rfl (by simp) (by simp)
  | parsed key =>
      obtain ⟨-, rfl⟩ := enabled_eq_some hstep
      exact CallbackSound.install s key
  | excecute key =>
      obtain ⟨-, rfl⟩ := enabled_eq_some hstep
      have hinstall := CallbackSound.install s key
      exact ⟨hinstall.installed, hinstall.running⟩
  | exitRequest =>
      obtain ⟨hplace, rfl⟩ := enabled_eq_some hstep
      exact ⟨h.installed, fun _ => h.running (Or.inl hplace)⟩
  | excecuteReturns =>
      obtain ⟨-, rfl⟩ := enabled_eq_some hstep
      refine ⟨fun a ha => ?_, fun hplace => ?_⟩
      · cases ha
      · rcases hplace with hplace | hplace <;> cases hplace

/-- Sending the headers makes a call exactly when they are due. -/
theorem callsValid_sendHeaders {s : CallbackLife} (h : CallbackSound s) :
    CallsValid s.sendHeaders ↔ CallsValid s ∧ (s.headerDue = true → s.answering) := by
  unfold CallbackLife.sendHeaders
  by_cases hdue : s.headerDue = true
  · rw [if_pos hdue]
    have hcall := callsValid_invoke s s.callbacks
    rw [h.valid_iff (Or.inl rfl)] at hcall
    exact hcall.trans ⟨fun ⟨hs, ha⟩ => ⟨hs, fun _ => ha⟩, fun ⟨hs, ha⟩ => ⟨hs, ha hdue⟩⟩
  · rw [if_neg hdue]
    exact ⟨fun hs => ⟨hs, fun hd => absurd hd hdue⟩, And.left⟩

/-- `toxic_output` makes a call exactly when the index is the key of the last
activation, or is found behind the array. -/
theorem callsValid_toxicOutput {s : CallbackLife} (h : CallbackSound s) (stray : Bool) :
    CallsValid (s.toxicOutput stray) ↔ CallsValid s ∧ ∀ index, s.outputIndex = some index →
      if s.key = some index then s.answering else stray = false := by
  unfold CallbackLife.toxicOutput
  split
  next hnone => simp [hnone]
  next index hindex =>
    have hone : (∀ index', s.outputIndex = some index' →
          if s.key = some index' then s.answering else stray = false) ↔
        if s.key = some index then s.answering else stray = false := by
      rw [hindex]
      exact ⟨fun hall => hall index rfl, fun hi index' heq => Option.some.inj heq ▸ hi⟩
    rw [hone]
    split
    next hkey =>
      rw [callsValid_invoke, h.valid_iff (Or.inl rfl)]
    next hkey =>
      cases stray with
      | true => simp [callsValid_invoke, PointerCall.Valid]
      | false => simp

/-- Sending the headers leaves what `toxic_output` looks at. -/
theorem sendHeaders_fields (s : CallbackLife) :
    s.sendHeaders.outputIndex = s.outputIndex ∧ s.sendHeaders.key = s.key ∧
      (s.sendHeaders.answering ↔ s.answering) := by
  unfold CallbackLife.sendHeaders
  split
  · exact ⟨rfl, rfl, Iff.rfl⟩
  · exact ⟨rfl, rfl, Iff.rfl⟩

/-- **Exact step.**  A step keeps the calls valid exactly if it is allowed. -/
theorem callsValid_step_iff {s t : CallbackLife} {e : CallbackEvent} (h : CallbackSound s)
    (hs : CallsValid s) (hstep : callbackStep s e = some t) : CallsValid t ↔ CallbackOk s e := by
  cases e with
  | echo stray =>
      obtain ⟨-, rfl⟩ := enabled_eq_some hstep
      obtain ⟨hindex, hkey, hanswering⟩ := sendHeaders_fields s
      rw [callsValid_toxicOutput h.sendHeaders, callsValid_sendHeaders h, hindex, hkey]
      simp only [hanswering]
      exact and_congr_left' (and_iff_right hs)
  | header =>
      obtain ⟨-, rfl⟩ := enabled_eq_some hstep
      rw [callsValid_invoke, h.valid_iff (Or.inl rfl)]
      exact and_iff_right hs
  | exitRequest =>
      obtain ⟨hplace, rfl⟩ := enabled_eq_some hstep
      have hcall := callsValid_invoke s s.ngxToxicExit
      rw [h.valid_iff (Or.inr rfl)] at hcall
      exact iff_of_true (hcall.mpr ⟨hs, h.running (Or.inl hplace)⟩) trivial
  | setIndex | setTimeLimit | exit | load | loaded | parsePost | parsed | excecute | finalize
  | excecuteReturns =>
      -- no call is made
      obtain ⟨-, rfl⟩ := enabled_eq_some hstep
      exact iff_of_true hs trivial

/-- **When no call goes astray.**  The runs of a process whose steps are all
allowed are exactly those in which, in every state on the way, every call went
to a pointer of the activation on the stack with its request there: PHP that
runs outside of an activation sets no header and prints nothing that sends the
headers or is addressed to the last request. -/
theorem callsValid_iff_guarded {events : List CallbackEvent} {t : CallbackLife} :
    GuardedRun callbackStep CallbackOk .start events t ↔
      Run callbackStep .start events t ∧
        ∀ front back m, events = front ++ back → Run callbackStep .start front m →
          CallsValid m := by
  refine guardedRun_iff_everywhere (fun s e m (hs : CallbackSound s) h => hs.step h)
    (fun s e m hs hp h => callsValid_step_iff hs hp h) callbackSound_start ?_
  intro c hc
  cases hc

/-- `header()` in the text of the script calls NULL. -/
theorem header_while_loading :
    ∃ t, Run callbackStep .start [.header] t ∧ ¬ CallsValid t := by
  refine ⟨_, Run.cons rfl (Run.nil _), fun h => ?_⟩
  exact absurd (h _ List.mem_cons_self) (by decide)

end Toxic
