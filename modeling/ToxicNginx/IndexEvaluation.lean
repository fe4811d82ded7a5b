import ToxicNginx.OutputHandlers

/-!
# The evaluation of `Toxic::$output_index`

Each string that comes out of the output handlers makes `php_output_op` evaluate
`Toxic::$output_index`, and `php_output_write_unbuffered` does so for each of its
strings.  Before that `php_output_op` sends the headers, and the function that
`header_register_callback` has been given may write, change the index or end the
script.  Where there is no such class or no such property, the evaluation raises
an error, whose report is written with `php_printf`, and so evaluates again.
The result of `zend_eval_string` and the type of the value are not looked at.

* `Passed` — what the handlers make of a write, given as a function, for the
  function of a user handler is arbitrary;
* `PhpCode`, `runCode`, `phpOutputHeader` — what the callback does, which is
  arbitrary code that ends, and `php_output_header`;
* `toxicWrite`, `phpErrorCb`, `phpOutputOpNested` — the three functions that call each
  other, with the depth they may reach;
* `WriteSafe` — a write ends, and every key is a string;
* `ReportsEnd`, `CodeSafe` — a report stays in the handlers, and the writes of a
  callback are safe;
* `extends_nested`, `endsSafe_andThen` — a depth that is enough stays enough, and
  parts that follow each other;
* `writeSafe_iff` — the exact condition on the state, the handlers and the callback.
-/

namespace Toxic

/-- A value of PHP; the last two are a handle. -/
inductive PhpValue
  | null
  | bool (b : Bool)
  | long (n : Int)
  | double (bits : UInt64)
  | string (text : Bytes)
  | array (entries : Nat)
  | object (handle : Nat)
  | resource (handle : Nat)
  deriving DecidableEq, Repr

/-- `Z_TYPE(v) == IS_STRING`. -/
def PhpValue.isString : PhpValue → Bool
  | .string _ => true
  | _ => false

/-- What `Toxic::$output_index` stands for, once the autoloader has been asked
for the class. -/
inductive IndexState
  | noClass
  | autoloadThrows
  | noProperty
  | value (v : PhpValue)
  deriving DecidableEq, Repr

/-- What the handlers make of a write: what they hold, how many bytes come out at
the bottom, and whether a user handler has thrown an exception. -/
structure Passed (σ : Type) where
  handlers : σ
  out : Nat
  thrown : Bool

/-- The interpreter as far as a write depends on it.  `disabled` is
`PHP_OUTPUT_DISABLED`; `settled` says that `sapi_send_headers` has nothing to do:
the headers are sent, are not to be sent, or their callback has been called.
`shown` is the length of the report that `php_error_cb` prints when the
evaluation fails, 0 when it is not displayed, and `repeated` says that the last
error recorded is this one. -/
structure Interp (σ : Type) where
  handlers : σ
  disabled : Bool
  settled : Bool
  index : IndexState
  exception : Bool
  shown : Nat
  ignoreRepeated : Bool
  repeated : Bool

/-- A write that has ended: the values whose pointer and length `toxic_output`
has got, and whether `zend_bailout` has ended the script. -/
structure WriteEnd (σ : Type) where
  state : Interp σ
  keys : List PhpValue
  bailout : Bool

/-- The two ways to write. -/
inductive WriteRoute
  | buffered (len : Nat)
  | unbuffered (len : Nat)
  deriving DecidableEq, Repr

/-- What PHP code does as far as a write depends on it: it ends, or it bails out,
or it writes and goes on from the state the write leaves. -/
inductive PhpCode (σ : Type)
  | finish (s : Interp σ)
  | bailout (s : Interp σ)
  | write (s : Interp σ) (route : WriteRoute) (next : Interp σ → PhpCode σ)

variable {σ : Type}

/-- What follows a part that has ended without a bailout. -/
def andThen (part : Option (WriteEnd σ)) (next : Interp σ → Option (WriteEnd σ)) :
    Option (WriteEnd σ) :=
  part.bind fun r =>
    if r.bailout then some r
    else (next r.state).map fun q => { q with keys := r.keys ++ q.keys }

/-- `php_output_write`. -/
def phpOutputWriteNested (op : Interp σ → Nat → Option (WriteEnd σ)) (s : Interp σ) (len : Nat) :
    Option (WriteEnd σ) :=
  if s.disabled then some ⟨s, [], false⟩ else op s len

/-- `php_error_cb` for the error of the evaluation, an `E_ERROR`, which it
reports before it bails out. -/
def phpErrorCb (op : Interp σ → Nat → Option (WriteEnd σ)) (s : Interp σ) :
    Option (WriteEnd σ) :=
  if s.ignoreRepeated && s.repeated then some ⟨s, [], true⟩
  else
    let s := { s with repeated := true }
    if s.shown = 0 then some ⟨s, [], true⟩
    else (phpOutputWriteNested op s s.shown).map fun r => { r with bailout := true }

/-- `zend_eval_string`, and `toxic_output` with what it has left in
`toxic_index`. -/
def toxicWrite (op : Interp σ → Nat → Option (WriteEnd σ)) (s : Interp σ) :
    Option (WriteEnd σ) :=
  -- `zend_execute` does nothing while an exception is pending
  if s.exception then some ⟨s, [.null], false⟩
  else
    match s.index with
    | .value v => some ⟨s, [v], false⟩
    | .autoloadThrows => some ⟨{ s with exception := true }, [.null], false⟩
    | .noClass | .noProperty => phpErrorCb op s

/-- `php_output_write_unbuffered`. -/
def phpOutputWriteUnbuffered (op : Interp σ → Nat → Option (WriteEnd σ)) (s : Interp σ) :
    Option (WriteEnd σ) :=
  if s.disabled then some ⟨s, [], false⟩ else toxicWrite op s

/-- A write. -/
def writeThrough (op : Interp σ → Nat → Option (WriteEnd σ)) (s : Interp σ) :
    WriteRoute → Option (WriteEnd σ)
  | .buffered len => phpOutputWriteNested op s len
  | .unbuffered _ => phpOutputWriteUnbuffered op s

/-- `sapi_run_header_callback`, which leaves no headers to be sent; while it runs
`SG(callback_run)` is set. -/
def runCode (op : Interp σ → Nat → Option (WriteEnd σ)) : PhpCode σ → Option (WriteEnd σ)
  | .finish s => some ⟨{ s with settled := true }, [], false⟩
  | .bailout s => some ⟨{ s with settled := true }, [], true⟩
  | .write s route next =>
      andThen (writeThrough op { s with settled := true } route) fun t => runCode op (next t)

/-- `php_output_header`; `callback` is what `SG(callback_func)` does in a state, where
one has been registered.  With an exception pending it cannot be called, and the
code is that of the warning that says so. -/
def phpOutputHeader (callback : Option (Interp σ → PhpCode σ))
    (op : Interp σ → Nat → Option (WriteEnd σ)) (s : Interp σ) : Option (WriteEnd σ) :=
  if s.settled then some ⟨s, [], false⟩
  else
    match callback with
    | none => some ⟨{ s with settled := true }, [], false⟩
    | some code => runCode op (code { s with settled := true })

/-- What the handlers leave of a state. -/
def Interp.after (s : Interp σ) (p : Passed σ) : Interp σ :=
  { s with handlers := p.handlers, exception := s.exception || p.thrown }

variable (pass : σ → Nat → Passed σ) (callback : Option (Interp σ → PhpCode σ))

/-- `php_output_op` with `PHP_OUTPUT_HANDLER_WRITE`, so deep at most. -/
def phpOutputOpNested : Nat → Interp σ → Nat → Option (WriteEnd σ)
  | 0, _, _ => none
  | depth + 1, s, len =>
      let p := pass s.handlers len
      let s := s.after p
      if p.out = 0 then some ⟨s, [], false⟩
      else
        andThen (phpOutputHeader callback (phpOutputOpNested depth) s) fun s =>
          if s.disabled then some ⟨s, [], false⟩ else toxicWrite (phpOutputOpNested depth) s

/-- A write that is over has passed on strings only. -/
def WriteEnd.Strings (r : WriteEnd σ) : Prop := ∀ v ∈ r.keys, v.isString = true

/-- What may be so deep at most ends at some depth, and every key is a string. -/
def EndsSafe (part : Nat → Option (WriteEnd σ)) : Prop := ∃ depth r, part depth = some r ∧ r.Strings

/-- The write ends, and every key is a string. -/
def WriteSafe (s : Interp σ) (route : WriteRoute) : Prop :=
  EndsSafe fun depth => writeThrough (phpOutputOpNested pass callback depth) s route

/-- What the handlers hold when so many reports of this length have come out. -/
def reported (len : Nat) (h : σ) : Nat → σ
  | 0 => h
  | k + 1 => (pass (reported len h k) len).handlers

/-- One of the reports stays in the handlers, and none before it has made a user
handler throw. -/
def ReportsEnd (len : Nat) (h : σ) : Prop :=
  ∃ k, (pass (reported pass len h k) len).out = 0 ∧
    ∀ j < k, (pass (reported pass len h j) len).thrown = false

/-- The error of the evaluation can be reported: nothing is displayed, a report
stays in the handlers, or a repeated error is not displayed again. -/
def Reportable (s : Interp σ) : Prop :=
  s.shown = 0 ∨ ReportsEnd pass s.shown s.handlers ∨
    (s.ignoreRepeated = true ∧
      (s.repeated = true ∨ (pass s.handlers s.shown).thrown = false))

/-- The evaluation gives a string, or raises an error that can be reported. -/
def IndexKnown (s : Interp σ) : Prop :=
  s.exception = false ∧
    match s.index with
    | .value v => v.isString = true
    | .autoloadThrows => False
    | .noClass | .noProperty => Reportable pass s

/-- Where no callback is called: nothing comes out of the handlers, or the index is
known then. -/
def SettledSafe (s : Interp σ) : WriteRoute → Prop
  | .buffered len =>
      s.disabled = true ∨ (pass s.handlers len).out = 0 ∨
        IndexKnown pass (s.after (pass s.handlers len))
  | .unbuffered _ => s.disabled = true ∨ IndexKnown pass s

/-- Whether the evaluation raises an error. -/
def IndexState.missing : IndexState → Bool
  | .noClass | .noProperty => true
  | .autoloadThrows | .value _ => false

/-- What such a write leaves, `none` where it reports an error and bails out. -/
def settledEnd (s : Interp σ) : WriteRoute → Option (Interp σ)
  | .buffered len =>
      let p := pass s.handlers len
      if s.disabled then some s
      else if p.out = 0 then some (s.after p)
      else if s.index.missing then none
      else some (s.after p)
  | .unbuffered _ => if s.disabled then some s else if s.index.missing then none else some s

/-- Every write of the code is safe, and what holds of the state that its end
leaves. -/
def CodeSafe (holds : Interp σ → Prop) : PhpCode σ → Prop
  | .finish s => holds { s with settled := true }
  | .bailout _ => True
  | .write s route next =>
      SettledSafe pass { s with settled := true } route ∧
        ∀ t, settledEnd pass { s with settled := true } route = some t → CodeSafe holds (next t)

/-- The headers are sent, with a callback where there is one, and what holds of the
state after that. -/
def HeaderSafe (holds : Interp σ → Prop) (s : Interp σ) : Prop :=
  if s.settled then holds s
  else
    match callback with
    | none => holds { s with settled := true }
    | some code => CodeSafe pass holds (code { s with settled := true })

/-- Nothing comes out of the handlers, or after the headers have been sent the
index is known. -/
def OpSafe (s : Interp σ) (len : Nat) : Prop :=
  (pass s.handlers len).out = 0 ∨
    HeaderSafe pass callback (fun t => t.disabled = true ∨ IndexKnown pass t)
      (s.after (pass s.handlers len))

/-- The evaluation gives a string, or raises an error that is not displayed, or whose
report is safe. -/
def EvaluationSafe (s : Interp σ) : Prop :=
  s.exception = false ∧
    match s.index with
    | .value v => v.isString = true
    | .autoloadThrows => False
    | .noClass | .noProperty =>
        (s.ignoreRepeated = true ∧ s.repeated = true) ∨ s.shown = 0 ∨
          OpSafe pass callback { s with repeated := true } s.shown

/-- The condition on a write. -/
def RouteSafe (s : Interp σ) : WriteRoute → Prop
  | .buffered len => s.disabled = true ∨ OpSafe pass callback s len
  | .unbuffered _ => s.disabled = true ∨ EvaluationSafe pass callback s

/-- After a part that has ended with nothing to report the next one goes on. -/
@[simp] theorem andThen_done (s : Interp σ) (next : Interp σ → Option (WriteEnd σ)) :
    andThen (some ⟨s, [], false⟩) next = next s := by
  simp [andThen]

/-- Parts follow each other in any grouping. -/
theorem andThen_assoc (part : Option (WriteEnd σ)) (next after : Interp σ → Option (WriteEnd σ)) :
    andThen (andThen part next) after = andThen part fun t => andThen (next t) after := by
  cases part with
  | none => rfl
  | some r =>
      cases hout : r.bailout with
      | true => simp [andThen, hout]
      | false =>
          cases hnext : next r.state with
          | none => simp [andThen, hout, hnext]
          | some q =>
              cases hq : q.bailout with
              | true => simp [andThen, hout, hnext, hq]
              | false => simp [andThen, hout, hnext, hq, Function.comp_def]

/-- What has ended has ended the same way. -/
def Extends (w deeper : Option (WriteEnd σ)) : Prop := ∀ r, w = some r → deeper = some r

/-- What has ended is itself. -/
theorem Extends.refl (w : Option (WriteEnd σ)) : Extends w w := fun _ hr => hr

/-- A part and what follows it. -/
theorem Extends.andThen {part part' : Option (WriteEnd σ)}
    {next next' : Interp σ → Option (WriteEnd σ)} (hpart : Extends part part')
    (hnext : ∀ s, Extends (next s) (next' s)) :
    Extends (Toxic.andThen part next) (Toxic.andThen part' next') := by
  intro r hr
  obtain ⟨q, hq, hr⟩ := Option.bind_eq_some_iff.mp hr
  refine Option.bind_eq_some_iff.mpr ⟨q, hpart q hq, ?_⟩
  split at hr
  next hout =>
    rw [if_pos hout]
    exact hr
  next hout =>
    rw [if_neg hout]
    obtain ⟨t, ht, hr⟩ := Option.map_eq_some_iff.mp hr
    exact Option.map_eq_some_iff.mpr ⟨t, hnext q.state t ht, hr⟩

section Deeper

variable {op op' : Interp σ → Nat → Option (WriteEnd σ)}

/-- A write through the handlers. -/
theorem Extends.phpOutputWriteNested (h : ∀ s len, Extends (op s len) (op' s len))
    (s : Interp σ) (len : Nat) :
    Extends (phpOutputWriteNested op s len) (phpOutputWriteNested op' s len) := by
  unfold Toxic.phpOutputWriteNested
  split
  · exact .refl _
  · exact h s len

/-- An evaluation. -/
theorem Extends.toxicWrite (h : ∀ s len, Extends (op s len) (op' s len)) (s : Interp σ) :
    Extends (toxicWrite op s) (toxicWrite op' s) := by
  have hreport : Extends (phpErrorCb op s) (phpErrorCb op' s) := by
    unfold phpErrorCb
    split
    · exact .refl _
    · dsimp only
      split
      · exact .refl _
      · intro r hr
        obtain ⟨q, hq, rfl⟩ := Option.map_eq_some_iff.mp hr
        exact Option.map_eq_some_iff.mpr ⟨q, Extends.phpOutputWriteNested h _ _ q hq, rfl⟩
  unfold Toxic.toxicWrite
  split
  · exact .refl _
  · split
    · exact .refl _
    · exact .refl _
    · exact hreport
    · exact hreport

/-- A write through either route. -/
theorem Extends.writeThrough (h : ∀ s len, Extends (op s len) (op' s len)) (s : Interp σ)
    (route : WriteRoute) : Extends (writeThrough op s route) (writeThrough op' s route) := by
  cases route with
  | buffered len => exact Extends.phpOutputWriteNested h s len
  | unbuffered len =>
      change Extends (phpOutputWriteUnbuffered op s) (phpOutputWriteUnbuffered op' s)
      unfold phpOutputWriteUnbuffered
      split
      · exact .refl _
      · exact Extends.toxicWrite h s

/-- The code of a callback. -/
theorem Extends.runCode (h : ∀ s len, Extends (op s len) (op' s len)) (code : PhpCode σ) :
    Extends (runCode op code) (runCode op' code) := by
  induction code with
  | finish s => exact .refl _
  | bailout s => exact .refl _
  | write s route next ih => exact (Extends.writeThrough h _ route).andThen ih

/-- The headers are sent. -/
theorem Extends.phpOutputHeader (h : ∀ s len, Extends (op s len) (op' s len)) (s : Interp σ) :
    Extends (phpOutputHeader callback op s) (phpOutputHeader callback op' s) := by
  unfold Toxic.phpOutputHeader
  split
  · exact .refl _
  · split
    · exact .refl _
    · exact Extends.runCode h _

end Deeper

/-- **A depth that is enough** for `php_output_op` stays enough. -/
theorem extends_nested (depth : Nat) (s : Interp σ) (len : Nat) :
    Extends (phpOutputOpNested pass callback depth s len)
      (phpOutputOpNested pass callback (depth + 1) s len) := by
  induction depth generalizing s len with
  | zero =>
      intro r hr
      cases hr
  | succ depth ih =>
      rw [phpOutputOpNested, phpOutputOpNested]
      split
      · exact .refl _
      · refine (Extends.phpOutputHeader callback ih _).andThen fun t => ?_
        split
        · exact .refl _
        · exact Extends.toxicWrite ih t

/-- A depth that is enough stays enough. -/
def Stable (part : Nat → Option (WriteEnd σ)) : Prop :=
  ∀ depth, Extends (part depth) (part (depth + 1))

/-- It stays enough at every greater depth. -/
theorem Stable.le {part : Nat → Option (WriteEnd σ)} (h : Stable part) {depth deeper : Nat}
    (hle : depth ≤ deeper) : Extends (part depth) (part deeper) := by
  induction hle with
  | refl => exact .refl _
  | step _ ih => exact fun r hr => h _ r (ih r hr)

/-- **A part and what follows it** are safe if the part is, and where it does not
bail out so is what follows. -/
theorem endsSafe_andThen {part : Nat → Option (WriteEnd σ)}
    {next : Nat → Interp σ → Option (WriteEnd σ)} (hpart : Stable part)
    (hnext : ∀ s, Stable fun depth => next depth s) :
    EndsSafe (fun depth => andThen (part depth) (next depth)) ↔
      ∃ depth r, part depth = some r ∧ r.Strings ∧
        (r.bailout = false → EndsSafe fun depth => next depth r.state) := by
  constructor
  · rintro ⟨depth, r, hr, hstrings⟩
    obtain ⟨q, hq, hr⟩ := Option.bind_eq_some_iff.mp hr
    refine ⟨depth, q, hq, ?_⟩
    split at hr
    next hout =>
      obtain rfl := Option.some.inj hr
      exact ⟨hstrings, fun hnot => absurd hout (by simp [hnot])⟩
    next hout =>
      obtain ⟨t, ht, rfl⟩ := Option.map_eq_some_iff.mp hr
      refine ⟨fun v hv => hstrings v (List.mem_append_left _ hv), fun _ => ⟨depth, t, ht, ?_⟩⟩
      exact fun v hv => hstrings v (List.mem_append_right _ hv)
  · rintro ⟨depth, q, hq, hstrings, hrest⟩
    cases hout : q.bailout with
    | true => exact ⟨depth, q, by simp [andThen, hq, hout], hstrings⟩
    | false =>
        obtain ⟨deeper, t, ht, hmore⟩ := hrest hout
        have hq' := hpart.le (Nat.le_max_left depth deeper) q hq
        have ht' : next (max depth deeper) q.state = some t :=
          (hnext q.state).le (Nat.le_max_right depth deeper) t ht
        refine ⟨max depth deeper, { t with keys := q.keys ++ t.keys }, ?_, ?_⟩
        · simp [andThen, hq', hout, ht']
        · intro v hv
          rcases List.mem_append.mp hv with hv | hv
          · exact hstrings v hv
          · exact hmore v hv

/-- The evaluation raises an error: there is no such class or property, and no
exception is pending. -/
structure Fails (s : Interp σ) : Prop where
  index : s.index = .noClass ∨ s.index = .noProperty
  exception : s.exception = false
  disabled : s.disabled = false

/-- A failing evaluation is an error report. -/
theorem Fails.toxicWrite {s : Interp σ} (h : Fails s)
    (op : Interp σ → Nat → Option (WriteEnd σ)) : toxicWrite op s = phpErrorCb op s := by
  unfold Toxic.toxicWrite
  rw [h.exception, if_neg Bool.false_ne_true]
  obtain hindex | hindex := h.index
  · rw [hindex]
  · rw [hindex]

/-- Handlers that do not throw leave a failing evaluation failing. -/
theorem Fails.after {s : Interp σ} (h : Fails s) {p : Passed σ} (hp : p.thrown = false) :
    Fails (s.after p) :=
  ⟨h.index, by simp [Interp.after, h.exception, hp], h.disabled⟩

/-- Where the headers are settled there is nothing to do for them. -/
theorem phpOutputHeader_settled {s : Interp σ} (h : s.settled = true)
    (op : Interp σ → Nat → Option (WriteEnd σ)) :
    phpOutputHeader callback op s = some ⟨s, [], false⟩ := by
  unfold phpOutputHeader
  exact if_pos h

/-- **One report** where the headers are settled: it stays in the handlers, a user
handler throws, or the evaluation fails again. -/
theorem Fails.nested {s : Interp σ} (h : Fails s) (hsettled : s.settled = true)
    (depth len : Nat) :
    phpOutputOpNested pass callback (depth + 1) s len =
      if (pass s.handlers len).out = 0 then some ⟨s.after (pass s.handlers len), [], false⟩
      else if (pass s.handlers len).thrown then
        some ⟨s.after (pass s.handlers len), [.null], false⟩
      else phpErrorCb (phpOutputOpNested pass callback depth) (s.after (pass s.handlers len)) := by
  have hon : (s.after (pass s.handlers len)).disabled = false := h.disabled
  have hafter : (s.after (pass s.handlers len)).settled = true := hsettled
  rw [phpOutputOpNested, phpOutputHeader_settled callback hafter, andThen_done, hon,
    if_neg Bool.false_ne_true]
  cases hthrown : (pass s.handlers len).thrown with
  | false => rw [(h.after hthrown).toxicWrite, if_neg Bool.false_ne_true]
  | true =>
      have hpending : (s.after (pass s.handlers len)).exception = true := by
        simp [Interp.after, hthrown]
      rw [Toxic.toxicWrite, hpending, if_pos rfl, if_pos rfl]

/-- A report that stays in the handlers is the end of it. -/
theorem Fails.held {s : Interp σ} (h : Fails s) (hsettled : s.settled = true) {len : Nat}
    (hout : (pass s.handlers len).out = 0) :
    EndsSafe fun depth => phpOutputOpNested pass callback depth s len := by
  refine ⟨1, ⟨s.after (pass s.handlers len), [], false⟩, ?_, by simp [WriteEnd.Strings]⟩
  exact (h.nested pass callback hsettled 0 len).trans (if_pos hout)

/-- A report that comes out and makes a user handler throw passes on what is no
string. -/
theorem Fails.thrown {s : Interp σ} (h : Fails s) (hsettled : s.settled = true) {len : Nat}
    (hout : (pass s.handlers len).out ≠ 0) (hthrown : (pass s.handlers len).thrown = true) :
    ¬ EndsSafe fun depth => phpOutputOpNested pass callback depth s len := by
  intro hends
  obtain ⟨depth, r, hr, hstrings⟩ := hends
  cases depth with
  | zero => cases hr
  | succ depth =>
      have hr := (h.nested pass callback hsettled depth len).symm.trans hr
      rw [if_neg hout, hthrown, if_pos rfl] at hr
      cases hr
      exact absurd (hstrings .null (by simp)) (by decide)

/-- The keys of a report are those of the write. -/
theorem strings_map_bailout {w : Option (WriteEnd σ)} :
    (∃ r, (w.map fun r => { r with bailout := true }) = some r ∧ r.Strings) ↔
      ∃ r, w = some r ∧ r.Strings := by
  cases w with
  | none => simp
  | some r => simp [WriteEnd.Strings]

/-- An error that has not been recorded yet, or is displayed each time, is
reported. -/
theorem phpErrorCb_shown {s : Interp σ} (op : Interp σ → Nat → Option (WriteEnd σ))
    (hfresh : (s.ignoreRepeated && s.repeated) = false) (hshown : s.shown ≠ 0)
    (hon : s.disabled = false) :
    phpErrorCb op s =
      (op { s with repeated := true } s.shown).map fun r => { r with bailout := true } := by
  unfold phpErrorCb phpOutputWriteNested
  rw [hfresh, if_neg Bool.false_ne_true]
  dsimp only
  rw [if_neg hshown, hon, if_neg Bool.false_ne_true]

/-- The first report, and those after it. -/
theorem reported_succ (len : Nat) (h : σ) (k : Nat) :
    reported pass len h (k + 1) = reported pass len (pass h len).handlers k := by
  induction k with
  | zero => rfl
  | succ k ih =>
      rw [reported, ih]
      rfl

/-- Reports end if the first one stays in the handlers, or makes none of them
throw and the others end. -/
theorem reportsEnd_iff (len : Nat) (h : σ) :
    ReportsEnd pass len h ↔ (pass h len).out = 0 ∨
      (pass h len).thrown = false ∧ ReportsEnd pass len (pass h len).handlers := by
  constructor
  · intro hends
    obtain ⟨k, hout, hquiet⟩ := hends
    cases k with
    | zero => exact Or.inl hout
    | succ k =>
        refine Or.inr ⟨hquiet 0 (by omega), k, ?_, ?_⟩
        · rwa [reported_succ] at hout
        · intro j hj
          have := hquiet (j + 1) (by omega)
          rwa [reported_succ] at this
  · intro hends
    obtain hout | ⟨hthrown, k, hout, hquiet⟩ := hends
    · exact ⟨0, hout, by omega⟩
    · refine ⟨k + 1, ?_, ?_⟩
      · rwa [reported_succ]
      · intro j hj
        cases j with
        | zero => exact hthrown
        | succ j =>
            rw [reported_succ]
            exact hquiet j (by omega)

/-- What a report of a failing evaluation leaves fails again when it is displayed
each time. -/
theorem Fails.recorded {s : Interp σ} (h : Fails s) {p : Passed σ} (hp : p.thrown = false) :
    Fails { s.after p with repeated := true } :=
  ⟨(h.after hp).index, (h.after hp).exception, h.disabled⟩

/-- **The reports of a failing evaluation** that are displayed each time end if
and only if one of them stays in the handlers. -/
theorem reports_end_iff {s : Interp σ} (h : Fails s) (hsettled : s.settled = true)
    (hshown : s.shown ≠ 0) (hagain : s.ignoreRepeated = false) :
    EndsSafe (fun depth => phpOutputOpNested pass callback depth s s.shown) ↔
      ReportsEnd pass s.shown s.handlers := by
  -- a report that comes out and throws nothing is followed by another one
  have hnext : ∀ {s : Interp σ}, s.shown ≠ 0 → s.ignoreRepeated = false → s.disabled = false →
      ∀ depth, phpErrorCb (phpOutputOpNested pass callback depth)
          (s.after (pass s.handlers s.shown)) =
        (phpOutputOpNested pass callback depth
          { s.after (pass s.handlers s.shown) with repeated := true } s.shown).map
            fun r => { r with bailout := true } := by
    intro s hshown hagain hon depth
    refine phpErrorCb_shown _ ?_ hshown hon
    simp [Interp.after, hagain]
  constructor
  · rintro ⟨depth, hends⟩
    induction depth generalizing s with
    | zero =>
        obtain ⟨r, hr, -⟩ := hends
        cases hr
    | succ depth ih =>
        rw [reportsEnd_iff]
        by_cases hout : (pass s.handlers s.shown).out = 0
        · exact Or.inl hout
        · cases hthrown : (pass s.handlers s.shown).thrown with
          | true =>
              exact absurd ⟨depth + 1, hends⟩ (h.thrown pass callback hsettled hout hthrown)
          | false =>
              beta_reduce at hends
              rw [h.nested pass callback hsettled, if_neg hout, hthrown,
                if_neg Bool.false_ne_true, hnext hshown hagain h.disabled,
                strings_map_bailout] at hends
              exact Or.inr ⟨rfl, ih (h.recorded hthrown) hsettled hshown hagain hends⟩
  · rintro ⟨k, hout, hquiet⟩
    induction k generalizing s with
    | zero => exact h.held pass callback hsettled hout
    | succ k ih =>
        by_cases hfirst : (pass s.handlers s.shown).out = 0
        · exact h.held pass callback hsettled hfirst
        · have hthrown : (pass s.handlers s.shown).thrown = false := hquiet 0 (by omega)
          rw [reported_succ] at hout
          obtain ⟨depth, hdepth⟩ := ih (h.recorded hthrown) hsettled hshown hagain hout (by
            intro j hj
            have := hquiet (j + 1) (by omega)
            rwa [reported_succ] at this)
          refine ⟨depth + 1, ?_⟩
          beta_reduce
          rw [h.nested pass callback hsettled, if_neg hfirst, hthrown, if_neg Bool.false_ne_true,
            hnext hshown hagain h.disabled, strings_map_bailout]
          exact hdepth

/-- An error that is not displayed is the end of it. -/
theorem phpErrorCb_silent {s : Interp σ} (op : Interp σ → Nat → Option (WriteEnd σ))
    (h : (s.ignoreRepeated = true ∧ s.repeated = true) ∨ s.shown = 0) :
    ∃ t, phpErrorCb op s = some ⟨t, [], true⟩ := by
  unfold phpErrorCb
  by_cases hsilent : (s.ignoreRepeated && s.repeated) = true
  · exact ⟨s, if_pos hsilent⟩
  · rw [if_neg hsilent]
    have hshown : s.shown = 0 := h.resolve_left (by simpa using hsilent)
    exact ⟨_, if_pos hshown⟩

/-- **A failing evaluation** ends without a key that is no string if and only if
its error is not displayed, or its report is safe. -/
theorem error_safe_iff {s : Interp σ} (hon : s.disabled = false) :
    EndsSafe (fun depth => phpErrorCb (phpOutputOpNested pass callback depth) s) ↔
      (s.ignoreRepeated = true ∧ s.repeated = true) ∨ s.shown = 0 ∨
        EndsSafe fun depth =>
          phpOutputOpNested pass callback depth { s with repeated := true } s.shown := by
  by_cases hsilent : (s.ignoreRepeated = true ∧ s.repeated = true) ∨ s.shown = 0
  · refine iff_of_true ?_ (or_assoc.mp (Or.inl hsilent))
    obtain ⟨t, ht⟩ := phpErrorCb_silent (phpOutputOpNested pass callback 0) hsilent
    exact ⟨0, _, ht, by simp [WriteEnd.Strings]⟩
  · obtain ⟨hfresh, hshown⟩ := not_or.mp hsilent
    have hreport := fun depth => phpErrorCb_shown (phpOutputOpNested pass callback depth)
      (by simpa using hfresh) hshown hon
    rw [or_iff_right hfresh, or_iff_right hshown]
    simp only [EndsSafe, hreport, strings_map_bailout]

/-- Where the headers are settled: its error can be reported. -/
theorem error_end_iff {s : Interp σ} (h : Fails s) (hsettled : s.settled = true) :
    EndsSafe (fun depth => phpErrorCb (phpOutputOpNested pass callback depth) s) ↔
      Reportable pass s := by
  rw [error_safe_iff pass callback h.disabled]
  by_cases hshown : s.shown = 0
  · simp [Reportable, hshown]
  · have hrecorded : Fails { s with repeated := true } := ⟨h.index, h.exception, h.disabled⟩
    unfold Reportable
    rw [or_iff_right hshown, or_iff_right hshown]
    by_cases hignore : s.ignoreRepeated = true
    · by_cases hrepeated : s.repeated = true
      · simp [hignore, hrepeated]
      · rw [or_iff_right (fun h => hrepeated h.2), reportsEnd_iff]
        by_cases hout : (pass s.handlers s.shown).out = 0
        · exact iff_of_true (hrecorded.held pass callback hsettled hout) (Or.inl (Or.inl hout))
        · cases hthrown : (pass s.handlers s.shown).thrown with
          | true =>
              exact iff_of_false (hrecorded.thrown pass callback hsettled hout hthrown)
                (by simp [hout, hrepeated])
          | false =>
              -- the second report is the same, and is not displayed
              refine iff_of_true ⟨1, ⟨Interp.after { s with repeated := true }
                (pass s.handlers s.shown), [], true⟩, ?_, by simp [WriteEnd.Strings]⟩
                (Or.inr ⟨hignore, Or.inr rfl⟩)
              beta_reduce
              rw [hrecorded.nested pass callback hsettled, if_neg hout, hthrown,
                if_neg Bool.false_ne_true]
              unfold phpErrorCb Interp.after
              rw [hignore]
              rfl
    · rw [Bool.not_eq_true] at hignore
      have hreports := reports_end_iff pass callback hrecorded hsettled hshown hignore
      rw [hreports]
      simp [hignore]

/-- A key that is passed on is a string or is not. -/
theorem one_key_iff (t : Interp σ) (v : PhpValue) :
    EndsSafe (fun _ => some (⟨t, [v], false⟩ : WriteEnd σ)) ↔ v.isString = true := by
  simp [EndsSafe, WriteEnd.Strings]

/-- An end without a key. -/
theorem endsSafe_done (t : Interp σ) : EndsSafe fun _ => some (⟨t, [], false⟩ : WriteEnd σ) :=
  ⟨0, _, rfl, by simp [WriteEnd.Strings]⟩

/-- **One evaluation** ends without a key that is no string if and only if there is
a string, or an error whose report does. -/
theorem toxicWrite_safe_iff (s : Interp σ) :
    EndsSafe (fun depth => toxicWrite (phpOutputOpNested pass callback depth) s) ↔
      s.exception = false ∧
        match s.index with
        | .value v => v.isString = true
        | .autoloadThrows => False
        | .noClass | .noProperty =>
            EndsSafe fun depth => phpErrorCb (phpOutputOpNested pass callback depth) s := by
  unfold toxicWrite
  cases s.exception with
  | true => exact (one_key_iff s .null).trans (by simp [PhpValue.isString])
  | false =>
      simp only [Bool.false_eq_true, if_false, true_and]
      cases s.index with
      | noClass => exact Iff.rfl
      | noProperty => exact Iff.rfl
      | autoloadThrows => exact (one_key_iff _ .null).trans (by simp [PhpValue.isString])
      | value v => exact one_key_iff s v

/-- Where the headers are settled: the index is known. -/
theorem evaluation_iff {s : Interp σ} (hon : s.disabled = false) (hsettled : s.settled = true) :
    EndsSafe (fun depth => toxicWrite (phpOutputOpNested pass callback depth) s) ↔
      IndexKnown pass s := by
  rw [toxicWrite_safe_iff]
  unfold IndexKnown
  refine and_congr_right fun hexception => ?_
  have hfails : s.index = .noClass ∨ s.index = .noProperty → Fails s :=
    fun hindex => ⟨hindex, hexception, hon⟩
  cases hindex : s.index with
  | noClass => exact error_end_iff pass callback (hfails (Or.inl hindex)) hsettled
  | noProperty => exact error_end_iff pass callback (hfails (Or.inr hindex)) hsettled
  | autoloadThrows => exact Iff.rfl
  | value v => exact Iff.rfl

/-- `php_output_write` is safe where output is disabled or `php_output_op` is. -/
theorem phpOutputWrite_safe_iff (s : Interp σ) (len : Nat) :
    EndsSafe (fun depth => phpOutputWriteNested (phpOutputOpNested pass callback depth) s len) ↔
      s.disabled = true ∨ EndsSafe fun depth => phpOutputOpNested pass callback depth s len := by
  unfold phpOutputWriteNested
  cases s.disabled with
  | true => exact iff_of_true (endsSafe_done s) (Or.inl rfl)
  | false => simp

/-- The unbuffered write is safe where output is disabled or the evaluation is. -/
theorem phpOutputWriteUnbuffered_safe_iff (s : Interp σ) :
    EndsSafe (fun depth => phpOutputWriteUnbuffered (phpOutputOpNested pass callback depth) s) ↔
      s.disabled = true ∨
        (s.disabled = false ∧
          EndsSafe fun depth => toxicWrite (phpOutputOpNested pass callback depth) s) := by
  unfold phpOutputWriteUnbuffered
  cases s.disabled with
  | true => exact iff_of_true (endsSafe_done s) (Or.inl rfl)
  | false => simp

/-- The depth that `php_output_op` itself takes. -/
theorem nested_safe_iff (s : Interp σ) (len : Nat) :
    EndsSafe (fun depth => phpOutputOpNested pass callback depth s len) ↔
      (pass s.handlers len).out = 0 ∨
        EndsSafe fun depth =>
          andThen (phpOutputHeader callback (phpOutputOpNested pass callback depth)
            (s.after (pass s.handlers len))) fun t =>
              if t.disabled then some ⟨t, [], false⟩
              else toxicWrite (phpOutputOpNested pass callback depth) t := by
  have hdeep : EndsSafe (fun depth => phpOutputOpNested pass callback depth s len) ↔
      EndsSafe fun depth => phpOutputOpNested pass callback (depth + 1) s len := by
    constructor
    · rintro ⟨depth, r, hr, hstrings⟩
      cases depth with
      | zero => cases hr
      | succ depth => exact ⟨depth, r, hr, hstrings⟩
    · rintro ⟨depth, h⟩
      exact ⟨depth + 1, h⟩
  rw [hdeep]
  simp only [phpOutputOpNested]
  by_cases hout : (pass s.handlers len).out = 0
  · simp only [hout, if_true, true_or, iff_true]
    exact endsSafe_done _
  · simp only [hout, if_false, false_or]

/-- Where a write that has passed the headers goes on. -/
theorem settledRest_iff {t : Interp σ} (hsettled : t.settled = true) :
    EndsSafe (fun depth => if t.disabled then some ⟨t, [], false⟩
        else toxicWrite (phpOutputOpNested pass callback depth) t) ↔
      t.disabled = true ∨ IndexKnown pass t := by
  cases hon : t.disabled with
  | true => simpa using endsSafe_done t
  | false => simpa using evaluation_iff pass callback hon hsettled

/-- **A write where the headers are settled.** -/
theorem settledSafe_iff {s : Interp σ} (hsettled : s.settled = true) (route : WriteRoute) :
    EndsSafe (fun depth => writeThrough (phpOutputOpNested pass callback depth) s route) ↔
      SettledSafe pass s route := by
  cases route with
  | buffered len =>
      refine (phpOutputWrite_safe_iff pass callback s len).trans ?_
      unfold SettledSafe
      cases hon : s.disabled with
      | true => simp
      | false =>
          have hafter : (s.after (pass s.handlers len)).settled = true := hsettled
          have hon' : (s.after (pass s.handlers len)).disabled = false := hon
          simp only [Bool.false_eq_true, false_or]
          rw [nested_safe_iff]
          simp only [phpOutputHeader_settled callback hafter, andThen_done]
          rw [settledRest_iff pass callback hafter, hon']
          simp
  | unbuffered len =>
      refine (phpOutputWriteUnbuffered_safe_iff pass callback s).trans ?_
      unfold SettledSafe
      cases hon : s.disabled with
      | true => simp
      | false => simpa using evaluation_iff pass callback hon hsettled

/-- **What such a write leaves**, and when it bails out. -/
theorem settledEnd_spec {s : Interp σ} (hsettled : s.settled = true) {route : WriteRoute}
    {depth : Nat} {r : WriteEnd σ}
    (hr : writeThrough (phpOutputOpNested pass callback depth) s route = some r)
    (hstrings : r.Strings) :
    settledEnd pass s route = if r.bailout then none else some r.state := by
  -- an evaluation that passes on strings alone leaves the state or bails out
  have hone : ∀ {t : Interp σ} {depth : Nat} {r : WriteEnd σ},
      toxicWrite (phpOutputOpNested pass callback depth) t = some r → r.Strings →
        (if r.bailout then none else some r.state)
          = if t.index.missing then none else some t := by
    intro t depth r hr hstrings
    have hnull : ∀ u : Interp σ, ¬ (⟨u, [.null], false⟩ : WriteEnd σ).Strings := by
      intro u h
      exact absurd (h .null (by simp)) (by decide)
    have herror : phpErrorCb (phpOutputOpNested pass callback depth) t = some r →
        r.bailout = true := by
      intro hr
      unfold phpErrorCb at hr
      dsimp only at hr
      split at hr
      · obtain rfl := Option.some.inj hr
        rfl
      · split at hr
        · obtain rfl := Option.some.inj hr
          rfl
        · obtain ⟨q, -, rfl⟩ := Option.map_eq_some_iff.mp hr
          rfl
    unfold toxicWrite at hr
    split at hr
    · obtain rfl := Option.some.inj hr
      exact absurd hstrings (hnull _)
    · cases hindex : t.index with
      | noClass =>
          rw [hindex] at hr
          simp [herror hr, IndexState.missing]
      | noProperty =>
          rw [hindex] at hr
          simp [herror hr, IndexState.missing]
      | autoloadThrows =>
          rw [hindex] at hr
          obtain rfl := Option.some.inj hr
          exact absurd hstrings (hnull _)
      | value v =>
          rw [hindex] at hr
          obtain rfl := Option.some.inj hr
          simp [IndexState.missing]
  cases route with
  | buffered len =>
      unfold writeThrough phpOutputWriteNested at hr
      dsimp only at hr
      unfold settledEnd
      dsimp only
      cases hon : s.disabled with
      | true =>
          rw [hon, if_pos rfl] at hr
          obtain rfl := Option.some.inj hr
          simp
      | false =>
          rw [hon, if_neg Bool.false_ne_true] at hr
          cases depth with
          | zero => cases hr
          | succ depth =>
              have hafter : (s.after (pass s.handlers len)).settled = true := hsettled
              have hon' : (s.after (pass s.handlers len)).disabled = false := hon
              rw [phpOutputOpNested, phpOutputHeader_settled callback hafter, andThen_done,
                hon', if_neg Bool.false_ne_true] at hr
              simp only [Bool.false_eq_true, if_false]
              split at hr
              next hout =>
                obtain rfl := Option.some.inj hr
                simp [hout]
              next hout =>
                rw [if_neg hout]
                exact (hone hr hstrings).symm
  | unbuffered len =>
      unfold writeThrough phpOutputWriteUnbuffered at hr
      dsimp only at hr
      unfold settledEnd
      dsimp only
      cases hon : s.disabled with
      | true =>
          rw [hon, if_pos rfl] at hr
          obtain rfl := Option.some.inj hr
          simp
      | false =>
          rw [hon, if_neg Bool.false_ne_true] at hr
          simp only [Bool.false_eq_true, if_false]
          exact (hone hr hstrings).symm

section Callback

variable {next : Nat → Interp σ → Option (WriteEnd σ)}

/-- **The code of a callback**, and what follows it. -/
theorem codeSafe_iff (hnext : ∀ s, Stable fun depth => next depth s) (code : PhpCode σ) :
    EndsSafe (fun depth =>
        andThen (runCode (phpOutputOpNested pass callback depth) code) (next depth)) ↔
      CodeSafe pass (fun t => EndsSafe fun depth => next depth t) code := by
  induction code with
  | finish s => simp only [runCode, andThen_done, CodeSafe]
  | bailout s =>
      refine iff_of_true ⟨0, ⟨{ s with settled := true }, [], true⟩, rfl, ?_⟩ trivial
      simp [WriteEnd.Strings]
  | write s route rest ih =>
      have hstable : ∀ t, Stable fun depth =>
          andThen (runCode (phpOutputOpNested pass callback depth) (rest t)) (next depth) :=
        fun t depth => (Extends.runCode (extends_nested pass callback depth) _).andThen
          fun u => hnext u depth
      have hwrite : Stable fun depth =>
          writeThrough (phpOutputOpNested pass callback depth) { s with settled := true } route :=
        fun depth => Extends.writeThrough (extends_nested pass callback depth) _ route
      simp only [runCode, andThen_assoc]
      rw [endsSafe_andThen hwrite hstable]
      unfold CodeSafe
      constructor
      · rintro ⟨depth, r, hr, hstrings, hrest⟩
        refine ⟨(settledSafe_iff pass callback rfl route).mp ⟨depth, r, hr, hstrings⟩, ?_⟩
        intro t ht
        rw [settledEnd_spec pass callback rfl hr hstrings] at ht
        split at ht
        next => cases ht
        next hout =>
          obtain rfl := Option.some.inj ht
          exact (ih r.state).mp (hrest (by simpa using hout))
      · rintro ⟨hsafe, hrest⟩
        obtain ⟨depth, r, hr, hstrings⟩ := (settledSafe_iff pass callback rfl route).mpr hsafe
        refine ⟨depth, r, hr, hstrings, fun hout => (ih r.state).mpr (hrest r.state ?_)⟩
        rw [settledEnd_spec pass callback rfl hr hstrings, hout]
        simp

/-- **The headers are sent**, and what follows. -/
theorem headerSafe_iff (hnext : ∀ s, Stable fun depth => next depth s) (s : Interp σ) :
    EndsSafe (fun depth =>
        andThen (phpOutputHeader callback (phpOutputOpNested pass callback depth) s)
          (next depth)) ↔
      HeaderSafe pass callback (fun t => EndsSafe fun depth => next depth t) s := by
  unfold phpOutputHeader HeaderSafe
  cases s.settled with
  | true => simp
  | false =>
      simp only [Bool.false_eq_true, if_false]
      cases callback with
      | none => simp
      | some code => exact codeSafe_iff pass (some code) hnext _

end Callback

/-- Code that leaves settled states cares for what holds of those alone. -/
theorem CodeSafe.congr {holds holds' : Interp σ → Prop}
    (h : ∀ t, t.settled = true → (holds t ↔ holds' t)) (code : PhpCode σ) :
    CodeSafe pass holds code ↔ CodeSafe pass holds' code := by
  induction code with
  | finish s => exact h _ rfl
  | bailout s => exact Iff.rfl
  | write s route rest ih =>
      unfold CodeSafe
      exact and_congr_right fun _ => forall_congr' fun t => imp_congr_right fun _ => ih t

/-- The headers are settled once they have been sent. -/
theorem HeaderSafe.congr {holds holds' : Interp σ → Prop}
    (h : ∀ t, t.settled = true → (holds t ↔ holds' t)) (s : Interp σ) :
    HeaderSafe pass callback holds s ↔ HeaderSafe pass callback holds' s := by
  unfold HeaderSafe
  split
  next hsettled => exact h s hsettled
  next =>
    split
    next => exact h _ rfl
    next code => exact CodeSafe.congr pass h _

/-- **`php_output_op`** ends and passes on strings only. -/
theorem opSafe_iff (s : Interp σ) (len : Nat) :
    EndsSafe (fun depth => phpOutputOpNested pass callback depth s len) ↔
      OpSafe pass callback s len := by
  rw [nested_safe_iff]
  unfold OpSafe
  refine or_congr_right ?_
  have hnext : ∀ t : Interp σ, Stable fun depth =>
      if t.disabled then some ⟨t, [], false⟩
      else toxicWrite (phpOutputOpNested pass callback depth) t := by
    intro t depth
    dsimp only
    split
    · exact .refl _
    · exact Extends.toxicWrite (extends_nested pass callback depth) t
  rw [headerSafe_iff pass callback hnext]
  exact HeaderSafe.congr pass callback (fun t ht => settledRest_iff pass callback ht) _

/-- The handlers of `ob_start` with the default function: whether one is running,
in which case what is written goes to the one on top, and how full they are. -/
def defaultPass (h : Bool × List Level) (len : Nat) : Passed (Bool × List Level) :=
  match h with
  | (true, l :: ls) => ⟨(true, { l with used := l.used + len } :: ls), 0, false⟩
  | (running, ls) => ⟨(running, (fill ls len).1), (fill ls len).2, false⟩

/-- A handler that keeps a report of this length once it is empty. -/
def Level.Keeps (len : Nat) (l : Level) : Prop := l.size = 0 ∨ len < l.size

/-- What comes out of handlers none of which keeps it is all there is. -/
theorem fill_full {ls : List Level} {len n : Nat} (hlen : 0 < len) (hn : len ≤ n)
    (h : ∀ l ∈ ls, ¬ l.Keeps len) :
    n ≤ (fill ls n).2 ∧ ∀ l ∈ (fill ls n).1, ¬ l.Keeps len := by
  induction ls generalizing n with
  | nil => exact ⟨le_refl n, h⟩
  | cons l ls ih =>
      rw [List.forall_mem_cons] at h
      obtain ⟨hl, hls⟩ := h
      have hfull : l.size ≠ 0 ∧ l.size ≤ l.used + n := by
        unfold Level.Keeps at hl
        omega
      obtain ⟨hout, hkeeps⟩ := ih (show len ≤ l.used + n by omega) hls
      unfold fill
      rw [if_neg (by omega), if_pos hfull]
      refine ⟨by omega, ?_⟩
      rw [List.forall_mem_cons]
      exact ⟨hl, hkeeps⟩

/-- Handlers that something has come out of are empty, and keep what they kept. -/
theorem fill_empties {ls : List Level} {n : Nat} (h : (fill ls n).2 ≠ 0) :
    (∀ l ∈ (fill ls n).1, l.used = 0) ∧
      (fill ls n).1.map Level.size = ls.map Level.size := by
  induction ls generalizing n with
  | nil => simp [fill]
  | cons l ls ih =>
      unfold fill at h ⊢
      split at h
      · exact absurd rfl h
      · next hn =>
          split at h
          · next hfull =>
              obtain ⟨hempty, hsize⟩ := ih h
              rw [if_neg hn, if_pos hfull]
              refine ⟨?_, by rw [List.map_cons, List.map_cons, hsize]⟩
              rw [List.forall_mem_cons]
              exact ⟨rfl, hempty⟩
          · exact absurd rfl h

/-- Nothing comes out of empty handlers one of which keeps it. -/
theorem fill_kept {ls : List Level} {len : Nat} (hempty : ∀ l ∈ ls, l.used = 0)
    (h : ∃ l ∈ ls, l.Keeps len) : (fill ls len).2 = 0 := by
  induction ls with
  | nil => simp at h
  | cons l ls ih =>
      rw [List.forall_mem_cons] at hempty
      unfold fill
      split
      · rfl
      · split
        · next hfull =>
            rw [hempty.1, Nat.zero_add] at hfull ⊢
            apply ih hempty.2
            obtain ⟨k, hk, hkeeps⟩ := h
            rcases List.mem_cons.mp hk with hk | hk
            · rw [hk] at hkeeps
              unfold Level.Keeps at hkeeps
              omega
            · exact ⟨k, hk, hkeeps⟩
        · rfl

/-- **With the default handlers** the reports end if and only if a handler is
running, or one of them keeps a report when it is empty. -/
theorem reportsEnd_default {len : Nat} (hlen : 0 < len) (running : Bool) (ls : List Level) :
    ReportsEnd defaultPass len (running, ls) ↔
      (running = true ∧ ls ≠ []) ∨ ∃ l ∈ ls, l.Keeps len := by
  by_cases hrunning : running = true ∧ ls ≠ []
  · refine iff_of_true ⟨0, ?_, by omega⟩ (Or.inl hrunning)
    obtain ⟨hrun, hne⟩ := hrunning
    cases ls with
    | nil => exact absurd rfl hne
    | cons l ls => rw [reported, hrun, defaultPass]
  · rw [or_iff_right hrunning]
    -- no handler is running, or there is none
    have hfill : ∀ ls' : List Level, ls'.length = ls.length →
        defaultPass (running, ls') len = ⟨(running, (fill ls' len).1), (fill ls' len).2, false⟩ := by
      intro ls' hls'
      unfold defaultPass
      split
      · next l rest heq =>
          cases heq
          refine absurd ⟨rfl, ?_⟩ hrunning
          intro hnil
          rw [hnil] at hls'
          cases hls'
      · next heq =>
          cases heq
          rfl
    constructor
    · intro hends
      by_contra hnone
      have hnone : ∀ l ∈ ls, ¬ l.Keeps len := by
        intro l hl hkeeps
        exact hnone ⟨l, hl, hkeeps⟩
      have hall : ∀ k, ∃ ls', reported defaultPass len (running, ls) k = (running, ls') ∧
          ls'.length = ls.length ∧ ∀ l ∈ ls', ¬ l.Keeps len := by
        intro k
        induction k with
        | zero => exact ⟨ls, rfl, rfl, hnone⟩
        | succ k ih =>
            obtain ⟨ls', hls', hlength, hkeeps⟩ := ih
            obtain ⟨hout, hkeeps'⟩ := fill_full hlen (le_refl len) hkeeps
            have hsize := (fill_empties (show (fill ls' len).2 ≠ 0 by omega)).2
            refine ⟨(fill ls' len).1, ?_, ?_, hkeeps'⟩
            · rw [reported, hls', hfill ls' hlength]
            · rw [← hlength]
              simpa using congrArg List.length hsize
      obtain ⟨k, hout, -⟩ := hends
      obtain ⟨ls', hls', hlength, hkeeps⟩ := hall k
      rw [hls', hfill ls' hlength] at hout
      have := (fill_full hlen (le_refl len) hkeeps).1
      dsimp only at hout
      omega
    · intro hkeeps
      by_cases hout : (fill ls len).2 = 0
      · exact ⟨0, by rw [reported, hfill ls rfl]; exact hout, by omega⟩
      · obtain ⟨hempty, hsize⟩ := fill_empties hout
        have hlength : (fill ls len).1.length = ls.length := by
          simpa using congrArg List.length hsize
        have hkeeps' : ∃ l ∈ (fill ls len).1, l.Keeps len := by
          obtain ⟨l, hl, hkeeps⟩ := hkeeps
          have hmem : l.size ∈ (fill ls len).1.map Level.size := by
            rw [hsize]
            exact List.mem_map_of_mem hl
          obtain ⟨l', hl', hsame⟩ := List.mem_map.mp hmem
          refine ⟨l', hl', ?_⟩
          unfold Level.Keeps at hkeeps ⊢
          rwa [hsame]
        refine ⟨1, ?_, ?_⟩
        · rw [reported, reported, hfill ls rfl, hfill _ hlength]
          exact fill_kept hempty hkeeps'
        · intro j hj
          obtain rfl : j = 0 := by omega
          rw [reported, hfill ls rfl]

end Toxic
