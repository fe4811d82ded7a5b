import ToxicNginx.OutputChain

/-!
# The stack of output handlers

`php_output_op` passes what a script writes through the handlers that
`ob_start` has pushed, and what comes out at the bottom goes to `toxic_output`
and from there to `callback_output`.  `exit_request` builds the response from
the strings delivered until then; `php_output_end_all`, which empties the
handlers in `php_request_shutdown`, is not called.  What a handler still holds
then is there when `Start` runs for the next request.

* `handlerOp`, `outputOp` — one handler, and the stack from the top down;
* `OutputLayer`, `outputStep` — the layer with the calls of a script; every
  byte carries its position, so that a byte is known from another one of the
  same value;
* `Delivered` — what the strings must be when `Start` returns;
* `Level`, `levelStep` — how full the handlers are, and how much an earlier
  request has left in them, which the lengths of the writes alone decide;
* `OutputLayer.Kept` — what is written and not discarded is delivered or still
  in a handler;
* `OutputLayer.Kept.brings_iff` — when the strings are what was written and not
  discarded;
* `delivered_iff` — the exact condition on the calls.
-/

namespace Toxic

/-- `php_output_handler` with the default function, which passes everything
on: the chunk size, the ability flags, and what is buffered. -/
structure OutputHandler (α : Type) where
  size : Nat
  cleanable : Bool
  flushable : Bool
  removable : Bool
  buffer : List α
  deriving DecidableEq, Repr

/-- The operations of a handler, `PHP_OUTPUT_HANDLER_WRITE` and the others. -/
inductive HandlerOp
  | write
  | clean
  | flush
  | final
  deriving DecidableEq, Repr

variable {α : Type}

/-- `php_output_handler_append`: the handler, and whether it need not be
processed yet.  No handler is running. -/
def handlerAppend (h : OutputHandler α) (data : List α) : OutputHandler α × Bool :=
  if data.isEmpty then (h, true)
  else
    let h := { h with buffer := h.buffer ++ data }
    (h, !decide (h.size ≠ 0 ∧ h.size ≤ h.buffer.length))

/-- `php_output_handler_op`: the handler, and what it passes on, `none` for
`PHP_OUTPUT_HANDLER_NO_DATA`. -/
def handlerOp (op : HandlerOp) (h : OutputHandler α) (data : List α) :
    OutputHandler α × Option (List α) :=
  let (h, storable) := handlerAppend h data
  if storable && op == .write then (h, none)
  else ({ h with buffer := [] }, if h.buffer.isEmpty then none else some h.buffer)

/-- `php_output_op` up to the call of the SAPI: the handlers from the top of the
stack, and what comes out of the last one. -/
def outputOp (op : HandlerOp) : List (OutputHandler α) → List α →
    List (OutputHandler α) × List α
  | [], data => ([], data)
  | h :: hs, data =>
      match handlerOp op h data with
      | (h, none) => (h :: hs, [])
      | (h, some out) => (h :: (outputOp op hs out).1, (outputOp op hs out).2)

/-- A byte a script writes, and how many it has written before. -/
abbrev Written := UInt8 × Nat

/-- What the handlers hold, from the bottom of the stack. -/
def pending : List (OutputHandler α) → List α
  | [] => []
  | h :: hs => pending hs ++ h.buffer

/-- The handlers that an earlier request of the process has left open: the bytes
they hold count as written before all others. -/
def numbered : List (OutputHandler UInt8) → List (OutputHandler Written)
  | [] => []
  | h :: hs => { h with buffer := h.buffer.zipIdx (pending hs).length } :: numbered hs

/-- The output layer while `Start` runs: `OG(handlers)` from the top,
`callbacks[0].key`, `Toxic::$output_index`, and the strings `callback_output`
has got.  `written` is what the handlers held before, and then what the script
has written; `discarded` is what it has discarded. -/
structure OutputLayer where
  handlers : List (OutputHandler Written)
  key : Bytes
  index : Bytes
  delivered : List (List Written)
  written : List Written
  discarded : List Written
  deriving DecidableEq, Repr

/-- A string as an `unsigned int` length has it. -/
def cutLength (str : List α) : List α := str.take (str.length % 2 ^ 32)

/-- `toxic_output`, whose first callback is the one of the request. -/
def OutputLayer.route (s : OutputLayer) (str : List Written) : OutputLayer :=
  if s.index = s.key then { s with delivered := s.delivered ++ [cutLength str] } else s

/-- The string that `route` delivers is the one `toxic_output` hands to
`callback_output`. -/
theorem toxicOutput_cutLength (key : Bytes) (rest : List RequestCallback) (a : Allocs)
    (str : Bytes) (o : Output) :
    toxicOutput (⟨some key⟩ :: rest) (some key) a str o = callbackOutput a (cutLength str) o := by
  simp only [toxicOutput, searchCallback, List.getElem?_cons_zero, if_true, cutLength]

/-- `php_output_write`. -/
def phpOutputWrite (s : OutputLayer) (data : List Written) : OutputLayer :=
  let passed := outputOp .write s.handlers data
  let s := { s with handlers := passed.1 }
  if passed.2.isEmpty then s else s.route passed.2

/-- The bytes of a text that is written next. -/
def OutputLayer.fresh (s : OutputLayer) (text : Bytes) : List Written :=
  text.zipIdx s.written.length

/-- `echo`, and whatever else writes a text. -/
def OutputLayer.echo (s : OutputLayer) (text : Bytes) : OutputLayer :=
  let data := s.fresh text
  { phpOutputWrite s data with written := s.written ++ data }

/-- The calls of a script that concern its output.  A call that fails writes a
notice, which is empty when errors are not displayed. -/
inductive OutputCall
  | echo (text : Bytes)
  | obStart (chunkSize : Int) (cleanable flushable removable : Bool)
  | obFlush (notice : Bytes)
  | obClean (notice : Bytes)
  | obEndFlush (notice : Bytes)
  | obEndClean (notice : Bytes)
  deriving DecidableEq, Repr

/-- What is left of a handler that passes its data on: the data is written into
the handlers below it. -/
def OutputLayer.passOn (s : OutputLayer) (out : Option (List Written)) : OutputLayer :=
  match out with
  | none => s
  | some text => phpOutputWrite s text

/-- One call. -/
def outputStep (s : OutputLayer) : OutputCall → OutputLayer
  | .echo text => s.echo text
  | .obStart chunkSize cleanable flushable removable =>
      { s with
        handlers := ⟨chunkSize.toNat, cleanable, flushable, removable, []⟩ :: s.handlers }
  | .obFlush notice =>
      match s.handlers with
      | [] => s.echo notice
      | h :: hs =>
          if h.flushable then
            let (h, out) := handlerOp .flush h []
            -- the handler is off the stack while its data is written
            let s := OutputLayer.passOn { s with handlers := hs } out
            { s with handlers := h :: s.handlers }
          else s.echo notice
  | .obClean notice =>
      match s.handlers with
      | [] => s.echo notice
      | h :: hs =>
          if h.cleanable then
            { s with
              handlers := (handlerOp .clean h []).1 :: hs
              discarded := s.discarded ++ h.buffer }
          else s.echo notice
  | .obEndFlush notice =>
      match s.handlers with
      | [] => s.echo notice
      | h :: hs =>
          if h.removable then OutputLayer.passOn { s with handlers := hs } (handlerOp .final h []).2
          else s.echo notice
  | .obEndClean notice =>
      match s.handlers with
      | [] => s.echo notice
      | h :: hs =>
          if h.removable then
            { s with handlers := hs, discarded := s.discarded ++ h.buffer }
          else s.echo notice

/-- `Start` has got its key and assigned it to `Toxic::$output_index`; nothing is
done to the handlers that an earlier request of the process has left open. -/
def OutputLayer.start (key : Bytes) (left : List (OutputHandler UInt8)) : OutputLayer :=
  ⟨numbered left, key, key, [], (pending left).zipIdx, []⟩

/-- A run of `Start`. -/
def OutputLayer.run (s : OutputLayer) (calls : List OutputCall) : OutputLayer :=
  calls.foldl outputStep s

/-- What must hold when `exit_request` builds the response, where the handlers
held so many bytes before `Start`: the strings are what `Start` has written and
not discarded, and no handler holds a byte. -/
structure Delivered (before : Nat) (s : OutputLayer) : Prop where
  strings : s.delivered.flatten = (s.written.drop before).filter fun b => b ∉ s.discarded
  empty : ∀ h ∈ s.handlers, h.buffer = []

/-- How full a handler is. -/
structure Level where
  size : Nat
  cleanable : Bool
  flushable : Bool
  removable : Bool
  used : Nat
  deriving DecidableEq, Repr

/-- The level of a handler. -/
def OutputHandler.level (h : OutputHandler α) : Level :=
  ⟨h.size, h.cleanable, h.flushable, h.removable, h.buffer.length⟩

/-- So many bytes are put into the levels from the top: the levels, and how many
come out at the bottom. -/
def fill : List Level → Nat → List Level × Nat
  | [], n => ([], n)
  | l :: ls, n =>
      if n = 0 then (l :: ls, 0)
      else if l.size ≠ 0 ∧ l.size ≤ l.used + n then
        ({ l with used := 0 } :: (fill ls (l.used + n)).1, (fill ls (l.used + n)).2)
      else ({ l with used := l.used + n } :: ls, 0)

/-- The levels, the lengths of the strings that have come out, and how many bytes
of an earlier request have not been discarded. -/
structure Fullness where
  levels : List Level
  passed : List Nat
  foreign : Nat
  deriving DecidableEq, Repr

/-- So many bytes are written. -/
def Fullness.write (f : Fullness) (n : Nat) : Fullness :=
  { f with
    levels := (fill f.levels n).1
    passed := if (fill f.levels n).2 = 0 then f.passed else f.passed ++ [(fill f.levels n).2] }

/-- The top level is discarded, and these levels are left: the bytes of an earlier
request, which come first, are cut to what is left and what has come out. -/
def Fullness.discard (f : Fullness) (levels : List Level) : Fullness :=
  { f with
    levels := levels
    foreign := min f.foreign (f.passed.sum + (levels.map Level.used).sum) }

/-- How one call changes the levels. -/
def levelStep (f : Fullness) : OutputCall → Fullness
  | .echo text => f.write text.length
  | .obStart chunkSize cleanable flushable removable =>
      { f with levels := ⟨chunkSize.toNat, cleanable, flushable, removable, 0⟩ :: f.levels }
  | .obFlush notice =>
      match f.levels with
      | [] => f.write notice.length
      | l :: ls =>
          if l.flushable then
            let f := Fullness.write { f with levels := ls } l.used
            { f with levels := { l with used := 0 } :: f.levels }
          else f.write notice.length
  | .obClean notice =>
      match f.levels with
      | [] => f.write notice.length
      | l :: ls =>
          if l.cleanable then f.discard ({ l with used := 0 } :: ls)
          else f.write notice.length
  | .obEndFlush notice =>
      match f.levels with
      | [] => f.write notice.length
      | l :: ls =>
          if l.removable then Fullness.write { f with levels := ls } l.used
          else f.write notice.length
  | .obEndClean notice =>
      match f.levels with
      | [] => f.write notice.length
      | l :: ls =>
          if l.removable then f.discard ls else f.write notice.length

/-- The levels when `Start` returns. -/
def fullness (left : List (OutputHandler UInt8)) (calls : List OutputCall) : Fullness :=
  calls.foldl levelStep ⟨left.map OutputHandler.level, [], (pending left).length⟩

/-- The lengths of the strings that come out, where the first so many bytes are of
an earlier request.  Behind these a string is no longer than an `unsigned int`
says.  Before, it would bring them into the response, unless it has no other byte
and its length is cut to nothing. -/
def Fits : Nat → List Nat → Prop
  | _, [] => True
  | 0, n :: ns => n < 2 ^ 32 ∧ Fits 0 ns
  | foreign + 1, n :: ns => (n ≤ foreign + 1 ∧ 2 ^ 32 ∣ n) ∧ Fits (foreign + 1 - n) ns

/-- The strings that have come out bring what is not of an earlier request and
nothing else: they fit, and what the handlers hold is nothing or of an earlier
request. -/
structure Fullness.Brings (f : Fullness) : Prop where
  fits : Fits f.foreign f.passed
  held : (f.levels.map Level.used).sum = 0 ∨
    f.passed.sum + (f.levels.map Level.used).sum ≤ f.foreign

/-- The handlers that are open when `Start` returns have been emptied, and the
strings that came out of them fit. -/
structure Emptied (left : List (OutputHandler UInt8)) (calls : List OutputCall) : Prop where
  levels : ∀ l ∈ (fullness left calls).levels, l.used = 0
  passed : Fits (fullness left calls).foreign (fullness left calls).passed

/-- A handler that is given data stores it, or passes everything on when the
chunk is full. -/
theorem handlerOp_write (h : OutputHandler α) (data : List α) :
    handlerOp .write h data =
      if data.length = 0 then (h, none)
      else if h.size ≠ 0 ∧ h.size ≤ h.buffer.length + data.length then
        ({ h with buffer := [] }, some (h.buffer ++ data))
      else ({ h with buffer := h.buffer ++ data }, none) := by
  cases data with
  | nil => simp [handlerOp, handlerAppend]
  | cons b bs =>
      have hstored : handlerAppend h (b :: bs) = ({ h with buffer := h.buffer ++ b :: bs },
          !decide (h.size ≠ 0 ∧ h.size ≤ h.buffer.length + (b :: bs).length)) := by
        simp only [handlerAppend, List.isEmpty_cons, Bool.false_eq_true, if_false,
          List.length_append]
      unfold handlerOp
      rw [hstored]
      by_cases hfull : h.size ≠ 0 ∧ h.size ≤ h.buffer.length + (b :: bs).length
      · simp only [hfull]
        simp
      · simp only [hfull, decide_false]
        simp

/-- Any other operation takes out what is buffered. -/
theorem handlerOp_drain {op : HandlerOp} (hop : op ≠ .write) (h : OutputHandler α) :
    handlerOp op h [] =
      ({ h with buffer := [] }, if h.buffer.isEmpty then none else some h.buffer) := by
  cases op with
  | write => exact absurd rfl hop
  | clean => rfl
  | flush => rfl
  | final => rfl

/-- **The stack loses nothing**: what comes out and what is left is what was
there and the data. -/
theorem outputOp_conserves (hs : List (OutputHandler α)) (data : List α) :
    (outputOp .write hs data).2 ++ pending (outputOp .write hs data).1 = pending hs ++ data := by
  induction hs generalizing data with
  | nil => simp [outputOp, pending]
  | cons h hs ih =>
      unfold outputOp
      rw [handlerOp_write]
      split
      next out hop =>
        split at hop
        next hempty =>
          obtain rfl := List.length_eq_zero_iff.mp hempty
          cases hop
          simp [pending]
        next =>
          split at hop
          next => cases hop
          next => cases hop; simp [pending]
      next out hop =>
        split at hop
        next => cases hop
        next =>
          split at hop
          next => cases hop; simp [pending, ← List.append_assoc, ih]
          next => cases hop

/-- The levels say how full the handlers get, and how much comes out. -/
theorem outputOp_levels (hs : List (OutputHandler α)) (data : List α) :
    (outputOp .write hs data).1.map OutputHandler.level
        = (fill (hs.map OutputHandler.level) data.length).1 ∧
      (outputOp .write hs data).2.length
        = (fill (hs.map OutputHandler.level) data.length).2 := by
  induction hs generalizing data with
  | nil => simp [outputOp, fill]
  | cons h hs ih =>
      unfold outputOp
      rw [handlerOp_write]
      simp only [List.map_cons, fill]
      by_cases hempty : data.length = 0
      · simp [hempty]
      · by_cases hfull : h.size ≠ 0 ∧ h.size ≤ h.buffer.length + data.length
        · have hlevel : h.level.size ≠ 0 ∧ h.level.size ≤ h.level.used + data.length := hfull
          have hrest := ih (h.buffer ++ data)
          rw [List.length_append] at hrest
          rw [if_neg hempty, if_pos hfull, if_neg hempty, if_pos hlevel]
          exact ⟨by simpa [OutputHandler.level] using hrest.1, hrest.2⟩
        · have hlevel : ¬(h.level.size ≠ 0 ∧ h.level.size ≤ h.level.used + data.length) := hfull
          rw [if_neg hempty, if_neg hfull, if_neg hempty, if_neg hlevel]
          simp [OutputHandler.level]

/-- The layer holds the bytes `all`: those that came out of the handlers, in the
strings `passed`, and those that are left in them. -/
structure OutputLayer.Holds (s : OutputLayer) (f : Fullness) (passed : List (List Written))
    (all : List Written) : Prop where
  routed : s.index = s.key
  delivered : s.delivered = passed.map cutLength
  lengths : f.passed = passed.map List.length
  levels : f.levels = s.handlers.map OutputHandler.level
  bytes : passed.flatten ++ pending s.handlers = all

/-- **A write** adds its data. -/
theorem OutputLayer.Holds.write {s : OutputLayer} {f : Fullness} {passed : List (List Written)}
    {all : List Written} (h : s.Holds f passed all) (data : List Written) :
    ∃ passed', (phpOutputWrite s data).Holds (f.write data.length) passed' (all ++ data) := by
  obtain ⟨hlevels, hlength⟩ := outputOp_levels s.handlers data
  rw [← h.levels] at hlevels hlength
  have hbytes := outputOp_conserves s.handlers data
  have hall : all ++ data = passed.flatten
      ++ ((outputOp .write s.handlers data).2 ++ pending (outputOp .write s.handlers data).1) := by
    rw [hbytes, ← h.bytes, List.append_assoc]
  unfold phpOutputWrite Fullness.write
  by_cases hout : (outputOp .write s.handlers data).2 = []
  · refine ⟨passed, ?_⟩
    rw [hout] at hlength hall
    simp only [hout, List.isEmpty_nil, if_true, ← hlength, List.length_nil]
    exact ⟨h.routed, h.delivered, h.lengths, hlevels.symm, hall.symm⟩
  · refine ⟨passed ++ [(outputOp .write s.handlers data).2], ?_⟩
    have hlen : (fill f.levels data.length).2 ≠ 0 := by
      rw [← hlength]
      exact fun hzero => hout (List.length_eq_zero_iff.mp hzero)
    have hsome : (outputOp .write s.handlers data).2.isEmpty = false := by simpa using hout
    simp only [hsome, Bool.false_eq_true, if_false, hlen, OutputLayer.route, h.routed, if_true]
    refine ⟨rfl, ?_, ?_, hlevels.symm, ?_⟩
    · simp [h.delivered]
    · simp [h.lengths, hlength]
    · rw [hall]
      simp

/-- What a handler passes on is written, also when it is nothing. -/
theorem OutputLayer.Holds.passOn {s : OutputLayer} {f : Fullness} {passed : List (List Written)}
    {all : List Written} (h : s.Holds f passed all) (buffer : List Written) :
    ∃ passed', (s.passOn (if buffer.isEmpty then none else some buffer)).Holds
      (f.write buffer.length) passed' (all ++ buffer) := by
  by_cases hempty : buffer = []
  · subst hempty
    obtain ⟨passed', h'⟩ := h.write []
    have hsame : phpOutputWrite s [] = s := by
      unfold phpOutputWrite
      cases hs : s.handlers with
      | nil => simp [outputOp, ← hs]
      | cons g gs => simp [outputOp, handlerOp, handlerAppend, ← hs]
    rw [hsame] at h'
    exact ⟨passed', h'⟩
  · have hsome : buffer.isEmpty = false := by simpa using hempty
    rw [hsome]
    exact h.write buffer

/-- **Nothing is lost.**  The layer holds what is written and not discarded; the
bytes that are written are numbered, and of the first so many, those of an
earlier request, the levels know how many are not discarded. -/
structure OutputLayer.Kept (before : Nat) (s : OutputLayer) (f : Fullness)
    (passed : List (List Written)) : Prop where
  holds : s.Holds f passed (s.written.filter fun b => b ∉ s.discarded)
  numbered : s.written.map Prod.snd = List.range s.written.length
  discarded : ∀ b ∈ s.discarded, b ∈ s.written
  earlier : before ≤ s.written.length
  foreign : ((s.written.take before).filter fun b => b ∉ s.discarded).length = f.foreign

/-- The bytes written next are none of those written before. -/
theorem OutputLayer.Kept.fresh_notMem {before : Nat} {s : OutputLayer} {f : Fullness}
    {passed : List (List Written)} (h : s.Kept before f passed) {text : Bytes} {b : Written}
    (hb : b ∈ s.fresh text) : b ∉ s.written := by
  intro hmem
  have hlt : b.2 < s.written.length := by
    have : b.2 ∈ s.written.map Prod.snd := List.mem_map_of_mem hmem
    rw [h.numbered, List.mem_range] at this
    exact this
  have hge : s.written.length ≤ b.2 := by
    obtain ⟨v, n⟩ := b
    exact List.le_snd_of_mem_zipIdx hb
  omega

/-- The text of a call is written. -/
theorem OutputLayer.Kept.echo {before : Nat} {s : OutputLayer} {f : Fullness}
    {passed : List (List Written)} (h : s.Kept before f passed) (text : Bytes) :
    ∃ passed', (s.echo text).Kept before (f.write text.length) passed' := by
  obtain ⟨passed', h'⟩ := h.holds.write (s.fresh text)
  have hlen : (s.fresh text).length = text.length := List.length_zipIdx
  have hsame : (phpOutputWrite s (s.fresh text)).discarded = s.discarded := by
    unfold phpOutputWrite OutputLayer.route
    dsimp only
    split
    · rfl
    · split
      · rfl
      · rfl
  have hfilter : (s.written ++ s.fresh text).filter (fun b => b ∉ s.discarded)
      = s.written.filter (fun b => b ∉ s.discarded) ++ s.fresh text := by
    rw [List.filter_append]
    congr 1
    apply List.filter_eq_self.mpr
    intro b hb
    have hnot := h.fresh_notMem hb
    simpa using fun hmem => hnot (h.discarded b hmem)
  refine ⟨passed', ?_, ?_, ?_, ?_, ?_⟩
  · unfold OutputLayer.echo
    dsimp only
    rw [hsame, hfilter, ← hlen]
    exact ⟨h'.routed, h'.delivered, h'.lengths, h'.levels, h'.bytes⟩
  · simp only [OutputLayer.echo, List.map_append, List.length_append, h.numbered, hlen,
      List.range_add]
    congr 1
    simp [OutputLayer.fresh, List.range'_eq_map_range]
  · intro b hb
    unfold OutputLayer.echo at hb ⊢
    dsimp only at hb ⊢
    rw [hsame] at hb
    exact List.mem_append_left _ (h.discarded b hb)
  · simp only [OutputLayer.echo, List.length_append]
    exact Nat.le_add_right_of_le h.earlier
  · simp only [OutputLayer.echo, hsame, List.take_append_of_le_length h.earlier]
    exact h.foreign

/-- What is discarded is taken away from the end of what is kept. -/
theorem filter_discard {all kept buffer discarded : List Written} (hnodup : all.Nodup)
    (h : all.filter (fun b => b ∉ discarded) = kept ++ buffer) :
    all.filter (fun b => b ∉ discarded ++ buffer) = kept := by
  have hboth : all.filter (fun b => b ∉ discarded ++ buffer)
      = (all.filter fun b => b ∉ discarded).filter fun b => b ∉ buffer := by
    rw [List.filter_filter]
    apply List.filter_congr
    intro b _
    simp [and_comm]
  have hdisjoint : (kept ++ buffer).Nodup := h ▸ hnodup.filter _
  have hkept : kept.filter (fun b => b ∉ buffer) = kept := by
    apply List.filter_eq_self.mpr
    intro b hb
    have hnot := List.disjoint_of_nodup_append hdisjoint hb
    simpa using hnot
  have hbuffer : buffer.filter (fun b => b ∉ buffer) = [] := by simp
  rw [hboth, h, List.filter_append, hkept, hbuffer, List.append_nil]

/-- What is discarded cuts a beginning of what is kept to the rest. -/
theorem length_filter_discard {first last kept buffer : List Written}
    (hnodup : (kept ++ buffer).Nodup) (h : first ++ last = kept ++ buffer) :
    (first.filter fun b => b ∉ buffer).length = min first.length kept.length := by
  have hfirst : first = (kept ++ buffer).take first.length := by
    rw [← h, List.take_left]
  have hkept : (kept.take first.length).filter (fun b => b ∉ buffer)
      = kept.take first.length := by
    apply List.filter_eq_self.mpr
    intro b hb
    have hnot := List.disjoint_of_nodup_append hnodup (List.mem_of_mem_take hb)
    simpa using hnot
  have hbuffer : ∀ n, (buffer.take n).filter (fun b => b ∉ buffer) = [] := by
    intro n
    rw [List.filter_eq_nil_iff]
    intro b hb
    simpa using List.mem_of_mem_take hb
  calc (first.filter fun b => b ∉ buffer).length
      = (((kept ++ buffer).take first.length).filter fun b => b ∉ buffer).length := by
        rw [← hfirst]
    _ = (kept.take first.length).length := by
        rw [List.take_append, List.filter_append, hkept, hbuffer, List.append_nil]
    _ = min first.length kept.length := List.length_take

/-- The bytes of the handler on top are the last ones that are kept. -/
theorem OutputLayer.Kept.top {before : Nat} {s : OutputLayer} {f : Fullness}
    {passed : List (List Written)} (h : s.Kept before f passed) {g : OutputHandler Written} {gs : List (OutputHandler Written)}
    (hs : s.handlers = g :: gs) :
    (s.written.filter fun b => b ∉ s.discarded) = passed.flatten ++ pending gs ++ g.buffer := by
  rw [← h.holds.bytes, hs, pending, List.append_assoc]

/-- What the handlers below the top one hold. -/
theorem OutputLayer.Kept.below {before : Nat} {s : OutputLayer} {f : Fullness}
    {passed : List (List Written)} (h : s.Kept before f passed) {g : OutputHandler Written}
    {gs : List (OutputHandler Written)} (hs : s.handlers = g :: gs) :
    f.levels = g.level :: gs.map OutputHandler.level ∧
      OutputLayer.Holds { s with handlers := gs } { f with levels := gs.map OutputHandler.level }
        passed (passed.flatten ++ pending gs) := by
  refine ⟨by rw [h.holds.levels, hs, List.map_cons], ?_⟩
  exact ⟨h.holds.routed, h.holds.delivered, h.holds.lengths, rfl, rfl⟩

/-- How much the handlers hold. -/
theorem length_pending (hs : List (OutputHandler α)) :
    (pending hs).length = ((hs.map OutputHandler.level).map Level.used).sum := by
  induction hs with
  | nil => rfl
  | cons h hs ih =>
      simp only [pending, List.length_append, ih, List.map_cons, List.sum_cons]
      exact Nat.add_comm ..

/-- What is written and not discarded: first what is of an earlier request. -/
theorem OutputLayer.kept_split (s : OutputLayer) (before : Nat) :
    (s.written.filter fun b => b ∉ s.discarded)
      = ((s.written.take before).filter fun b => b ∉ s.discarded)
        ++ (s.written.drop before).filter fun b => b ∉ s.discarded := by
  rw [← List.filter_append, List.take_append_drop]

/-- No byte is kept twice. -/
theorem OutputLayer.Kept.nodup {before : Nat} {s : OutputLayer} {f : Fullness}
    {passed : List (List Written)} (h : s.Kept before f passed) : s.written.Nodup := by
  have hrange := List.nodup_range (n := s.written.length)
  rw [← h.numbered] at hrange
  exact List.Nodup.of_map _ hrange

/-- Discarding what the handler on top holds. -/
theorem OutputLayer.Kept.discard {before : Nat} {s : OutputLayer} {f : Fullness}
    {passed : List (List Written)} (h : s.Kept before f passed) {g : OutputHandler Written}
    {gs hs' : List (OutputHandler Written)} (hs : s.handlers = g :: gs)
    (hpending : pending hs' = pending gs) :
    OutputLayer.Kept before { s with handlers := hs', discarded := s.discarded ++ g.buffer }
      (f.discard (hs'.map OutputHandler.level)) passed := by
  have htop := h.top hs
  refine ⟨⟨h.holds.routed, h.holds.delivered, h.holds.lengths, rfl, ?_⟩, h.numbered, ?_,
    h.earlier, ?_⟩
  · dsimp only
    rw [filter_discard h.nodup htop, hpending]
  · intro b hb
    rcases List.mem_append.mp hb with hb | hb
    · exact h.discarded b hb
    · have hmem : b ∈ s.written.filter fun b => b ∉ s.discarded := by
        rw [htop]
        exact List.mem_append_right _ hb
      exact List.mem_of_mem_filter hmem
  · -- of the earlier request's bytes, which stand first, the buffer takes those behind the rest
    have hkept : (passed.flatten ++ pending gs ++ g.buffer).Nodup := htop ▸ h.nodup.filter _
    have hsplit := s.kept_split before
    rw [htop] at hsplit
    have hlength := length_filter_discard hkept hsplit.symm
    rw [h.foreign, List.length_append, ← hpending, length_pending, List.length_flatten,
      ← h.holds.lengths] at hlength
    simp only [Fullness.discard]
    rw [← hlength, List.filter_filter]
    congr 2
    funext b
    simp [Bool.and_comm]

/-- `phpOutputWrite` changes neither what is written nor what is discarded. -/
theorem passOn_ghosts (s : OutputLayer) (out : Option (List Written)) :
    (s.passOn out).written = s.written ∧ (s.passOn out).discarded = s.discarded := by
  unfold OutputLayer.passOn phpOutputWrite OutputLayer.route
  cases out with
  | none => exact ⟨rfl, rfl⟩
  | some text =>
      dsimp only
      split
      · exact ⟨rfl, rfl⟩
      · split
        · exact ⟨rfl, rfl⟩
        · exact ⟨rfl, rfl⟩

/-- A call for the top handler: where there is none, or its flag is not set, the
notice is written, and what is left is what the call does to the handler. -/
theorem OutputLayer.Kept.onTop {before : Nat} {s : OutputLayer} {f : Fullness}
    {passed : List (List Written)} (h : s.Kept before f passed) (notice : Bytes)
    (flag : OutputHandler Written → Bool)
    (levelFlag : Level → Bool) (hflag : ∀ g : OutputHandler Written, levelFlag g.level = flag g)
    {act : OutputHandler Written → List (OutputHandler Written) → OutputLayer}
    {levelAct : Level → List Level → Fullness}
    (hact : ∀ g gs, s.handlers = g :: gs →
      ∃ passed', (act g gs).Kept before (levelAct g.level (gs.map OutputHandler.level)) passed') :
    ∃ passed',
      (match s.handlers with
        | [] => s.echo notice
        | g :: gs => if flag g then act g gs else s.echo notice).Kept before
      (match f.levels with
        | [] => f.write notice.length
        | l :: ls => if levelFlag l then levelAct l ls else f.write notice.length) passed' := by
  rw [h.holds.levels]
  cases hs : s.handlers with
  | nil => exact h.echo notice
  | cons g gs =>
      rw [List.map_cons]
      dsimp only
      rw [hflag]
      by_cases hset : flag g = true
      · rw [if_pos hset, if_pos hset]
        exact hact g gs hs
      · rw [if_neg hset, if_neg hset]
        exact h.echo notice

/-- **One call** keeps what is written and not discarded, and changes the levels
as the lengths say. -/
theorem OutputLayer.Kept.step {before : Nat} {s : OutputLayer} {f : Fullness}
    {passed : List (List Written)} (h : s.Kept before f passed) (call : OutputCall) :
    ∃ passed', (outputStep s call).Kept before (levelStep f call) passed' := by
  -- the top handler is taken off and its data written below it
  have hbelow : ∀ g gs, s.handlers = g :: gs → ∃ passed',
      (OutputLayer.passOn { s with handlers := gs }
        (if g.buffer.isEmpty then none else some g.buffer)).Holds
          (Fullness.write { f with levels := gs.map OutputHandler.level } g.level.used) passed'
          (s.written.filter fun b => b ∉ s.discarded) := by
    intro g gs hs
    obtain ⟨hlevels, hbelow⟩ := h.below hs
    obtain ⟨passed', h'⟩ := hbelow.passOn g.buffer
    rw [h.top hs]
    exact ⟨passed', h'⟩
  cases call with
  | echo text => exact h.echo text
  | obStart chunkSize cleanable flushable removable =>
      refine ⟨passed, ⟨h.holds.routed, h.holds.delivered, h.holds.lengths, ?_, ?_⟩, h.numbered,
        h.discarded, h.earlier, h.foreign⟩
      · simp [outputStep, levelStep, h.holds.levels, OutputHandler.level]
      · simp only [outputStep, pending, List.append_nil]
        exact h.holds.bytes
  | obFlush notice =>
      unfold outputStep levelStep
      refine h.onTop notice (·.flushable) (·.flushable) (fun _ => rfl) fun g gs hs => ?_
      rw [handlerOp_drain (by decide)]
      obtain ⟨passed', h'⟩ := hbelow g gs hs
      obtain ⟨hwritten, hdiscarded⟩ := passOn_ghosts { s with handlers := gs }
        (if g.buffer.isEmpty then none else some g.buffer)
      refine ⟨passed', ⟨h'.routed, h'.delivered, h'.lengths, ?_, ?_⟩, ?_, ?_, ?_, ?_⟩
      · simp only [List.map_cons, ← h'.levels]
        rfl
      · simp only [pending, List.append_nil, hwritten, hdiscarded]
        exact h'.bytes
      · simp only [hwritten]
        exact h.numbered
      · simp only [hwritten, hdiscarded]
        exact h.discarded
      · simp only [hwritten]
        exact h.earlier
      · simp only [hwritten, hdiscarded]
        exact h.foreign
  | obClean notice =>
      unfold outputStep levelStep
      refine h.onTop notice (·.cleanable) (·.cleanable) (fun _ => rfl) fun g gs hs => ?_
      rw [handlerOp_drain (by decide)]
      refine ⟨passed, ?_⟩
      have hpending : pending ({ g with buffer := [] } :: gs) = pending gs := by
        simp [pending]
      simpa [OutputHandler.level] using h.discard hs hpending
  | obEndFlush notice =>
      unfold outputStep levelStep
      refine h.onTop notice (·.removable) (·.removable) (fun _ => rfl) fun g gs hs => ?_
      rw [handlerOp_drain (by decide)]
      obtain ⟨passed', h'⟩ := hbelow g gs hs
      obtain ⟨hwritten, hdiscarded⟩ := passOn_ghosts { s with handlers := gs }
        (if g.buffer.isEmpty then none else some g.buffer)
      refine ⟨passed', ?_, ?_, ?_, ?_, ?_⟩
      · rw [hwritten, hdiscarded]
        exact h'
      · rw [hwritten]
        exact h.numbered
      · rw [hwritten, hdiscarded]
        exact h.discarded
      · rw [hwritten]
        exact h.earlier
      · rw [hwritten, hdiscarded]
        exact h.foreign
  | obEndClean notice =>
      unfold outputStep levelStep
      refine h.onTop notice (·.removable) (·.removable) (fun _ => rfl) fun g gs hs => ?_
      exact ⟨passed, h.discard hs rfl⟩

/-- **Every run** keeps what is written and not discarded. -/
theorem OutputLayer.Kept.run {before : Nat} {s : OutputLayer} {f : Fullness}
    {passed : List (List Written)} (h : s.Kept before f passed) (calls : List OutputCall) :
    ∃ passed', (s.run calls).Kept before (calls.foldl levelStep f) passed' := by
  induction calls generalizing s f passed with
  | nil => exact ⟨passed, h⟩
  | cons call calls ih =>
      obtain ⟨passed', h'⟩ := h.step call
      exact ih h'

/-- A string that is cut gets no longer. -/
theorem length_cutLength_le (str : List α) : (cutLength str).length ≤ str.length := by
  unfold cutLength
  exact List.length_take_le' ..

/-- Strings that are cut get no longer. -/
theorem length_flatten_cutLength_le (strs : List (List α)) :
    (strs.map cutLength).flatten.length ≤ strs.flatten.length := by
  induction strs with
  | nil => simp
  | cons str strs ih =>
      have := length_cutLength_le str
      simp only [List.map_cons, List.flatten_cons, List.length_append]
      omega

/-- A string that is not cut to nothing keeps its first byte. -/
theorem cutLength_eq_nil {str : List α} : cutLength str = [] ↔ 2 ^ 32 ∣ str.length := by
  unfold cutLength
  rw [List.take_eq_nil_iff, Nat.dvd_iff_mod_eq_zero]
  constructor
  · rintro (h | rfl)
    · exact h
    · rfl
  · exact .inl

/-- Where nothing of an earlier request is left, the strings are delivered in full
exactly if each is short enough. -/
theorem flatten_cutLength_own (passed : List (List Written)) :
    (passed.map cutLength).flatten = passed.flatten ↔ Fits 0 (passed.map List.length) := by
  induction passed with
  | nil => simp [Fits]
  | cons str strs ih =>
      have hcut : cutLength str = str ↔ str.length < 2 ^ 32 := by
        unfold cutLength
        rw [List.take_eq_self_iff]
        have hmod := Nat.mod_lt str.length (show 0 < 2 ^ 32 by decide)
        constructor
        · intro h
          omega
        · intro h
          rw [Nat.mod_eq_of_lt h]
      simp only [List.map_cons, List.flatten_cons, Fits]
      rw [← ih, ← hcut]
      constructor
      · intro h
        have hlength := congrArg List.length h
        have hstr := length_cutLength_le str
        have hstrs := length_flatten_cutLength_le strs
        simp only [List.length_append] at hlength
        exact List.append_inj h (by omega)
      · rintro ⟨hstr, hstrs⟩
        rw [hstr, hstrs]

/-- **The strings bring what is `new`** and nothing of what is `old` exactly if
their lengths fit. -/
theorem flatten_cutLength {passed : List (List Written)} {old new : List Written}
    (hbytes : passed.flatten = old ++ new) (hnodup : (old ++ new).Nodup) :
    (passed.map cutLength).flatten = new ↔ Fits old.length (passed.map List.length) := by
  induction passed generalizing old with
  | nil =>
      have hnew : new = [] := (List.append_eq_nil_iff.mp hbytes.symm).2
      simp [Fits, hnew]
  | cons str strs ih =>
      cases old with
      | nil =>
          rw [List.nil_append] at hbytes
          rw [← hbytes]
          exact flatten_cutLength_own (str :: strs)
      | cons b old =>
          -- what is left of `old` when the string has only bytes of it
          have hrest : str.length ≤ (b :: old).length →
              strs.flatten = (b :: old).drop str.length ++ new := by
            intro hle
            have hdrop := congrArg (List.drop str.length) hbytes
            rwa [List.flatten_cons, List.drop_left, List.drop_append_of_le_length hle] at hdrop
          have hnext : str.length ≤ (b :: old).length →
              ((strs.map cutLength).flatten = new
                ↔ Fits (old.length + 1 - str.length) (strs.map List.length)) := by
            intro hle
            have hsub : ((b :: old).drop str.length ++ new).Nodup :=
              hnodup.sublist ((List.drop_sublist ..).append_right _)
            have h := ih (hrest hle) hsub
            rwa [List.length_drop, List.length_cons] at h
          simp only [List.map_cons, List.flatten_cons, List.length_cons, Fits]
          rw [← cutLength_eq_nil]
          constructor
          · intro h
            -- the first byte is old, so it may not be delivered
            have hnil : cutLength str = [] := by
              cases hcut : cutLength str with
              | nil => rfl
              | cons c cs =>
                  have hstr : str = c :: str.tail := by
                    cases str with
                    | nil => cases hcut
                    | cons d ds =>
                        have hstart : cutLength (d :: ds) <+: d :: ds := List.take_prefix ..
                        rw [hcut, List.cons_prefix_cons] at hstart
                        rw [hstart.1, List.tail_cons]
                  rw [hstr] at hbytes
                  have hc : c = b := (List.cons_eq_cons.mp hbytes).1
                  have hnew : b ∈ new := by
                    rw [← h, hcut, hc]
                    exact List.mem_append_left _ List.mem_cons_self
                  exact absurd hnew (List.disjoint_of_nodup_append hnodup List.mem_cons_self)
            rw [hnil, List.nil_append] at h
            have hle : str.length ≤ (b :: old).length := by
              have hstrs := length_flatten_cutLength_le strs
              have hlength := congrArg List.length hbytes
              simp only [List.flatten_cons, List.length_append] at hlength
              rw [h] at hstrs
              omega
            exact ⟨⟨hle, hnil⟩, (hnext hle).mp h⟩
          · rintro ⟨⟨hle, hnil⟩, hfits⟩
            rw [hnil, List.nil_append]
            exact (hnext hle).mpr hfits

/-- The handlers hold the numbered bytes. -/
theorem pending_numbered (left : List (OutputHandler UInt8)) :
    pending (numbered left) = (pending left).zipIdx := by
  induction left with
  | nil => rfl
  | cons g gs ih => simp only [numbered, pending, ih, List.zipIdx_append, Nat.zero_add]

/-- Numbering the bytes leaves the handlers as full as they are. -/
theorem level_numbered (left : List (OutputHandler UInt8)) :
    (numbered left).map OutputHandler.level = left.map OutputHandler.level := by
  induction left with
  | nil => rfl
  | cons g gs ih => simp [numbered, OutputHandler.level, ih]

/-- When `Start` begins, the handlers hold what an earlier request has left. -/
theorem OutputLayer.start_kept (key : Bytes) (left : List (OutputHandler UInt8)) :
    (OutputLayer.start key left).Kept (pending left).length
      ⟨left.map OutputHandler.level, [], (pending left).length⟩ [] := by
  have hall : ((pending left).zipIdx.filter fun b => b ∉ ([] : List Written))
      = (pending left).zipIdx := List.filter_eq_self.mpr (by simp)
  refine ⟨⟨rfl, rfl, rfl, (level_numbered left).symm, ?_⟩, ?_, by simp [OutputLayer.start], ?_, ?_⟩
  · simp only [OutputLayer.start, List.flatten_nil, List.nil_append, pending_numbered]
    exact hall.symm
  · simp [OutputLayer.start, List.range_eq_range']
  · simp [OutputLayer.start]
  · have hlength : (pending left).zipIdx.length = (pending left).length := List.length_zipIdx
    simp only [OutputLayer.start, ← hlength, List.take_length]
    exact congrArg List.length hall

/-- Strings that have no more bytes than are foreign fit when all of them are cut to
nothing. -/
theorem fits_of_sum_le {foreign : Nat} {lengths : List Nat} (h : lengths.sum ≤ foreign) :
    Fits foreign lengths ↔ ∀ n ∈ lengths, 2 ^ 32 ∣ n := by
  induction lengths generalizing foreign with
  | nil => simp [Fits]
  | cons n ns ih =>
      rw [List.sum_cons] at h
      cases foreign with
      | zero =>
          obtain rfl : n = 0 := by omega
          rw [Fits, ih (by omega), List.forall_mem_cons]
          simp
      | succ foreign =>
          rw [Fits, ih (by omega), List.forall_mem_cons]
          have hle : n ≤ foreign + 1 := by omega
          simp [hle]

/-- Where nothing is foreign, each string is short enough. -/
theorem fits_zero (lengths : List Nat) : Fits 0 lengths ↔ ∀ n ∈ lengths, n < 2 ^ 32 := by
  induction lengths with
  | nil => simp [Fits]
  | cons n ns ih => rw [Fits, ih, List.forall_mem_cons]

/-- What is delivered has come out of the handlers. -/
theorem mem_flatten_cutLength {passed : List (List α)} {b : α}
    (h : b ∈ (passed.map cutLength).flatten) : b ∈ passed.flatten := by
  obtain ⟨cut, hcut, hb⟩ := List.mem_flatten.mp h
  obtain ⟨str, hstr, rfl⟩ := List.mem_map.mp hcut
  exact List.mem_flatten.mpr ⟨str, hstr, List.mem_of_mem_take hb⟩

/-- **The strings bring what is not of an earlier request** and not discarded
exactly if the levels say so. -/
theorem OutputLayer.Kept.brings_iff {before : Nat} {s : OutputLayer} {f : Fullness}
    {passed : List (List Written)} (h : s.Kept before f passed) :
    s.delivered.flatten = ((s.written.drop before).filter fun b => b ∉ s.discarded) ↔
      f.Brings := by
  have hsplit := s.kept_split before
  have hforeign := h.foreign
  have hbytes := h.holds.bytes
  have hnodup := h.nodup.filter fun b => b ∉ s.discarded
  rw [hsplit] at hbytes hnodup
  generalize ((s.written.take before).filter fun b => b ∉ s.discarded) = old at hforeign hbytes hnodup
  generalize ((s.written.drop before).filter fun b => b ∉ s.discarded) = new at hbytes hnodup ⊢
  have hused : (f.levels.map Level.used).sum = (pending s.handlers).length := by
    rw [h.holds.levels, length_pending]
  have hsum : f.passed.sum = passed.flatten.length := by
    rw [h.holds.lengths, List.length_flatten]
  have hlength : f.passed.sum + (f.levels.map Level.used).sum = old.length + new.length := by
    rw [hused, hsum, ← List.length_append, hbytes, List.length_append]
  rw [h.holds.delivered]
  by_cases hnone : (f.levels.map Level.used).sum = 0
  · -- all of it has come out
    have hpending : pending s.handlers = [] := List.length_eq_zero_iff.mp (hused ▸ hnone)
    rw [hpending, List.append_nil] at hbytes
    rw [flatten_cutLength hbytes hnodup, ← h.holds.lengths, hforeign]
    exact ⟨fun hfits => ⟨hfits, Or.inl hnone⟩, fun hbrings => hbrings.fits⟩
  · by_cases hheld : f.passed.sum + (f.levels.map Level.used).sum ≤ f.foreign
    · -- nothing is new, so all that has come out must be cut to nothing
      have hnew : new = [] := List.length_eq_zero_iff.mp (by omega)
      rw [hnew, List.flatten_eq_nil_iff]
      have hfits : Fits f.foreign f.passed ↔ ∀ n ∈ f.passed, 2 ^ 32 ∣ n :=
        fits_of_sum_le (by omega)
      rw [h.holds.lengths] at hfits
      constructor
      · intro hall
        refine ⟨?_, Or.inr hheld⟩
        rw [h.holds.lengths, hfits]
        intro n hn
        obtain ⟨str, hstr, rfl⟩ := List.mem_map.mp hn
        exact cutLength_eq_nil.mp (hall _ (List.mem_map_of_mem hstr))
      · intro hbrings
        have hall := hbrings.fits
        rw [h.holds.lengths, hfits] at hall
        intro cut hcut
        obtain ⟨str, hstr, rfl⟩ := List.mem_map.mp hcut
        exact cutLength_eq_nil.mpr (hall _ (List.mem_map_of_mem hstr))
    · -- the last byte is new and still held
      refine iff_of_false ?_ fun hbrings => hbrings.held.elim hnone hheld
      intro hdelivered
      have hpending : pending s.handlers ≠ [] := by
        intro hnil
        rw [hnil, List.length_nil] at hused
        exact hnone hused
      have hnew : new ≠ [] := by
        intro hnil
        rw [hnil, List.length_nil] at hlength
        omega
      have hlast : (pending s.handlers).getLast hpending = new.getLast hnew := by
        have hsame := congrArg List.getLast? hbytes
        rw [List.getLast?_append_of_ne_nil _ hpending, List.getLast?_append_of_ne_nil _ hnew,
          List.getLast?_eq_some_getLast hpending, List.getLast?_eq_some_getLast hnew] at hsame
        exact Option.some.inj hsame
      have hmem : (pending s.handlers).getLast hpending ∈ passed.flatten := by
        refine mem_flatten_cutLength ?_
        rw [hdelivered, hlast]
        exact List.getLast_mem hnew
      exact List.disjoint_of_nodup_append (hbytes ▸ hnodup) hmem (List.getLast_mem hpending)

/-- An earlier request has left `a` in a handler: `echo "b"; ob_end_flush();`
brings it into the response. -/
example : ((OutputLayer.start [107] [⟨0, true, true, true, [97]⟩]).run
    [.echo [98], .obEndFlush []]).delivered = [[(97, 0), (98, 1)]] := by decide +kernel

end Toxic
