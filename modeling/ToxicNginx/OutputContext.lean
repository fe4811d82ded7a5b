import Mathlib.Logic.Function.Basic
import ToxicNginx.OutputStack
import ToxicNginx.StepSystem

/-!
# The contexts and buffers of the output layer

`php_output_op` moves data between the handlers through a context, whose buffers
point to the string that is written or to the buffer of a handler: `feed`, `pass`
and `swap` move the pointers, `php_output_handler_append` copies the bytes into a
buffer that may have been reallocated.  `php_output_flush` takes the handler off
the stack while its data is written.  An access outside of a buffer, to one that
has moved, or to a handler that is gone has no result here.

* `OutputGlobals` — the handlers in memory, `OG(handlers)` and `OG(active)`;
* `phpOutputHandlerAppend`, `phpOutputHandlerOp`, `stackApply`, `phpOutputOpContext`,
  `phpOutputFlush`, `phpOutputStackPop`, … — the functions of `output.c`;
* `layerCall` — one call, with the bytes written and discarded;
* `Stores`, `StackHolds`, `Refines` — the handlers in memory hold what the lists
  of the layer say;
* `layerCall_refines` — every call has a result, and refines the step of the
  lists;
* `layerSound_iff` — the exact condition on the lengths.
-/

namespace Toxic

open StepSystem

variable {α : Type}

/-- The buffer of a handler: its memory, uninitialized where nothing was written,
how often `erealloc` has moved it, and the fields `size` and `used`. -/
structure HandlerBuffer (α : Type) where
  mem : List (Option α)
  moves : Nat
  size : Nat
  used : Nat

/-- `php_output_handler` with the default function. -/
structure HandlerCell (α : Type) where
  level : Nat
  size : Nat
  cleanable : Bool
  flushable : Bool
  removable : Bool
  disabled : Bool
  buffer : HandlerBuffer α

/-- Where the data of a context is: nowhere, in the memory of the caller, or in
the buffer of a handler as `erealloc` has left it. -/
inductive DataPtr (α : Type)
  | null
  | text (str : List α)
  | buffer (handler moves : Nat)

/-- `php_output_buffer` of a context; `free` is 0 with the default function. -/
structure ContextBuf (α : Type) where
  data : DataPtr α
  size : Nat
  used : Nat

/-- `php_output_context`. -/
structure OutputContext (α : Type) where
  op : HandlerOp
  input : ContextBuf α
  output : ContextBuf α

/-- The handlers in memory, by their pointers. -/
abbrev OutputHeap (α : Type) := Nat → Option (HandlerCell α)

/-- A call of the SAPI with a string. -/
inductive SinkCall (α : Type)
  | toxicOutput (str : List α)
  | ubWrite (str : List α)
  deriving DecidableEq, Repr

/-- The output globals: `OG(handlers)` from the top, `OG(active)`,
`sapi_module.is_toxic`, and the calls of the SAPI. -/
structure OutputGlobals (α : Type) where
  heap : OutputHeap α
  next : Nat
  stack : List Nat
  active : Option Nat
  isToxic : Bool
  calls : List (SinkCall α)

/-- `PHP_OUTPUT_HANDLER_INITBUF_SIZE`. -/
def initBufSize (s : Nat) : Nat := if 1 < s then s + 0x1000 - s % 0x1000 else 0x4000

/-- The handler at a pointer is written. -/
def OutputHeap.set (heap : OutputHeap α) (id : Nat) (h : HandlerCell α) : OutputHeap α :=
  Function.update heap id (some h)

/-- A buffer of a context that is `NULL`. -/
def ContextBuf.empty : ContextBuf α := ⟨.null, 0, 0⟩

/-- The bytes `[data, data + used)`. -/
def deref (heap : OutputHeap α) (b : ContextBuf α) : Option (List α) :=
  match b.data with
  | .null => if b.used = 0 then some [] else none
  | .text str => if b.used ≤ str.length then some (str.take b.used) else none
  | .buffer id moves =>
      (heap id).bind fun h =>
        if h.buffer.moves = moves ∧ b.used ≤ h.buffer.mem.length then
          (h.buffer.mem.take b.used).mapM fun x => x
        else none

/-- `php_output_context_init`. -/
def contextInit (op : HandlerOp) : OutputContext α := ⟨op, .empty, .empty⟩

/-- `php_output_context_reset`. -/
def contextReset (c : OutputContext α) : OutputContext α := contextInit c.op

/-- `php_output_context_feed`. -/
def contextFeed (c : OutputContext α) (data : DataPtr α) (size used : Nat) : OutputContext α :=
  { c with input := ⟨data, size, used⟩ }

/-- `php_output_context_swap`. -/
def contextSwap (c : OutputContext α) : OutputContext α :=
  { c with input := c.output, output := .empty }

/-- `php_output_context_pass`. -/
def contextPass (c : OutputContext α) : OutputContext α :=
  { c with input := .empty, output := c.input }

/-- `erealloc` in `php_output_handler_append`, for so many bytes. -/
def HandlerBuffer.grow (b : HandlerBuffer α) (chunk len : Nat) : HandlerBuffer α :=
  let growInt := initBufSize chunk
  let growBuf := initBufSize (len - (b.size - b.used))
  let growMax := max growInt growBuf
  { b with
    mem := b.mem ++ List.replicate growMax none
    moves := b.moves + 1
    size := b.size + growMax }

/-- `memcpy` behind what is used. -/
def HandlerBuffer.store (b : HandlerBuffer α) (data : List α) : Option (HandlerBuffer α) :=
  if b.used + data.length ≤ b.mem.length then
    some { b with
      mem := b.mem.take b.used ++ data.map some ++ b.mem.drop (b.used + data.length)
      used := b.used + data.length }
  else none

/-- `php_output_handler_append`: whether the handler need not be processed. -/
def phpOutputHandlerAppend (heap : OutputHeap α) (id : Nat) (buf : ContextBuf α) :
    Option (OutputHeap α × Bool) :=
  if buf.used = 0 then some (heap, true)
  else
    (heap id).bind fun h =>
      let grown :=
        if h.buffer.size - h.buffer.used ≤ buf.used then h.buffer.grow h.size buf.used
        else h.buffer
      (deref (heap.set id { h with buffer := grown }) buf).bind fun data =>
        (grown.store data).map fun stored =>
          (heap.set id { h with buffer := stored },
            !decide (h.size ≠ 0 ∧ h.size ≤ stored.used))

/-- `php_output_handler_op`: whether the status is `PHP_OUTPUT_HANDLER_SUCCESS`,
else it is `PHP_OUTPUT_HANDLER_NO_DATA`. -/
def phpOutputHandlerOp (heap : OutputHeap α) (id : Nat) (c : OutputContext α) :
    Option (OutputHeap α × OutputContext α × Bool) :=
  (phpOutputHandlerAppend heap id c.input).bind fun (heap, storable) =>
    if storable && c.op == .write then some (heap, c, false)
    else
      (heap id).map fun h =>
        -- the default function passes the buffer on as it is
        let c := contextPass (contextFeed c (.buffer id h.buffer.moves) h.buffer.size
          h.buffer.used)
        let heap := heap.set id { h with buffer := { h.buffer with used := 0 } }
        if c.output.used ≠ 0 then (heap, c, true) else (heap, contextReset c, false)

/-- `php_output_stack_apply_op`: whether the next handler is left alone. -/
def stackApplyOp (heap : OutputHeap α) (id : Nat) (c : OutputContext α) :
    Option (OutputHeap α × OutputContext α × Bool) :=
  (heap id).bind fun h =>
    if h.disabled then
      -- the input is passed along by the last handler
      some (heap, if h.level = 0 then contextPass c else c, false)
    else
      (phpOutputHandlerOp heap id c).map fun (heap, c, success) =>
        if success then (heap, if h.level = 0 then c else contextSwap c, false)
        else (heap, c, true)

/-- `zend_stack_apply_with_argument` from the top of the stack. -/
def stackApply : List Nat → OutputHeap α → OutputContext α →
    Option (OutputHeap α × OutputContext α)
  | [], heap, c => some (heap, c)
  | id :: ids, heap, c =>
      (stackApplyOp heap id c).bind fun (heap, c, stop) =>
        if stop then some (heap, c) else stackApply ids heap c

/-- The string goes to `toxic_output` or to `ub_write`. -/
def sinkCall (isToxic : Bool) (str : List α) : SinkCall α :=
  if isToxic then .toxicOutput (cutLength str) else .ubWrite (cutLength str)

/-- `context.out.data && context.out.used`. -/
def ContextBuf.hasData (b : ContextBuf α) : Bool :=
  match b.data with
  | .null => false
  | .text _ | .buffer _ _ => b.used != 0

/-- The end of `php_output_op`, where the output is handed to the SAPI. -/
def sapiWrite (b : ContextBuf α) (s : OutputGlobals α) : Option (OutputGlobals α) :=
  if b.hasData then
    (deref s.heap b).map fun str => { s with calls := s.calls ++ [sinkCall s.isToxic str] }
  else some s

/-- The first half of `php_output_op`: the one handler, the stack, or none. -/
def runHandlers (op : HandlerOp) (str : DataPtr α) (len : Nat) (s : OutputGlobals α) :
    Option (OutputHeap α × OutputContext α) :=
  let c : OutputContext α := contextInit op
  match s.active, s.stack with
  | some _, [id] =>
      let c := { c with input := ⟨str, 0, len⟩ }
      (s.heap id).bind fun h =>
        if h.disabled then some (s.heap, contextPass c)
        else (phpOutputHandlerOp s.heap id c).map fun (heap, c, _) => (heap, c)
  | some _, id :: ids => stackApply (id :: ids) s.heap { c with input := ⟨str, 0, len⟩ }
  | _, _ => some (s.heap, { c with output := ⟨str, 0, len⟩ })

/-- `php_output_op`. -/
def phpOutputOpContext (op : HandlerOp) (str : DataPtr α) (len : Nat) (s : OutputGlobals α) :
    Option (OutputGlobals α) :=
  (runHandlers op str len s).bind fun (heap, c) => sapiWrite c.output { s with heap := heap }

/-- What a context has got out of a handler is written. -/
def writeOutput (b : ContextBuf α) (s : OutputGlobals α) : Option (OutputGlobals α) :=
  if b.hasData then phpOutputOpContext .write b.data b.used s else some s

/-- `php_output_write`. -/
def phpOutputWriteContext (text : List α) (s : OutputGlobals α) : Option (OutputGlobals α) :=
  phpOutputOpContext .write (.text text) text.length s

/-- `ob_start` without a function. -/
def phpOutputStart (chunkSize : Int) (flags : UInt32) (s : OutputGlobals α) : OutputGlobals α :=
  let size := chunkSize.toNat
  let h : HandlerCell α :=
    { level := s.stack.length
      size := size
      cleanable := cleanableFlag flags
      flushable := flushableFlag flags
      removable := removableFlag flags
      disabled := disabledFlag flags
      buffer := ⟨List.replicate (initBufSize size) none, 0, initBufSize size, 0⟩ }
  { s with
    heap := s.heap.set s.next h
    next := s.next + 1
    stack := s.next :: s.stack
    active := some s.next }

/-- `php_output_flush`. -/
def phpOutputFlush (s : OutputGlobals α) : Option (OutputGlobals α) :=
  match s.active with
  | none => some s
  | some id =>
      (s.heap id).bind fun h =>
        if h.flushable then
          (phpOutputHandlerOp s.heap id (contextInit .flush)).bind fun (heap, c, _) =>
            if c.output.hasData then
              -- `zend_stack_del_top`, and `zend_stack_push` of `OG(active)` behind the write
              (phpOutputOpContext .write c.output.data c.output.used
                { s with heap := heap, stack := s.stack.tail }).map fun s =>
                  { s with stack := id :: s.stack }
            else some { s with heap := heap }
        else some s

/-- `php_output_flush_all`. -/
def phpOutputFlushAll (s : OutputGlobals α) : Option (OutputGlobals α) :=
  if s.active.isSome then phpOutputOpContext .flush .null 0 s else some s

/-- `php_output_clean`. -/
def phpOutputClean (s : OutputGlobals α) : Option (OutputGlobals α) :=
  match s.active with
  | none => some s
  | some id =>
      (s.heap id).bind fun h =>
        if h.cleanable then
          (phpOutputHandlerOp s.heap id (contextInit .clean)).map fun (heap, _, _) =>
            { s with heap := heap }
        else some s

/-- `php_output_stack_pop` for `OG(active)`, which is removable. -/
def phpOutputStackPop (discard : Bool) (orphan : Nat) (h : HandlerCell α)
    (s : OutputGlobals α) : Option (OutputGlobals α) :=
  let ran :=
    if h.disabled then some (s.heap, contextInit .final)
    else (phpOutputHandlerOp s.heap orphan (contextInit .final)).map fun (heap, c, _) => (heap, c)
  ran.bind fun (heap, c) =>
    let s := { s with heap := heap, stack := s.stack.tail, active := s.stack.tail.head? }
    (if discard then some s else writeOutput c.output s).map fun s =>
      -- the handler is destroyed after the write
      { s with heap := Function.update s.heap orphan none }

/-- `php_output_end` and `php_output_discard`; a call that fails writes the
notice. -/
def phpOutputPop (discard : Bool) (notice : List α) (s : OutputGlobals α) :
    Option (OutputGlobals α) :=
  match s.active with
  | none => phpOutputWriteContext notice s
  | some orphan =>
      (s.heap orphan).bind fun h =>
        if h.removable then phpOutputStackPop discard orphan h s else phpOutputWriteContext notice s

/-- The layer with the bytes written and discarded. -/
structure LayerState where
  globals : OutputGlobals Written
  written : List Written
  discarded : List Written

/-- What the buffer of a handler holds. -/
def HandlerBuffer.held (b : HandlerBuffer α) : List α := (b.mem.take b.used).reduceOption

/-- What the buffer of `OG(active)` holds when the flag is set. -/
def activeHeld (flag : HandlerCell α → Bool) (s : OutputGlobals α) : List α :=
  match s.active.bind s.heap with
  | none => []
  | some h => if flag h then h.buffer.held else []

/-- `OG(active)` can be removed. -/
def activeRemovable (s : OutputGlobals α) : Bool :=
  match s.active.bind s.heap with
  | none => false
  | some h => h.removable

/-- One call. -/
def layerCall (s : LayerState) : LayerOp → Option LayerState
  | .write text =>
      let data := freshBytes s.written text
      (phpOutputWriteContext data s.globals).map fun globals =>
        { s with globals := globals, written := s.written ++ data }
  | .start chunkSize flags => some { s with globals := phpOutputStart chunkSize flags s.globals }
  | .flush => (phpOutputFlush s.globals).map fun globals => { s with globals := globals }
  | .clean =>
      (phpOutputClean s.globals).map fun globals =>
        { s with
          globals := globals
          discarded := s.discarded ++ activeHeld HandlerCell.cleanable s.globals }
  | .finish notice =>
      let data := freshBytes s.written notice
      (phpOutputPop false data s.globals).map fun globals =>
        { s with
          globals := globals
          written := if activeRemovable s.globals then s.written else s.written ++ data }
  | .discard notice =>
      let data := freshBytes s.written notice
      (phpOutputPop true data s.globals).map fun globals =>
        { s with
          globals := globals
          written := if activeRemovable s.globals then s.written else s.written ++ data
          discarded := s.discarded ++ activeHeld HandlerCell.removable s.globals }
  | .flushAll => (phpOutputFlushAll s.globals).map fun globals => { s with globals := globals }

/-- The layer after `php_output_activate`. -/
def LayerState.start (isToxic : Bool) : LayerState where
  globals := ⟨fun _ => none, 0, [], none, isToxic, []⟩
  written := []
  discarded := []

/-! ## One handler -/

/-- A handler in memory holds what a handler of the layer does, in a buffer of the
allocated length. -/
structure Stores (h : HandlerCell α) (slot : StackSlot α) : Prop where
  size : h.size = slot.size
  cleanable : h.cleanable = slot.cleanable
  flushable : h.flushable = slot.flushable
  removable : h.removable = slot.removable
  disabled : h.disabled = slot.disabled
  used : h.buffer.used = slot.buffer.length
  mem : h.buffer.mem.take slot.buffer.length = slot.buffer.map some
  alloc : h.buffer.size = h.buffer.mem.length

/-- The buffer of a handler is as long as what is used at least. -/
theorem Stores.room {h : HandlerCell α} {slot : StackSlot α} (hs : Stores h slot) :
    slot.buffer.length ≤ h.buffer.mem.length := by
  have hlength := congrArg List.length hs.mem
  rw [List.length_take, List.length_map] at hlength
  omega

/-- A new buffer is longer than what is asked for. -/
theorem lt_initBufSize (s : Nat) : s < initBufSize s := by
  unfold initBufSize
  have := Nat.mod_lt s (show 0 < 0x1000 by decide)
  split
  · omega
  · omega

/-- Reading initialized bytes. -/
theorem mapM_map_some (l : List α) : (l.map some).mapM (fun x => x) = some l := by
  induction l with
  | nil => rfl
  | cons x l ih => simp [List.mapM_cons, ih]

/-- The data of a context is not in the buffer of a handler. -/
def DataPtr.Avoids (d : DataPtr α) (id : Nat) : Prop := ∀ moves, d ≠ .buffer id moves

/-- Writing a handler does not change data that is not in its buffer. -/
theorem deref_set (heap : OutputHeap α) {id : Nat} (h : HandlerCell α) {b : ContextBuf α}
    (hb : b.data.Avoids id) : deref (heap.set id h) b = deref heap b := by
  unfold deref OutputHeap.set
  cases hdata : b.data with
  | null => rfl
  | text str => rfl
  | buffer other moves =>
      have hne : other ≠ id := by
        intro heq
        rw [heq] at hdata
        exact hb moves hdata
      dsimp only
      rw [Function.update_of_ne hne]

/-- The data of a context is as long as the context says. -/
theorem deref_length {heap : OutputHeap α} {b : ContextBuf α} {data : List α}
    (h : deref heap b = some data) : data.length = b.used := by
  unfold deref at h
  cases hdata : b.data with
  | null =>
      rw [hdata] at h
      dsimp only at h
      split at h
      · next hzero =>
          cases h
          exact hzero.symm
      · cases h
  | text str =>
      rw [hdata] at h
      dsimp only at h
      split at h
      · next hle =>
          cases h
          rw [List.length_take, Nat.min_eq_left hle]
      · cases h
  | buffer id moves =>
      rw [hdata] at h
      obtain ⟨cell, -, hread⟩ := Option.bind_eq_some_iff.mp h
      split at hread
      · next hle =>
          have hlength : ∀ (l : List (Option α)) (d : List α),
              l.mapM (fun x => x) = some d → d.length = l.length := by
            intro l
            induction l with
            | nil =>
                intro d hd
                cases hd
                rfl
            | cons x l ih =>
                intro d hd
                rw [List.mapM_cons] at hd
                obtain ⟨y, -, hrest⟩ := Option.bind_eq_some_iff.mp hd
                obtain ⟨ys, hys, hlast⟩ := Option.bind_eq_some_iff.mp hrest
                cases hlast
                rw [List.length_cons, List.length_cons, ih ys hys]
          rw [hlength _ _ hread, List.length_take, Nat.min_eq_left hle.2]
      · cases hread

/-- What a handler holds is read from the beginning of its buffer. -/
theorem deref_held {heap : OutputHeap α} {id : Nat} {h : HandlerCell α} {str : List α}
    (hheap : heap id = some h) (hmem : h.buffer.mem.take str.length = str.map some)
    (size : Nat) : deref heap ⟨.buffer id h.buffer.moves, size, str.length⟩ = some str := by
  have hlength := congrArg List.length hmem
  rw [List.length_take, List.length_map] at hlength
  unfold deref
  dsimp only
  rw [hheap, Option.bind_some, if_pos ⟨rfl, by omega⟩, hmem, mapM_map_some]

/-- `erealloc` makes room for what is appended, and keeps what the handler holds. -/
theorem Stores.grown {h : HandlerCell α} {slot : StackSlot α} (hs : Stores h slot) (len : Nat) :
    ∃ b, (if h.buffer.size - h.buffer.used ≤ len then h.buffer.grow h.size len else h.buffer) = b ∧
      Stores { h with buffer := b } slot ∧ b.used + len ≤ b.mem.length := by
  have hroom := hs.room
  have hused := hs.used
  have halloc := hs.alloc
  refine ⟨_, rfl, ?_⟩
  split
  · have hgrow := lt_initBufSize (len - (h.buffer.size - h.buffer.used))
    refine ⟨⟨hs.size, hs.cleanable, hs.flushable, hs.removable, hs.disabled, hused, ?_, ?_⟩, ?_⟩
    · unfold HandlerBuffer.grow
      dsimp only
      rw [List.take_append_of_le_length hroom]
      exact hs.mem
    · simp [HandlerBuffer.grow, halloc]
    · simp only [HandlerBuffer.grow, List.length_append, List.length_replicate]
      omega
  · refine ⟨⟨hs.size, hs.cleanable, hs.flushable, hs.removable, hs.disabled, hused, hs.mem,
      halloc⟩, ?_⟩
    omega

/-- `memcpy` writes behind what is used and nowhere else. -/
theorem HandlerBuffer.store_fits {b : HandlerBuffer α} {data : List α}
    (h : b.used + data.length ≤ b.mem.length) :
    ∃ stored, b.store data = some stored ∧ stored.used = b.used + data.length ∧
      stored.size = b.size ∧ stored.mem.length = b.mem.length ∧
      stored.mem.take (b.used + data.length) = b.mem.take b.used ++ data.map some := by
  unfold HandlerBuffer.store
  rw [if_pos h]
  refine ⟨_, rfl, rfl, rfl, ?_, ?_⟩
  · simp only [List.length_append, List.length_take, List.length_map, List.length_drop]
    omega
  · have hlength : (b.mem.take b.used ++ data.map some).length = b.used + data.length := by
      simp only [List.length_append, List.length_take, List.length_map]
      omega
    dsimp only
    rw [← hlength, List.take_left]

/-- **Appending** copies the data behind what the handler holds. -/
theorem phpOutputHandlerAppend_stores {heap : OutputHeap α} {id : Nat} {h : HandlerCell α}
    {slot : StackSlot α} {buf : ContextBuf α} {data : List α} (hheap : heap id = some h)
    (hs : Stores h slot) (hbuf : buf.data.Avoids id) (hdata : deref heap buf = some data) :
    ∃ h', phpOutputHandlerAppend heap id buf = some (heap.set id h',
        !decide (data.length ≠ 0 ∧ slot.size ≠ 0 ∧
          slot.size ≤ slot.buffer.length + data.length)) ∧
      h'.level = h.level ∧ Stores h' { slot with buffer := slot.buffer ++ data } := by
  have hlength := deref_length hdata
  unfold phpOutputHandlerAppend
  by_cases hnone : buf.used = 0
  · rw [if_pos hnone]
    have hempty : data = [] := List.length_eq_zero_iff.mp (hlength.trans hnone)
    subst hempty
    refine ⟨h, ?_, rfl, ?_⟩
    · have hsame : heap.set id h = heap := by
        unfold OutputHeap.set
        rw [← hheap, Function.update_eq_self]
      simp [hsame]
    · rw [List.append_nil]
      exact hs
  · obtain ⟨b, hb, hgrown, hfits⟩ := hs.grown buf.used
    rw [← hlength] at hfits
    obtain ⟨stored, hstored, hused, hsize, hmem, htake⟩ := HandlerBuffer.store_fits hfits
    have hheld : b.used = slot.buffer.length := hgrown.used
    rw [if_neg hnone, hheap, Option.bind_some]
    dsimp only
    rw [hb, deref_set heap _ hbuf, hdata, Option.bind_some, hstored, Option.map_some]
    refine ⟨{ h with buffer := stored }, ?_, rfl, ?_⟩
    · rw [hs.size, hused, hheld]
      have hdatalen : data.length ≠ 0 := by omega
      simp [hdatalen]
    · refine ⟨hs.size, hs.cleanable, hs.flushable, hs.removable, hs.disabled, ?_, ?_, ?_⟩
      · dsimp only
        rw [List.length_append, hused, hheld]
      · have hold : b.mem.take slot.buffer.length = slot.buffer.map some := hgrown.mem
        dsimp only
        rw [List.length_append, List.map_append, ← hold, ← hheld]
        exact htake
      · have halloc : b.size = b.mem.length := hgrown.alloc
        dsimp only
        rw [hsize, hmem, halloc]

/-- What an operation leaves of a handler: nothing to pass on, or its contents,
which are still in its buffer. -/
structure HandlerRan (heap : OutputHeap α) (id level : Nat) (c : OutputContext α)
    (slot : StackSlot α) (passed : Option (List α))
    (r : OutputHeap α × OutputContext α × Bool) : Prop where
  heap : ∃ h, r.1 = heap.set id h ∧ h.level = level ∧ Stores h slot
  op : r.2.1.op = c.op
  output : match passed with
    | none => r.2.2 = false ∧ r.2.1.output = .empty
    | some str => r.2.2 = true ∧ deref r.1 r.2.1.output = some str ∧ str ≠ [] ∧
        ∃ moves size, r.2.1.output = ⟨.buffer id moves, size, str.length⟩

/-- **One operation** on a handler in memory does what it does to the lists. -/
theorem phpOutputHandlerOp_ran {heap : OutputHeap α} {id : Nat} {h : HandlerCell α}
    {slot : StackSlot α} {c : OutputContext α} {data : List α} (hheap : heap id = some h)
    (hs : Stores h slot) (hbuf : c.input.data.Avoids id) (hdata : deref heap c.input = some data)
    (hout : c.output = .empty) :
    ∃ r, phpOutputHandlerOp heap id c = some r ∧
      HandlerRan heap id h.level c ⟨(handlerOp c.op slot.toOutputHandler data).1, slot.disabled⟩
        (handlerOp c.op slot.toOutputHandler data).2 r := by
  obtain ⟨h', happend, hlevel, hs'⟩ := phpOutputHandlerAppend_stores hheap hs hbuf hdata
  unfold phpOutputHandlerOp
  rw [happend, Option.bind_some, handlerOp_eq]
  dsimp only
  have hstays : (!decide (data.length ≠ 0 ∧ slot.size ≠ 0 ∧
      slot.size ≤ slot.buffer.length + data.length) && c.op == .write)
      = slot.toOutputHandler.level.stays c.op data.length := by
    unfold Level.stays OutputHandler.level
    dsimp only
    rw [Bool.and_comm]
    congr 1
    by_cases hzero : data.length = 0
    · simp [hzero]
    · simp [hzero]
  rw [hstays]
  by_cases hkeep : slot.toOutputHandler.level.stays c.op data.length = true
  · rw [if_pos hkeep, if_pos hkeep]
    exact ⟨_, rfl, ⟨h', rfl, hlevel, hs'⟩, rfl, rfl, hout⟩
  · rw [if_neg hkeep, if_neg hkeep]
    have hself : heap.set id h' id = some h' := by
      unfold OutputHeap.set
      rw [Function.update_self]
    rw [hself, Option.map_some]
    have hused : h'.buffer.used = (slot.buffer ++ data).length := hs'.used
    have hdrained : Stores { h' with buffer := { h'.buffer with used := 0 } }
        ⟨{ slot.toOutputHandler with buffer := [] }, slot.disabled⟩ :=
      ⟨hs'.size, hs'.cleanable, hs'.flushable, hs'.removable, hs'.disabled, rfl, rfl, hs'.alloc⟩
    have hheap' : (heap.set id h').set id { h' with buffer := { h'.buffer with used := 0 } }
        = heap.set id { h' with buffer := { h'.buffer with used := 0 } } := by
      unfold OutputHeap.set
      rw [Function.update_idem]
    refine ⟨_, rfl, ?_⟩
    dsimp only [contextPass, contextFeed]
    rw [hused, hheap']
    by_cases hnone : slot.buffer ++ data = []
    · rw [hnone]
      refine ⟨⟨_, rfl, hlevel, hdrained⟩, rfl, ?_⟩
      exact ⟨rfl, rfl⟩
    · have hlength : (slot.buffer ++ data).length ≠ 0 := by
        rwa [ne_eq, List.length_eq_zero_iff]
      simp only [List.isEmpty_iff, hnone, if_false, ne_eq, hlength, not_false_eq_true, if_true]
      refine ⟨⟨_, rfl, hlevel, hdrained⟩, rfl, rfl, ?_, hnone, _, _, rfl⟩
      have hat : heap.set id { h' with buffer := { h'.buffer with used := 0 } } id
          = some { h' with buffer := { h'.buffer with used := 0 } } := by
        unfold OutputHeap.set
        rw [Function.update_self]
      exact deref_held hat hs'.mem _

/-! ## The stack -/

/-- The handlers at these pointers, from the top, hold what the slots say, and
their level is how many are below them. -/
def StackHolds (heap : OutputHeap α) : List Nat → List (StackSlot α) → Prop
  | [], [] => True
  | id :: ids, slot :: slots =>
      (∃ h, heap id = some h ∧ h.level = ids.length ∧ Stores h slot) ∧ StackHolds heap ids slots
  | [], _ :: _ | _ :: _, [] => False

/-- A stack holds the same when its handlers are the same. -/
theorem StackHolds.frame {heap heap' : OutputHeap α} {ids : List Nat} {slots : List (StackSlot α)}
    (h : StackHolds heap ids slots) (hsame : ∀ id ∈ ids, heap' id = heap id) :
    StackHolds heap' ids slots := by
  induction ids generalizing slots with
  | nil =>
      cases slots with
      | nil => trivial
      | cons slot slots => exact h
  | cons id ids ih =>
      cases slots with
      | nil => exact h
      | cons slot slots =>
          obtain ⟨⟨cell, hcell, hlevel, hstores⟩, hrest⟩ := h
          rw [List.forall_mem_cons] at hsame
          exact ⟨⟨cell, by rw [hsame.1, hcell], hlevel, hstores⟩, ih hrest hsame.2⟩

/-- The stack is as high as the slots say. -/
theorem StackHolds.length {heap : OutputHeap α} {ids : List Nat} {slots : List (StackSlot α)}
    (h : StackHolds heap ids slots) : ids.length = slots.length := by
  induction ids generalizing slots with
  | nil =>
      cases slots with
      | nil => rfl
      | cons slot slots => exact h.elim
  | cons id ids ih =>
      cases slots with
      | nil => exact h.elim
      | cons slot slots => rw [List.length_cons, List.length_cons, ih h.2]

/-- Another handler is not changed. -/
theorem OutputHeap.set_ne {heap : OutputHeap α} {id other : Nat} (h : HandlerCell α)
    (hne : other ≠ id) : heap.set id h other = heap other := Function.update_of_ne hne _ _

/-- The handler that is written. -/
@[simp] theorem OutputHeap.set_self (heap : OutputHeap α) (id : Nat) (h : HandlerCell α) :
    heap.set id h id = some h := Function.update_self _ _ _

/-- What one handler of the stack makes of a string: itself, and what goes on. -/
def slotApply (op : HandlerOp) (slot : StackSlot α) (data : List α) :
    StackSlot α × Option (List α) :=
  if slot.disabled then (slot, some data)
  else
    (⟨(handlerOp op slot.toOutputHandler data).1, false⟩,
      (handlerOp op slot.toOutputHandler data).2)

/-- What goes on goes to the handlers below. -/
theorem stackOp_cons (op : HandlerOp) (slot : StackSlot α) (slots : List (StackSlot α))
    (data : List α) :
    stackOp op (slot :: slots) data =
      match (slotApply op slot data).2 with
      | none => ((slotApply op slot data).1 :: slots, [])
      | some out =>
          ((slotApply op slot data).1 :: (stackOp op slots out).1, (stackOp op slots out).2) := by
  unfold slotApply
  rw [stackOp]
  by_cases hoff : slot.disabled = true
  · rw [if_pos hoff, if_pos hoff]
  · rw [if_neg hoff, if_neg hoff]
    cases hop : handlerOp op slot.toOutputHandler data with
    | mk kept passed =>
        cases passed with
        | none => rfl
        | some out => rfl

/-- What a call for one handler leaves: the last handler puts what goes on into the
output, the others into the input of the next. -/
structure ApplyRan (heap : OutputHeap α) (id level : Nat) (c : OutputContext α)
    (slot : StackSlot α) (passed : Option (List α))
    (r : OutputHeap α × OutputContext α × Bool) : Prop where
  cell : ∃ h, r.1 id = some h ∧ h.level = level ∧ Stores h slot
  frame : ∀ other, other ≠ id → r.1 other = heap other
  output : match passed with
    | none => r.2.1.output = .empty
    | some str =>
        if level = 0 then deref r.1 r.2.1.output = some str
        else
          r.2.1.op = c.op ∧ r.2.1.output = .empty ∧ deref r.1 r.2.1.input = some str ∧
            ∀ other, other ≠ id → c.input.data.Avoids other → r.2.1.input.data.Avoids other
  stop : r.2.2 = passed.isNone

/-- **One handler of the stack.** -/
theorem stackApplyOp_ran {heap : OutputHeap α} {id : Nat} {h : HandlerCell α}
    {slot : StackSlot α} {c : OutputContext α} {data : List α} (hheap : heap id = some h)
    (hs : Stores h slot) (havoid : c.input.data.Avoids id) (hdata : deref heap c.input = some data)
    (hout : c.output = .empty) :
    ∃ r, stackApplyOp heap id c = some r ∧
      ApplyRan heap id h.level c (slotApply c.op slot data).1 (slotApply c.op slot data).2 r := by
  unfold slotApply
  rw [stackApplyOp, hheap, Option.bind_some, hs.disabled]
  by_cases hoff : slot.disabled = true
  · -- the handler is passed over
    rw [if_pos hoff, if_pos hoff]
    refine ⟨_, rfl, ⟨h, hheap, rfl, hs⟩, fun _ _ => rfl, ?_, rfl⟩
    dsimp only
    by_cases hlast : h.level = 0
    · rw [if_pos hlast, if_pos hlast]
      exact hdata
    · rw [if_neg hlast, if_neg hlast]
      exact ⟨rfl, hout, hdata, fun _ _ hother => hother⟩
  · rw [if_neg hoff, if_neg hoff]
    obtain ⟨r, hr, hran⟩ := phpOutputHandlerOp_ran hheap hs havoid hdata hout
    obtain ⟨h', hheap', hlevel', hs'⟩ := hran.heap
    have hframe : ∀ other, other ≠ id → r.1 other = heap other := by
      intro other hne
      rw [hheap']
      exact OutputHeap.set_ne h' hne
    have hself : r.1 id = some h' := by rw [hheap', OutputHeap.set_self]
    rw [Bool.eq_false_iff.mpr hoff] at hs'
    rw [hr, Option.map_some]
    dsimp only
    have houtput := hran.output
    generalize handlerOp c.op slot.toOutputHandler data = done at houtput hs' ⊢
    obtain ⟨kept, passed⟩ := done
    cases passed with
    | none =>
        obtain ⟨hstatus, hempty⟩ := houtput
        rw [hstatus, if_neg Bool.false_ne_true]
        exact ⟨_, rfl, ⟨h', hself, hlevel', hs'⟩, hframe, hempty, rfl⟩
    | some str =>
        obtain ⟨hstatus, hread, -, moves, size, hptr⟩ := houtput
        rw [hstatus, if_pos rfl]
        refine ⟨_, rfl, ⟨h', hself, hlevel', hs'⟩, hframe, ?_, rfl⟩
        dsimp only
        by_cases hlast : h.level = 0
        · rw [if_pos hlast, if_pos hlast]
          exact hread
        · rw [if_neg hlast, if_neg hlast]
          refine ⟨hran.op, rfl, hread, fun other hne _ moves' heq => ?_⟩
          -- what goes on is in the buffer of this handler
          have hsame : (.buffer id moves : DataPtr α) = .buffer other moves' := by
            rw [← heq, contextSwap, hptr]
          cases hsame
          exact hne rfl

/-- **The handlers from the top of the stack** do what the operation on the lists
says, and no other handler is touched. -/
theorem stackApply_refines {ids : List Nat} {slots : List (StackSlot α)} {heap : OutputHeap α}
    {c : OutputContext α} {data : List α} (hne : ids ≠ []) (hnodup : ids.Nodup)
    (hholds : StackHolds heap ids slots) (havoids : ∀ id ∈ ids, c.input.data.Avoids id)
    (hdata : deref heap c.input = some data) (hout : c.output = .empty) :
    ∃ heap' c', stackApply ids heap c = some (heap', c') ∧
      StackHolds heap' ids (stackOp c.op slots data).1 ∧
      (∀ id ∉ ids, heap' id = heap id) ∧
      deref heap' c'.output = some (stackOp c.op slots data).2 := by
  induction ids generalizing slots heap c data with
  | nil => exact absurd rfl hne
  | cons id ids ih =>
      cases slots with
      | nil => exact hholds.elim
      | cons slot slots =>
          obtain ⟨⟨h, hheap, hlevel, hstores⟩, hrest⟩ := hholds
          obtain ⟨hnotmem, hnodup'⟩ := List.nodup_cons.mp hnodup
          rw [List.forall_mem_cons] at havoids
          obtain ⟨havoid, havoids'⟩ := havoids
          obtain ⟨r, hr, hran⟩ := stackApplyOp_ran hheap hstores havoid hdata hout
          obtain ⟨h', hself, hlevel', hstores'⟩ := hran.cell
          rw [stackApply, hr, Option.bind_some, stackOp_cons]
          dsimp only
          rw [hran.stop]
          have houtput := hran.output
          -- the handlers below are those before
          have hbelow : StackHolds r.1 ids slots :=
            hrest.frame fun other hother => hran.frame other fun heq => hnotmem (heq ▸ hother)
          have hother : ∀ other ∉ id :: ids, r.1 other = heap other := by
            intro other hother
            rw [List.mem_cons, not_or] at hother
            exact hran.frame other hother.1
          generalize slotApply c.op slot data = done at houtput hstores' ⊢
          obtain ⟨kept, passed⟩ := done
          cases passed with
          | none =>
              refine ⟨r.1, r.2.1, rfl, ⟨⟨h', hself, hlevel'.trans hlevel, hstores'⟩, hbelow⟩,
                hother, ?_⟩
              rw [show r.2.1.output = .empty from houtput]
              rfl
          | some str =>
              dsimp only at houtput ⊢
              rw [Option.isNone_some, if_neg Bool.false_ne_true]
              cases ids with
              | nil =>
                  have hnil : slots = [] := List.length_eq_zero_iff.mp hrest.length.symm
                  subst hnil
                  have hzero : h.level = 0 := hlevel
                  rw [if_pos hzero] at houtput
                  rw [stackApply]
                  exact ⟨_, _, rfl, ⟨⟨h', hself, hlevel'.trans hlevel, hstores'⟩, trivial⟩,
                    hother, houtput⟩
              | cons below ids =>
                  have hnonzero : h.level ≠ 0 := by
                    rw [hlevel, List.length_cons]
                    omega
                  rw [if_neg hnonzero] at houtput
                  obtain ⟨hop, hempty, hread, havoids''⟩ := houtput
                  obtain ⟨heap', c', hrun, hholds', hframe, hderef⟩ := ih (by simp) hnodup' hbelow
                    (fun other hmem => havoids'' other (fun heq => hnotmem (heq ▸ hmem))
                      (havoids' other hmem)) hread hempty
                  rw [hop] at hholds' hderef
                  refine ⟨heap', c', hrun, ⟨⟨h', ?_, hlevel'.trans hlevel, hstores'⟩, hholds'⟩,
                    ?_, hderef⟩
                  · rw [hframe id hnotmem, hself]
                  · intro other hmem
                    rw [hframe other fun hin => hmem (List.mem_cons_of_mem _ hin)]
                    exact hother other hmem

/-- The path for a single handler does what the stack does. -/
theorem stackApply_single {heap : OutputHeap α} {id : Nat} {h : HandlerCell α}
    (hheap : heap id = some h) (hlevel : h.level = 0) (c : OutputContext α) :
    stackApply [id] heap c =
      if h.disabled then some (heap, contextPass c)
      else (phpOutputHandlerOp heap id c).map fun (heap, c, _) => (heap, c) := by
  rw [stackApply, stackApplyOp, hheap, Option.bind_some]
  by_cases hoff : h.disabled = true
  · rw [if_pos hoff, if_pos hoff, if_pos hlevel]
    rfl
  · rw [if_neg hoff, if_neg hoff]
    cases hr : phpOutputHandlerOp heap id c with
    | none => rfl
    | some r =>
        obtain ⟨heap', c', success⟩ := r
        cases success with
        | true => simp [stackApply, hlevel]
        | false => simp

/-- **The first half of `php_output_op`** passes the data through the stack. -/
theorem runHandlers_refines {s : OutputGlobals α} {slots : List (StackSlot α)} (op : HandlerOp)
    {str : DataPtr α} {len : Nat} {data : List α} (hnodup : s.stack.Nodup)
    (hholds : StackHolds s.heap s.stack slots) (hactive : s.stack ≠ [] → s.active.isSome = true)
    (havoids : ∀ id ∈ s.stack, str.Avoids id) (hdata : deref s.heap ⟨str, 0, len⟩ = some data) :
    ∃ heap' c', runHandlers op str len s = some (heap', c') ∧
      StackHolds heap' s.stack (stackOp op slots data).1 ∧
      (∀ id ∉ s.stack, heap' id = s.heap id) ∧
      deref heap' c'.output = some (stackOp op slots data).2 := by
  cases hstack : s.stack with
  | nil =>
      rw [hstack] at hholds
      have hnil : slots = [] := List.length_eq_zero_iff.mp hholds.length.symm
      subst hnil
      have hrun : runHandlers op str len s
          = some (s.heap, { (contextInit op : OutputContext α) with output := ⟨str, 0, len⟩ }) := by
        unfold runHandlers
        rw [hstack]
        cases s.active with
        | none => rfl
        | some id => rfl
      exact ⟨_, _, hrun, trivial, fun _ _ => rfl, hdata⟩
  | cons id ids =>
      obtain ⟨active, hsome⟩ := Option.isSome_iff_exists.mp (hactive (by simp [hstack]))
      rw [hstack] at hholds hnodup havoids
      have hrun : runHandlers op str len s = stackApply (id :: ids) s.heap
          { (contextInit op : OutputContext α) with input := ⟨str, 0, len⟩ } := by
        unfold runHandlers
        rw [hstack, hsome]
        cases ids with
        | nil =>
            cases slots with
            | nil => exact hholds.elim
            | cons slot slots =>
                obtain ⟨⟨h, hheap, hlevel, -⟩, -⟩ := hholds
                rw [stackApply_single hheap hlevel]
                dsimp only
                rw [hheap, Option.bind_some]
        | cons below ids => rfl
      rw [hrun]
      exact stackApply_refines (by simp) hnodup hholds havoids hdata rfl

/-- A context has data to write exactly when what it points to is not empty. -/
theorem hasData_iff {heap : OutputHeap α} {b : ContextBuf α} {data : List α}
    (h : deref heap b = some data) : b.hasData = true ↔ data ≠ [] := by
  have hlength := deref_length h
  have hempty : data = [] ↔ b.used = 0 := by
    rw [← hlength, List.length_eq_zero_iff]
  unfold ContextBuf.hasData
  cases hdata : b.data with
  | null =>
      unfold deref at h
      rw [hdata] at h
      dsimp only at h
      split at h
      · cases h
        simp
      · cases h
  | text str => simp [hempty]
  | buffer id moves => simp [hempty]

/-- The calls of the SAPI for what comes out. -/
def sinkCalls (isToxic : Bool) (out : List α) : List (SinkCall α) :=
  if out.isEmpty then [] else [sinkCall isToxic out]

/-- **`php_output_op`** passes the data through the stack and hands what comes out
to the SAPI. -/
theorem phpOutputOpContext_refines {s : OutputGlobals α} {slots : List (StackSlot α)}
    (op : HandlerOp) {str : DataPtr α} {len : Nat} {data : List α} (hnodup : s.stack.Nodup)
    (hholds : StackHolds s.heap s.stack slots) (hactive : s.stack ≠ [] → s.active.isSome = true)
    (havoids : ∀ id ∈ s.stack, str.Avoids id) (hdata : deref s.heap ⟨str, 0, len⟩ = some data) :
    ∃ heap', phpOutputOpContext op str len s = some { s with
        heap := heap'
        calls := s.calls ++ sinkCalls s.isToxic (stackOp op slots data).2 } ∧
      StackHolds heap' s.stack (stackOp op slots data).1 ∧
      (∀ id ∉ s.stack, heap' id = s.heap id) := by
  obtain ⟨heap', c', hrun, hholds', hframe, hderef⟩ :=
    runHandlers_refines op hnodup hholds hactive havoids hdata
  refine ⟨heap', ?_, hholds', hframe⟩
  unfold phpOutputOpContext sapiWrite sinkCalls
  rw [hrun, Option.bind_some]
  dsimp only
  have hiff := hasData_iff hderef
  by_cases hempty : (stackOp op slots data).2 = []
  · have hno : ¬ c'.output.hasData = true := by
      rw [hiff]
      exact fun h => h hempty
    rw [if_neg hno, hempty]
    simp
  · rw [if_pos (hiff.mpr hempty), hderef, Option.map_some]
    simp [hempty]

/-! ## The calls -/

/-- The output globals hold what the layer says, and the SAPI has got the strings
that have come out. -/
structure Refines (isToxic : Bool) (s : OutputGlobals Written) (layer : StackLayer) : Prop where
  holds : StackHolds s.heap s.stack layer.slots
  nodup : s.stack.Nodup
  fresh : ∀ id ∈ s.stack, id < s.next
  active : s.active = s.stack.head?
  toxic : s.isToxic = isToxic
  calls : s.calls = layer.passed.map (sinkCall isToxic)

/-- There is an active handler when the stack is not empty. -/
theorem Refines.isSome {isToxic : Bool} {s : OutputGlobals Written} {layer : StackLayer}
    (h : Refines isToxic s layer) (hne : s.stack ≠ []) : s.active.isSome = true := by
  rw [h.active]
  cases hs : s.stack with
  | nil => exact absurd hs hne
  | cons id ids => rfl

/-- The strings after an operation on the lists. -/
theorem StackLayer.op_calls (isToxic : Bool) (op : HandlerOp) (data : List Written)
    (layer : StackLayer) :
    (layer.op op data).passed.map (sinkCall isToxic)
      = layer.passed.map (sinkCall isToxic)
        ++ sinkCalls isToxic (stackOp op layer.slots data).2 := by
  unfold StackLayer.op sinkCalls
  dsimp only
  split
  · simp
  · simp

/-- Nothing is written into the handlers. -/
theorem stackOp_write_nil (slots : List (StackSlot α)) : stackOp .write slots [] = (slots, []) := by
  induction slots with
  | nil => rfl
  | cons slot slots ih =>
      rw [stackOp, ih, handlerOp_eq]
      by_cases hoff : slot.disabled = true
      · rw [if_pos hoff]
      · have hon : slot.disabled = false := Bool.eq_false_iff.mpr hoff
        have hstays : slot.toOutputHandler.level.stays .write ([] : List α).length = true := rfl
        rw [if_neg hoff, if_pos hstays, ← hon, List.append_nil]

/-- **Data that goes through the stack**, given by a pointer. -/
theorem Refines.op {isToxic : Bool} {s : OutputGlobals Written} {layer : StackLayer}
    (h : Refines isToxic s layer) (op : HandlerOp) {str : DataPtr Written} {len : Nat}
    {data : List Written} (havoids : ∀ id ∈ s.stack, str.Avoids id)
    (hdata : deref s.heap ⟨str, 0, len⟩ = some data) :
    ∃ t, phpOutputOpContext op str len s = some t ∧ Refines isToxic t (layer.op op data) ∧
      t.stack = s.stack := by
  obtain ⟨heap', hrun, hholds, -⟩ :=
    phpOutputOpContext_refines op h.nodup h.holds h.isSome havoids hdata
  refine ⟨_, hrun, ⟨hholds, h.nodup, h.fresh, h.active, h.toxic, ?_⟩, rfl⟩
  rw [StackLayer.op_calls, ← h.calls, h.toxic]

/-- **`php_output_write`**. -/
theorem Refines.write {isToxic : Bool} {s : OutputGlobals Written} {layer : StackLayer}
    (h : Refines isToxic s layer) (data : List Written) :
    ∃ t, phpOutputWriteContext data s = some t ∧ Refines isToxic t (layer.op .write data) := by
  have havoids : ∀ id ∈ s.stack, (DataPtr.text data).Avoids id := by
    intro id _ moves heq
    cases heq
  have hread : deref s.heap ⟨.text data, 0, data.length⟩ = some data := by simp [deref]
  obtain ⟨t, ht, hrefines, -⟩ := h.op .write havoids hread
  exact ⟨t, ht, hrefines⟩

/-- **`ob_start`**. -/
theorem Refines.start {isToxic : Bool} {s : OutputGlobals Written} {layer : StackLayer}
    (h : Refines isToxic s layer) (chunkSize : Int) (flags : UInt32) :
    Refines isToxic (phpOutputStart chunkSize flags s)
      { layer with slots := .opened chunkSize flags :: layer.slots } := by
  have hnew : s.next ∉ s.stack := by
    intro hmem
    exact absurd (h.fresh _ hmem) (Nat.lt_irrefl _)
  refine ⟨⟨⟨_, OutputHeap.set_self _ _ _, rfl, ?_⟩, ?_⟩, ?_, ?_, rfl, h.toxic, h.calls⟩
  · refine ⟨rfl, rfl, rfl, rfl, rfl, rfl, rfl, ?_⟩
    simp
  · refine h.holds.frame ?_
    intro id hid
    exact OutputHeap.set_ne _ (fun heq => hnew (heq ▸ hid))
  · exact List.nodup_cons.mpr ⟨hnew, h.nodup⟩
  · intro id hid
    simp only [phpOutputStart] at hid ⊢
    rcases List.mem_cons.mp hid with hid | hid
    · omega
    · have := h.fresh id hid
      omega

/-- What a handler in memory holds. -/
theorem Stores.held {h : HandlerCell α} {slot : StackSlot α} (hs : Stores h slot) :
    h.buffer.held = slot.buffer := by
  unfold HandlerBuffer.held
  rw [hs.used, hs.mem]
  simp [List.reduceOption]

/-- The handler on top. -/
structure OnTop (s : OutputGlobals Written) (layer : StackLayer) (id : Nat) (ids : List Nat)
    (h : HandlerCell Written) (slot : StackSlot Written) (slots : List (StackSlot Written)) :
    Prop where
  onStack : s.stack = id :: ids
  inLayer : layer.slots = slot :: slots
  active : s.active = some id
  heap : s.heap id = some h
  level : h.level = ids.length
  stores : Stores h slot
  rest : StackHolds s.heap ids slots
  notMem : id ∉ ids
  nodup : ids.Nodup

/-- There is no handler, or one on top. -/
theorem Refines.cases {isToxic : Bool} {s : OutputGlobals Written} {layer : StackLayer}
    (h : Refines isToxic s layer) :
    (s.active = none ∧ layer.slots = []) ∨
      ∃ id ids cell slot slots, OnTop s layer id ids cell slot slots := by
  have hholds := h.holds
  have hactive := h.active
  have hnodup := h.nodup
  cases hs : s.stack with
  | nil =>
      rw [hs] at hholds hactive
      exact Or.inl ⟨hactive, List.length_eq_zero_iff.mp hholds.length.symm⟩
  | cons id ids =>
      cases hslots : layer.slots with
      | nil =>
          rw [hs, hslots] at hholds
          exact hholds.elim
      | cons slot slots =>
          rw [hs, hslots] at hholds
          rw [hs] at hactive hnodup
          obtain ⟨⟨cell, hcell, hlevel, hstores⟩, hrest⟩ := hholds
          obtain ⟨hnotmem, hnodup'⟩ := List.nodup_cons.mp hnodup
          exact Or.inr ⟨id, ids, cell, slot, slots, hs, hslots, hactive, hcell, hlevel, hstores,
            hrest, hnotmem, hnodup'⟩

/-- **An operation that empties the handler on top**: it holds nothing any more,
and its data is where the context points to. -/
theorem OnTop.drain {s : OutputGlobals Written} {layer : StackLayer} {id : Nat} {ids : List Nat}
    {h : HandlerCell Written} {slot : StackSlot Written} {slots : List (StackSlot Written)}
    (htop : OnTop s layer id ids h slot slots) (op : HandlerOp) (hop : op ≠ .write) :
    ∃ heap c success h', phpOutputHandlerOp s.heap id (contextInit op) = some (heap, c, success) ∧
      heap = s.heap.set id h' ∧ h'.level = ids.length ∧ Stores h' slot.emptied ∧
      deref heap c.output = some slot.buffer ∧ ∀ other ∈ ids, c.output.data.Avoids other := by
  have hnull : (contextInit op : OutputContext Written).input.data.Avoids id := by
    intro moves heq
    cases heq
  have hread : deref s.heap (contextInit op : OutputContext Written).input = some [] := rfl
  obtain ⟨r, hr, hran⟩ := phpOutputHandlerOp_ran htop.heap htop.stores hnull hread rfl
  obtain ⟨h', hheap', hlevel', hstores'⟩ := hran.heap
  have hdrain : handlerOp (contextInit op : OutputContext Written).op slot.toOutputHandler []
      = ({ slot.toOutputHandler with buffer := [] },
        if slot.buffer.isEmpty then none else some slot.buffer) := handlerOp_drain hop _
  have houtput := hran.output
  rw [hdrain] at houtput hstores'
  refine ⟨r.1, r.2.1, r.2.2, h', hr, hheap', hlevel'.trans htop.level, hstores', ?_, ?_⟩
  · by_cases hempty : slot.buffer = []
    · rw [hempty] at houtput ⊢
      obtain ⟨-, hnull⟩ := houtput
      rw [hnull]
      rfl
    · simp only [List.isEmpty_iff, hempty, if_false] at houtput
      exact houtput.2.1
  · by_cases hempty : slot.buffer = []
    · rw [hempty] at houtput
      obtain ⟨-, hnull⟩ := houtput
      rw [hnull]
      intro other _ moves heq
      cases heq
    · simp only [List.isEmpty_iff, hempty, if_false] at houtput
      obtain ⟨-, -, -, moves, size, hptr⟩ := houtput
      rw [hptr]
      intro other hother moves' heq
      have hsame : (DataPtr.buffer id moves : DataPtr Written) = .buffer other moves' := heq
      cases hsame
      exact htop.notMem hother

/-- The handlers below the one on top, while it is off the stack. -/
theorem OnTop.below {s : OutputGlobals Written} {layer : StackLayer} {id : Nat}
    {ids : List Nat} {h h' : HandlerCell Written} {slot : StackSlot Written}
    {slots : List (StackSlot Written)} (htop : OnTop s layer id ids h slot slots) :
    StackHolds (s.heap.set id h') ids slots := by
  refine htop.rest.frame ?_
  intro other hother
  exact OutputHeap.set_ne h' (fun heq => htop.notMem (heq ▸ hother))

/-- **`php_output_flush`** takes the handler off the stack while its data is
written below it. -/
theorem Refines.flush {isToxic : Bool} {s : OutputGlobals Written} {layer : StackLayer}
    (h : Refines isToxic s layer) :
    ∃ t, phpOutputFlush s = some t ∧ Refines isToxic t (layerStep layer .flush) := by
  unfold phpOutputFlush layerStep
  obtain ⟨hnone, hslots⟩ | ⟨id, ids, cell, slot, slots, htop⟩ := h.cases
  · rw [hnone, hslots]
    exact ⟨s, rfl, h⟩
  · rw [htop.active, htop.inLayer]
    dsimp only
    rw [htop.heap, Option.bind_some, htop.stores.flushable]
    by_cases hflag : slot.flushable = true
    · rw [if_pos hflag, if_pos hflag]
      obtain ⟨heap, c, success, h', hran, hheap, hlevel, hstores, hderef, havoids⟩ :=
        htop.drain .flush (by decide)
      have hself : heap id = some h' := by rw [hheap, OutputHeap.set_self]
      have hbelow : StackHolds heap ids slots := by
        rw [hheap]
        exact htop.below
      rw [hran, Option.bind_some]
      dsimp only
      have hiff := hasData_iff hderef
      have hfresh : ∀ other ∈ id :: ids, other < s.next := by
        rw [← htop.onStack]
        exact h.fresh
      by_cases hempty : slot.buffer = []
      · have hno : ¬ c.output.hasData = true := by
          rw [hiff]
          exact fun hne => hne hempty
        rw [if_neg hno]
        refine ⟨_, rfl, ?_, h.nodup, h.fresh, htop.active.symm.trans h.active, h.toxic, ?_⟩
        · simp only [htop.onStack, StackLayer.op, hempty, stackOp_write_nil]
          exact ⟨⟨h', hself, hlevel, hstores⟩, hbelow⟩
        · simp only [StackLayer.op, hempty, stackOp_write_nil]
          exact h.calls
      · rw [if_pos (hiff.mpr hempty)]
        have hread : deref heap ⟨c.output.data, 0, c.output.used⟩ = some slot.buffer := hderef
        obtain ⟨heap', hrun, hholds', hframe⟩ := phpOutputOpContext_refines
          (s := { s with heap := heap, stack := ids, active := some id }) .write htop.nodup hbelow
          (fun _ => rfl) havoids hread
        have htail : s.stack.tail = ids := by rw [htop.onStack]; rfl
        rw [htail, hrun, Option.map_some]
        refine ⟨_, rfl, ⟨⟨h', ?_, hlevel, hstores⟩, hholds'⟩, ?_, hfresh, ?_, h.toxic, ?_⟩
        · exact (hframe id htop.notMem).trans hself
        · exact List.nodup_cons.mpr ⟨htop.notMem, htop.nodup⟩
        · rfl
        · rw [StackLayer.op_calls, ← h.calls, h.toxic]
    · rw [if_neg hflag, if_neg hflag]
      exact ⟨s, rfl, h⟩

/-- **`php_output_clean`**. -/
theorem Refines.clean {isToxic : Bool} {s : OutputGlobals Written} {layer : StackLayer}
    (h : Refines isToxic s layer) :
    ∃ t, phpOutputClean s = some t ∧ Refines isToxic t (layerStep layer .clean) ∧
      (layerStep layer .clean).discarded
        = layer.discarded ++ activeHeld HandlerCell.cleanable s := by
  unfold phpOutputClean layerStep activeHeld
  obtain ⟨hnone, hslots⟩ | ⟨id, ids, cell, slot, slots, htop⟩ := h.cases
  · rw [hnone, hslots]
    exact ⟨s, rfl, h, by simp⟩
  · rw [htop.active, htop.inLayer, Option.bind_some]
    dsimp only
    rw [htop.heap, Option.bind_some]
    dsimp only
    rw [htop.stores.cleanable]
    by_cases hflag : slot.cleanable = true
    · rw [if_pos hflag, if_pos hflag, if_pos hflag]
      obtain ⟨heap, c, success, h', hran, hheap, hlevel, hstores, -, -⟩ :=
        htop.drain .clean (by decide)
      have hself : heap id = some h' := by rw [hheap, OutputHeap.set_self]
      have hbelow : StackHolds heap ids slots := by
        rw [hheap]
        exact htop.below
      rw [hran, Option.map_some]
      refine ⟨_, rfl, ⟨?_, h.nodup, h.fresh, htop.active.symm.trans h.active, h.toxic,
        h.calls⟩, ?_⟩
      · simp only [htop.onStack]
        exact ⟨⟨h', hself, hlevel, hstores⟩, hbelow⟩
      · dsimp only
        rw [htop.stores.held]
    · rw [if_neg hflag, if_neg hflag, if_neg hflag]
      exact ⟨s, rfl, h, by simp⟩

/-- **`php_output_stack_pop`**: the data of the handler is written below it when it
is gone, unless it is discarded. -/
theorem Refines.stackPop {isToxic : Bool} {s : OutputGlobals Written} {layer : StackLayer}
    (h : Refines isToxic s layer) {id : Nat} {ids : List Nat} {cell : HandlerCell Written}
    {slot : StackSlot Written} {slots : List (StackSlot Written)}
    (htop : OnTop s layer id ids cell slot slots)
    (hquiet : slot.disabled = true → slot.buffer = []) (discard : Bool) :
    ∃ t, phpOutputStackPop discard id cell s = some t ∧
      Refines isToxic t (if discard then { layer with slots := slots }
        else StackLayer.op .write slot.buffer { layer with slots := slots }) := by
  -- the handler is run unless it is disabled; then it holds nothing
  have hran : ∃ heap c, (if cell.disabled then some (s.heap, contextInit .final)
        else (phpOutputHandlerOp s.heap id (contextInit .final)).map
          fun (heap, c, _) => (heap, c)) = some (heap, c) ∧
      StackHolds heap ids slots ∧ deref heap c.output = some slot.buffer ∧
      ∀ other ∈ ids, c.output.data.Avoids other := by
    rw [htop.stores.disabled]
    by_cases hoff : slot.disabled = true
    · rw [if_pos hoff, hquiet hoff]
      refine ⟨s.heap, contextInit .final, rfl, htop.rest, rfl, ?_⟩
      intro other _ moves heq
      cases heq
    · rw [if_neg hoff]
      obtain ⟨heap, c, success, h', hrun, hheap, -, -, hderef, havoids⟩ :=
        htop.drain .final (by decide)
      rw [hrun]
      refine ⟨heap, c, rfl, ?_, hderef, havoids⟩
      rw [hheap]
      exact htop.below
  obtain ⟨heap, c, hrun, hbelow, hderef, havoids⟩ := hran
  have htail : s.stack.tail = ids := by rw [htop.onStack]; rfl
  have hfresh : ∀ other ∈ ids, other < s.next := by
    intro other hother
    refine h.fresh other ?_
    rw [htop.onStack]
    exact List.mem_cons_of_mem _ hother
  have hpopped : Refines isToxic
      { s with heap := heap, stack := ids, active := ids.head? } { layer with slots := slots } :=
    ⟨hbelow, htop.nodup, hfresh, rfl, h.toxic, h.calls⟩
  -- what is freed is not on the stack any more
  have hfree : ∀ {t : OutputGlobals Written} {l : StackLayer}, Refines isToxic t l →
      t.stack = ids → Refines isToxic { t with heap := Function.update t.heap id none } l := by
    intro t l ht hstack
    refine ⟨ht.holds.frame ?_, ht.nodup, ht.fresh, ht.active, ht.toxic, ht.calls⟩
    intro other hother
    rw [hstack] at hother
    have hne : other ≠ id := by
      intro heq
      rw [heq] at hother
      exact htop.notMem hother
    exact Function.update_of_ne hne _ _
  unfold phpOutputStackPop
  rw [hrun, Option.bind_some, htail]
  dsimp only
  cases discard with
  | true => exact ⟨_, rfl, hfree hpopped rfl⟩
  | false =>
      have hiff := hasData_iff hderef
      unfold writeOutput
      rw [if_neg Bool.false_ne_true, if_neg Bool.false_ne_true]
      by_cases hempty : slot.buffer = []
      · have hno : ¬ c.output.hasData = true := by
          rw [hiff]
          exact fun hne => hne hempty
        have hsame : StackLayer.op .write slot.buffer { layer with slots := slots }
            = { layer with slots := slots } := by
          simp [StackLayer.op, hempty, stackOp_write_nil]
        rw [if_neg hno, hsame]
        exact ⟨_, rfl, hfree hpopped rfl⟩
      · rw [if_pos (hiff.mpr hempty)]
        have hread : deref heap ⟨c.output.data, 0, c.output.used⟩ = some slot.buffer := hderef
        obtain ⟨t, ht, hrefines, hstack⟩ := hpopped.op .write havoids hread
        rw [ht, Option.map_some]
        exact ⟨_, rfl, hfree hrefines hstack⟩

/-- The layer in memory is at a state of the layer of lists. -/
structure LayerRefines (isToxic : Bool) (s : LayerState) (layer : StackLayer) : Prop where
  globals : Refines isToxic s.globals layer
  written : s.written = layer.written
  discarded : s.discarded = layer.discarded

/-- `php_output_end` and `php_output_discard`, which write the notice when no
handler can be removed. -/
theorem Refines.pop {isToxic : Bool} {s : OutputGlobals Written} {layer : StackLayer}
    (h : Refines isToxic s layer) (hquiet : Quiet layer.slots) (discard : Bool)
    (notice : List Written) :
    (activeRemovable s = false ∧ activeHeld HandlerCell.removable s = [] ∧
        (∀ slot slots, layer.slots = slot :: slots → slot.removable = false) ∧
        ∃ t, phpOutputPop discard notice s = some t ∧
          Refines isToxic t (layer.op .write notice)) ∨
    ∃ slot slots, layer.slots = slot :: slots ∧ slot.removable = true ∧
      activeRemovable s = true ∧ activeHeld HandlerCell.removable s = slot.buffer ∧
      ∃ t, phpOutputPop discard notice s = some t ∧
        Refines isToxic t (if discard then { layer with slots := slots }
          else StackLayer.op .write slot.buffer { layer with slots := slots }) := by
  unfold phpOutputPop activeRemovable activeHeld
  obtain ⟨hnone, hslots⟩ | ⟨id, ids, cell, slot, slots, htop⟩ := h.cases
  · rw [hnone, hslots]
    exact Or.inl ⟨rfl, rfl, by simp, h.write notice⟩
  · rw [htop.active, Option.bind_some, htop.heap, htop.inLayer]
    dsimp only
    rw [htop.heap, Option.bind_some, htop.stores.removable, htop.stores.held]
    by_cases hflag : slot.removable = true
    · refine Or.inr ⟨slot, slots, rfl, hflag, hflag, if_pos hflag, ?_⟩
      rw [if_pos hflag]
      refine h.stackPop htop ?_ discard
      refine hquiet slot ?_
      rw [htop.inLayer]
      exact List.mem_cons_self
    · refine Or.inl ⟨Bool.eq_false_iff.mpr hflag, if_neg hflag, ?_, ?_⟩
      · intro slot' slots' heq
        cases heq
        exact Bool.eq_false_iff.mpr hflag
      · rw [if_neg hflag]
        exact h.write notice

/-- A flush writes and discards nothing. -/
theorem layerStep_flush_ghosts (layer : StackLayer) :
    (layerStep layer .flush).written = layer.written ∧
      (layerStep layer .flush).discarded = layer.discarded := by
  unfold layerStep
  cases layer.slots with
  | nil => exact ⟨rfl, rfl⟩
  | cons slot slots =>
      dsimp only
      split
      · exact ⟨rfl, rfl⟩
      · exact ⟨rfl, rfl⟩

/-- A clean writes nothing. -/
theorem layerStep_clean_written (layer : StackLayer) :
    (layerStep layer .clean).written = layer.written := by
  unfold layerStep
  cases layer.slots with
  | nil => rfl
  | cons slot slots =>
      dsimp only
      split
      · rfl
      · rfl

/-- The layer after the bytes of a notice or text. -/
theorem LayerRefines.wrote {isToxic : Bool} {s : LayerState} {layer : StackLayer}
    (h : LayerRefines isToxic s layer) (text : Bytes) {t : OutputGlobals Written}
    (ht : Refines isToxic t (layer.op .write (freshBytes s.written text))) :
    LayerRefines isToxic ⟨t, s.written ++ freshBytes s.written text, s.discarded⟩
      (layer.write text) := by
  rw [h.written] at ht ⊢
  exact ⟨⟨ht.holds, ht.nodup, ht.fresh, ht.active, ht.toxic, ht.calls⟩, rfl, h.discarded⟩

/-- **Every call** has a result, and does what the call of the lists does. -/
theorem layerCall_refines {isToxic : Bool} {s : LayerState} {layer : StackLayer}
    (h : LayerRefines isToxic s layer) (hquiet : Quiet layer.slots) (op : LayerOp) :
    ∃ t, layerCall s op = some t ∧ LayerRefines isToxic t (layerStep layer op) := by
  cases op with
  | write text =>
      obtain ⟨t, ht, hrefines⟩ := h.globals.write (freshBytes s.written text)
      refine ⟨_, ?_, h.wrote text hrefines⟩
      simp only [layerCall, ht, Option.map_some]
  | start chunkSize flags =>
      exact ⟨_, rfl, h.globals.start chunkSize flags, h.written, h.discarded⟩
  | flush =>
      obtain ⟨t, ht, hrefines⟩ := h.globals.flush
      obtain ⟨hwritten, hdiscarded⟩ := layerStep_flush_ghosts layer
      refine ⟨⟨t, s.written, s.discarded⟩, ?_, hrefines, ?_, ?_⟩
      · simp only [layerCall, ht, Option.map_some]
      · rw [hwritten, h.written]
      · rw [hdiscarded, h.discarded]
  | clean =>
      obtain ⟨t, ht, hrefines, hheld⟩ := h.globals.clean
      refine ⟨⟨t, s.written, s.discarded ++ activeHeld HandlerCell.cleanable s.globals⟩, ?_,
        hrefines, ?_, ?_⟩
      · simp only [layerCall, ht, Option.map_some]
      · rw [layerStep_clean_written, h.written]
      · rw [hheld, h.discarded]
  | finish notice =>
      obtain ⟨hremove, -, hslots, t, ht, hrefines⟩ |
        ⟨slot, slots, hslots, hflag, hremove, -, t, ht, hrefines⟩ :=
        h.globals.pop hquiet false (freshBytes s.written notice)
      · refine ⟨⟨t, s.written ++ freshBytes s.written notice, s.discarded⟩, ?_, ?_⟩
        · simp only [layerCall, ht, hremove, Option.map_some, Bool.false_eq_true, if_false]
        · have hstep : layerStep layer (.finish notice) = layer.write notice := by
            unfold layerStep
            cases hs : layer.slots with
            | nil => rfl
            | cons slot slots => simp [hslots slot slots hs]
          rw [hstep]
          exact h.wrote notice hrefines
      · refine ⟨⟨t, s.written, s.discarded⟩, ?_, ?_⟩
        · simp only [layerCall, ht, hremove, Option.map_some, if_true]
        · simp only [layerStep, hslots, hflag, if_true]
          exact ⟨hrefines, h.written, h.discarded⟩
  | discard notice =>
      obtain ⟨hremove, hheld, hslots, t, ht, hrefines⟩ |
        ⟨slot, slots, hslots, hflag, hremove, hheld, t, ht, hrefines⟩ :=
        h.globals.pop hquiet true (freshBytes s.written notice)
      · refine ⟨⟨t, s.written ++ freshBytes s.written notice, s.discarded⟩, ?_, ?_⟩
        · simp only [layerCall, ht, hremove, hheld, Option.map_some, Bool.false_eq_true, if_false,
            List.append_nil]
        · have hstep : layerStep layer (.discard notice) = layer.write notice := by
            unfold layerStep
            cases hs : layer.slots with
            | nil => rfl
            | cons slot slots => simp [hslots slot slots hs]
          rw [hstep]
          exact h.wrote notice hrefines
      · refine ⟨⟨t, s.written, s.discarded ++ slot.buffer⟩, ?_, ?_⟩
        · simp only [layerCall, ht, hremove, hheld, Option.map_some, if_true]
        · simp only [layerStep, hslots, hflag, if_true]
          rw [if_pos rfl] at hrefines
          refine ⟨⟨hrefines.holds, hrefines.nodup, hrefines.fresh, hrefines.active, hrefines.toxic,
            hrefines.calls⟩, h.written, ?_⟩
          rw [h.discarded]
  | flushAll =>
      have hempty : layer.slots.isEmpty = !s.globals.active.isSome := by
        obtain ⟨hnone, hslots⟩ | ⟨id, ids, cell, slot, slots, htop⟩ := h.globals.cases
        · rw [hnone, hslots]
          rfl
        · rw [htop.active, htop.inLayer]
          rfl
      unfold layerCall phpOutputFlushAll
      simp only [layerStep, hempty]
      cases hactive : s.globals.active.isSome with
      | false => exact ⟨s, rfl, h⟩
      | true =>
          have havoids : ∀ id ∈ s.globals.stack, (DataPtr.null : DataPtr Written).Avoids id := by
            intro id _ moves heq
            cases heq
          have hread : deref s.globals.heap ⟨.null, 0, 0⟩ = some [] := rfl
          obtain ⟨t, ht, hrefines, -⟩ := h.globals.op .flush havoids hread
          simp only [if_true, ht, Option.map_some]
          exact ⟨_, rfl, hrefines, h.written, h.discarded⟩

/-- **Every run** has a result, and holds what the lists of the layer say. -/
theorem layerRun_refines (isToxic : Bool) (ops : List LayerOp) :
    ∃ t, execute layerCall (.start isToxic) ops = some t ∧
      LayerRefines isToxic t (StackLayer.start.run ops) := by
  have hrun : ∀ (ops : List LayerOp) (s : LayerState) (layer : StackLayer) (m : Measure),
      LayerRefines isToxic s layer → layer.Kept m →
      ∃ t, execute layerCall s ops = some t ∧ LayerRefines isToxic t (layer.run ops) := by
    intro ops
    induction ops with
    | nil => exact fun s layer m h _ => ⟨s, rfl, h⟩
    | cons op ops ih =>
        intro s layer m h hkept
        obtain ⟨t, ht, hrefines⟩ := layerCall_refines h hkept.quiet op
        obtain ⟨u, hu, hlast⟩ := ih t _ _ hrefines (hkept.step op)
        refine ⟨u, ?_, hlast⟩
        rw [execute, ht, Option.bind_some]
        exact hu
  refine hrun ops _ _ _ ?_ (kept_run [])
  exact ⟨⟨trivial, List.nodup_nil, by simp [LayerState.start], rfl, rfl, rfl⟩, rfl, rfl⟩

/-! ## What must hold -/

/-- The string of a call. -/
def SinkCall.str : SinkCall α → List α
  | .toxicOutput str | .ubWrite str => str

/-- What the buffers of these handlers hold, from the bottom of the stack. -/
def heldBytes (heap : OutputHeap α) : List Nat → List α
  | [] => []
  | id :: ids =>
      heldBytes heap ids ++
        match heap id with
        | none => []
        | some h => h.buffer.held

/-- What must hold between two calls: every handler of the stack is there, has
used no more than the allocated length, and all of that is initialized;
`OG(active)` is the top of the stack; the strings that were passed on and the
buffers are what was written and not discarded. -/
structure LayerSound (s : LayerState) : Prop where
  bounded : ∀ id ∈ s.globals.stack, ∃ h, s.globals.heap id = some h ∧
    h.buffer.used ≤ h.buffer.size ∧ h.buffer.size = h.buffer.mem.length ∧
    h.buffer.held.length = h.buffer.used
  active : s.globals.active = s.globals.stack.head?
  bytes : (s.globals.calls.map SinkCall.str).flatten ++ heldBytes s.globals.heap s.globals.stack
    = s.written.filter fun b => b ∉ s.discarded

/-- In every state of the run with `is_toxic` the layer is sound, and the same
strings go to `ub_write` without. -/
def LayerHolds (ops : List LayerOp) : Prop :=
  ∀ front back, ops = front ++ back → ∃ s t,
    execute layerCall (.start true) front = some s ∧
    execute layerCall (.start false) front = some t ∧ LayerSound s ∧
    ∃ strs : List (List Written), s.globals.calls = strs.map SinkCall.toxicOutput ∧
      t.globals.calls = strs.map SinkCall.ubWrite

/-- The buffers hold what the slots do. -/
theorem StackHolds.held {heap : OutputHeap α} {ids : List Nat} {slots : List (StackSlot α)}
    (h : StackHolds heap ids slots) : heldBytes heap ids = slotsPending slots := by
  induction ids generalizing slots with
  | nil =>
      cases slots with
      | nil => rfl
      | cons slot slots => exact h.elim
  | cons id ids ih =>
      cases slots with
      | nil => exact h.elim
      | cons slot slots =>
          obtain ⟨⟨cell, hcell, -, hstores⟩, hrest⟩ := h
          rw [heldBytes, ih hrest, hcell, slotsPending, ← hstores.held]

/-- Every handler of the stack uses no more than its buffer has. -/
theorem StackHolds.bounded {heap : OutputHeap α} {ids : List Nat} {slots : List (StackSlot α)}
    (h : StackHolds heap ids slots) {id : Nat} (hid : id ∈ ids) :
    ∃ cell, heap id = some cell ∧ cell.buffer.used ≤ cell.buffer.size ∧
      cell.buffer.size = cell.buffer.mem.length ∧ cell.buffer.held.length = cell.buffer.used := by
  induction ids generalizing slots with
  | nil => simp at hid
  | cons top ids ih =>
      cases slots with
      | nil => exact h.elim
      | cons slot slots =>
          obtain ⟨⟨cell, hcell, -, hstores⟩, hrest⟩ := h
          rcases List.mem_cons.mp hid with hid | hid
          · have hheld : cell.buffer.held.length = cell.buffer.used := by
              rw [hstores.held, hstores.used]
            refine ⟨cell, by rw [hid, hcell], ?_, hstores.alloc, hheld⟩
            have hroom := hstores.room
            have hused := hstores.used
            have halloc := hstores.alloc
            omega
          · exact ih hrest hid

/-- **In one state** the layer is sound exactly when no string that has come out
is longer than an `unsigned int` says. -/
theorem LayerRefines.sound_iff {s : LayerState} {layer : StackLayer} {m : Measure}
    (h : LayerRefines true s layer) (hkept : layer.Kept m) :
    LayerSound s ↔ ∀ n ∈ m.passed, n < 2 ^ 32 := by
  have hstrs : s.globals.calls.map SinkCall.str = layer.passed.map cutLength := by
    rw [h.globals.calls, List.map_map]
    rfl
  have hbytes : (s.globals.calls.map SinkCall.str).flatten
        ++ heldBytes s.globals.heap s.globals.stack
        = (s.written.filter fun b => b ∉ s.discarded) ↔
      ∀ n ∈ m.passed, n < 2 ^ 32 := by
    rw [hstrs, h.globals.holds.held, h.written, h.discarded, ← hkept.bytes,
      List.append_cancel_right_eq, flatten_cutLength_own, fits_zero, hkept.lengths]
  constructor
  · intro hsound
    exact hbytes.mp hsound.bytes
  · intro hshort
    exact ⟨fun id hid => h.globals.holds.bounded hid, h.globals.active, hbytes.mpr hshort⟩

/-- A call takes back no string. -/
theorem measureStep_passed (m : Measure) (op : LayerOp) {n : Nat} (hn : n ∈ m.passed) :
    n ∈ (measureStep m op).passed := by
  have hop : ∀ (m' : Measure) (op' : HandlerOp) (len : Nat), n ∈ m'.passed →
      n ∈ (m'.op op' len).passed := by
    intro m' op' len hmem
    unfold Measure.op
    dsimp only
    split
    · exact hmem
    · exact List.mem_append_left _ hmem
  cases op with
  | write text => exact hop m _ _ hn
  | start chunkSize flags => exact hn
  | flush =>
      unfold measureStep
      cases m.levels with
      | nil => exact hn
      | cons l ls =>
          dsimp only
          split
          · exact hop _ _ _ hn
          · exact hn
  | clean =>
      unfold measureStep
      cases m.levels with
      | nil => exact hn
      | cons l ls =>
          dsimp only
          split
          · exact hn
          · exact hn
  | finish notice =>
      unfold measureStep
      cases m.levels with
      | nil => exact hop m _ _ hn
      | cons l ls =>
          dsimp only
          split
          · exact hop _ _ _ hn
          · exact hop m _ _ hn
  | discard notice =>
      unfold measureStep
      cases m.levels with
      | nil => exact hop m _ _ hn
      | cons l ls =>
          dsimp only
          split
          · exact hn
          · exact hop m _ _ hn
  | flushAll =>
      simp only [measureStep]
      split
      · exact hn
      · exact hop m _ _ hn

/-- The strings that come out first are among all of them. -/
theorem passedLengths_front (front back : List LayerOp) {n : Nat}
    (hn : n ∈ passedLengths front) : n ∈ passedLengths (front ++ back) := by
  unfold passedLengths at hn ⊢
  rw [List.foldl_append]
  generalize front.foldl measureStep ⟨[], []⟩ = m at hn ⊢
  induction back generalizing m with
  | nil => exact hn
  | cons op back ih => exact ih _ (measureStep_passed m op hn)

/-- The run of a list of calls is sound at its end exactly when no string is too
long. -/
theorem layerRun_sound_iff (ops : List LayerOp) :
    ∃ s, execute layerCall (.start true) ops = some s ∧
      (LayerSound s ↔ ∀ n ∈ passedLengths ops, n < 2 ^ 32) := by
  obtain ⟨s, hs, hrefines⟩ := layerRun_refines true ops
  exact ⟨s, hs, hrefines.sound_iff (kept_run ops)⟩

/-- **The output layer keeps its bytes**: in every state of the run the strings
that were passed on and the buffers of the handlers are what was written and not
discarded, in buffers of the allocated length, with `OG(active)` on top, and
`ub_write` gets the same strings — if and only if no string that comes out of the
handlers has 2^32 bytes or more, which the lengths of what is written decide. -/
theorem layerSound_iff (ops : List LayerOp) :
    LayerHolds ops ↔ ∀ n ∈ passedLengths ops, n < 2 ^ 32 := by
  constructor
  · intro hall
    obtain ⟨s, t, hs, -, hsound, -⟩ := hall ops [] (List.append_nil ops).symm
    obtain ⟨s', hs', hiff⟩ := layerRun_sound_iff ops
    rw [hs] at hs'
    cases hs'
    exact hiff.mp hsound
  · intro hshort front back hsplit
    obtain ⟨s, hs, hrefines⟩ := layerRun_refines true front
    obtain ⟨t, ht, hrefines'⟩ := layerRun_refines false front
    refine ⟨s, t, hs, ht, (hrefines.sound_iff (kept_run front)).mpr ?_,
      (StackLayer.start.run front).passed.map cutLength, ?_, ?_⟩
    · intro n hn
      refine hshort n ?_
      rw [hsplit]
      exact passedLengths_front front back hn
    · rw [hrefines.globals.calls, List.map_map]
      rfl
    · rw [hrefines'.globals.calls, List.map_map]
      rfl

/-- Four gigabytes in one write without a handler: nothing is passed on. -/
theorem four_gigabytes_lost : ∃ text : Bytes, ¬ LayerHolds [.write text] := by
  refine ⟨List.replicate (2 ^ 32) 97, fun hall => ?_⟩
  obtain ⟨s, t, hs, -, hsound, -⟩ := hall _ [] (List.append_nil _).symm
  obtain ⟨s', hs', hiff⟩ := layerRun_sound_iff [.write (List.replicate (2 ^ 32) 97)]
  rw [hs] at hs'
  cases hs'
  have hlength : (2 ^ 32 : Nat) ∈ passedLengths [.write (List.replicate (2 ^ 32) 97)] := by
    generalize htext : (List.replicate (2 ^ 32) 97 : Bytes) = text
    have htextlen : text.length = 2 ^ 32 := by rw [← htext, List.length_replicate]
    simp [passedLengths, measureStep, Measure.op, stackFill, htextlen]
  exact absurd (hiff.mp hsound _ hlength) (Nat.lt_irrefl _)

end Toxic
