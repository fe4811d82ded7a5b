import ToxicNginx.OutputHandlers

/-!
# What the stack of output handlers is for

The output layer as lists of bytes: every handler keeps what it is given until it
is flushed, cleaned, ended or full.  The lengths of what is written decide how
much comes out.  A handler that `ob_start` has opened with the flag
`PHP_OUTPUT_HANDLER_DISABLED` is passed over.

* `StackSlot`, `stackOp` — a handler of the stack, and the stack from the top
  down;
* `LayerOp`, `layerStep` — the calls of the output layer, with the bytes written
  and discarded;
* `StackLayer.Kept`, `kept_run` — what is written and not discarded has come out
  or is in a handler;
* `SlotLevel`, `stackFill`, `measureStep` — the same for lengths only.
-/

namespace Toxic

variable {α : Type}

/-- A handler of the stack with the flag `PHP_OUTPUT_HANDLER_DISABLED`. -/
structure StackSlot (α : Type) extends OutputHandler α where
  disabled : Bool

/-- An operation on the handlers from the top of the stack: what becomes of them,
and what comes out of the last one. -/
def stackOp (op : HandlerOp) : List (StackSlot α) → List α → List (StackSlot α) × List α
  | [], data => ([], data)
  | slot :: slots, data =>
      if slot.disabled then (slot :: (stackOp op slots data).1, (stackOp op slots data).2)
      else
        match handlerOp op slot.toOutputHandler data with
        | (h, none) => (⟨h, false⟩ :: slots, [])
        | (h, some out) => (⟨h, false⟩ :: (stackOp op slots out).1, (stackOp op slots out).2)

/-- What the handlers hold, from the bottom of the stack. -/
def slotsPending : List (StackSlot α) → List α
  | [] => []
  | slot :: slots => slotsPending slots ++ slot.buffer

/-- The calls: `php_output_write`, `php_output_start_user` without a function,
`php_output_flush`, `php_output_clean`, `php_output_end`, `php_output_discard`
and `php_output_flush_all`.  Two of them write a notice when they fail, which is
empty when it is not displayed. -/
inductive LayerOp
  | write (text : Bytes)
  | start (chunkSize : Int) (flags : UInt32)
  | flush
  | clean
  | finish (notice : Bytes)
  | discard (notice : Bytes)
  | flushAll
  deriving DecidableEq, Repr

/-- The layer: the handlers from the top, the strings that have come out, and the
bytes written and discarded. -/
structure StackLayer where
  slots : List (StackSlot Written)
  passed : List (List Written)
  written : List Written
  discarded : List Written

/-- Data goes through the handlers. -/
def StackLayer.op (op : HandlerOp) (data : List Written) (s : StackLayer) : StackLayer :=
  let out := (stackOp op s.slots data).2
  { s with
    slots := (stackOp op s.slots data).1
    passed := if out.isEmpty then s.passed else s.passed ++ [out] }

/-- The bytes of a text that is written next. -/
def freshBytes (written : List Written) (text : Bytes) : List Written :=
  text.zipIdx written.length

/-- A text is written. -/
def StackLayer.write (text : Bytes) (s : StackLayer) : StackLayer :=
  let data := freshBytes s.written text
  { s.op .write data with written := s.written ++ data }

/-- The flags of `ob_start`. -/
def cleanableFlag (flags : UInt32) : Bool := flags &&& 0x10 != 0

/-- `PHP_OUTPUT_HANDLER_FLUSHABLE`. -/
def flushableFlag (flags : UInt32) : Bool := flags &&& 0x20 != 0

/-- `PHP_OUTPUT_HANDLER_REMOVABLE`. -/
def removableFlag (flags : UInt32) : Bool := flags &&& 0x40 != 0

/-- `PHP_OUTPUT_HANDLER_DISABLED`. -/
def disabledFlag (flags : UInt32) : Bool := flags &&& 0x2000 != 0

/-- A handler that `ob_start` opens. -/
def StackSlot.opened (chunkSize : Int) (flags : UInt32) : StackSlot α where
  size := chunkSize.toNat
  cleanable := cleanableFlag flags
  flushable := flushableFlag flags
  removable := removableFlag flags
  buffer := []
  disabled := disabledFlag flags

/-- A handler without what it held. -/
def StackSlot.emptied (slot : StackSlot α) : StackSlot α := { slot with buffer := [] }

/-- One call. -/
def layerStep (s : StackLayer) : LayerOp → StackLayer
  | .write text => s.write text
  | .start chunkSize flags => { s with slots := .opened chunkSize flags :: s.slots }
  | .flush =>
      match s.slots with
      | [] => s
      | slot :: slots =>
          if slot.flushable then
            let s := StackLayer.op .write slot.buffer { s with slots := slots }
            { s with slots := slot.emptied :: s.slots }
          else s
  | .clean =>
      match s.slots with
      | [] => s
      | slot :: slots =>
          if slot.cleanable then
            { s with slots := slot.emptied :: slots, discarded := s.discarded ++ slot.buffer }
          else s
  | .finish notice =>
      match s.slots with
      | [] => s.write notice
      | slot :: slots =>
          if slot.removable then StackLayer.op .write slot.buffer { s with slots := slots }
          else s.write notice
  | .discard notice =>
      match s.slots with
      | [] => s.write notice
      | slot :: slots =>
          if slot.removable then
            { s with slots := slots, discarded := s.discarded ++ slot.buffer }
          else s.write notice
  | .flushAll => if s.slots.isEmpty then s else s.op .flush []

/-- The layer after `php_output_activate`. -/
def StackLayer.start : StackLayer := ⟨[], [], [], []⟩

/-- A run of calls. -/
def StackLayer.run (s : StackLayer) (ops : List LayerOp) : StackLayer := ops.foldl layerStep s

/-! ## How much comes out -/

/-- A handler keeps what it is given so much: it is a write, and the chunk is not
full. -/
def Level.stays (op : HandlerOp) (l : Level) (n : Nat) : Bool :=
  op == .write && (n == 0 || !decide (l.size ≠ 0 ∧ l.size ≤ l.used + n))

/-- **One handler** keeps what it has and is given, or passes all of it on. -/
theorem handlerOp_eq (op : HandlerOp) (h : OutputHandler α) (data : List α) :
    handlerOp op h data =
      if h.level.stays op data.length then ({ h with buffer := h.buffer ++ data }, none)
      else ({ h with buffer := [] },
        if (h.buffer ++ data).isEmpty then none else some (h.buffer ++ data)) := by
  unfold handlerOp handlerAppend Level.stays OutputHandler.level
  cases data with
  | nil => cases op <;> simp
  | cons b bs =>
      by_cases hfull : h.size ≠ 0 ∧ h.size ≤ h.buffer.length + (b :: bs).length
      · cases op <;> simp_all
      · cases op <;> simp_all [List.length_cons]

/-- How full a handler of the stack is. -/
structure SlotLevel extends Level where
  disabled : Bool
  deriving DecidableEq, Repr

/-- The level of a handler of the stack. -/
def StackSlot.fullness (slot : StackSlot α) : SlotLevel :=
  ⟨slot.toOutputHandler.level, slot.disabled⟩

/-- So many bytes are put into the levels from the top: the levels, and how many
come out at the bottom. -/
def stackFill (op : HandlerOp) : List SlotLevel → Nat → List SlotLevel × Nat
  | [], n => ([], n)
  | l :: ls, n =>
      if l.disabled then (l :: (stackFill op ls n).1, (stackFill op ls n).2)
      else if l.stays op n then ({ l with used := l.used + n } :: ls, 0)
      else if l.used + n = 0 then ({ l with used := 0 } :: ls, 0)
      else ({ l with used := 0 } :: (stackFill op ls (l.used + n)).1,
        (stackFill op ls (l.used + n)).2)

/-- The levels, and the lengths of the strings that have come out. -/
structure Measure where
  levels : List SlotLevel
  passed : List Nat
  deriving DecidableEq, Repr

/-- So many bytes go through the handlers. -/
def Measure.op (op : HandlerOp) (n : Nat) (m : Measure) : Measure :=
  let out := (stackFill op m.levels n).2
  ⟨(stackFill op m.levels n).1, if out = 0 then m.passed else m.passed ++ [out]⟩

/-- How one call changes the levels. -/
def measureStep (m : Measure) : LayerOp → Measure
  | .write text => m.op .write text.length
  | .start chunkSize flags =>
      { m with levels := (StackSlot.opened chunkSize flags : StackSlot Unit).fullness :: m.levels }
  | .flush =>
      match m.levels with
      | [] => m
      | l :: ls =>
          if l.flushable then
            let m := Measure.op .write l.used { m with levels := ls }
            { m with levels := { l with used := 0 } :: m.levels }
          else m
  | .clean =>
      match m.levels with
      | [] => m
      | l :: ls => if l.cleanable then { m with levels := { l with used := 0 } :: ls } else m
  | .finish notice =>
      match m.levels with
      | [] => m.op .write notice.length
      | l :: ls =>
          if l.removable then Measure.op .write l.used { m with levels := ls }
          else m.op .write notice.length
  | .discard notice =>
      match m.levels with
      | [] => m.op .write notice.length
      | l :: ls => if l.removable then { m with levels := ls } else m.op .write notice.length
  | .flushAll => if m.levels.isEmpty then m else m.op .flush 0

/-- The lengths of the strings that come out during these calls. -/
def passedLengths (ops : List LayerOp) : List Nat := (ops.foldl measureStep ⟨[], []⟩).passed

/-- The levels say how full the handlers get, and how much comes out. -/
theorem stackOp_levels (op : HandlerOp) (slots : List (StackSlot α)) (data : List α) :
    (stackOp op slots data).1.map StackSlot.fullness
        = (stackFill op (slots.map StackSlot.fullness) data.length).1 ∧
      (stackOp op slots data).2.length
        = (stackFill op (slots.map StackSlot.fullness) data.length).2 := by
  induction slots generalizing data with
  | nil => simp [stackOp, stackFill]
  | cons slot slots ih =>
      rw [stackOp, List.map_cons, stackFill]
      have hdisabled : slot.fullness.disabled = slot.disabled := rfl
      have hstays : slot.fullness.stays op data.length
          = slot.toOutputHandler.level.stays op data.length := rfl
      have hused : slot.fullness.used + data.length = (slot.buffer ++ data).length := by
        rw [List.length_append]
        rfl
      rw [hdisabled, hstays, hused, handlerOp_eq]
      by_cases hoff : slot.disabled = true
      · rw [if_pos hoff, if_pos hoff]
        exact ⟨by rw [List.map_cons, (ih data).1], (ih data).2⟩
      · rw [if_neg hoff, if_neg hoff]
        have hon : slot.disabled = false := Bool.eq_false_iff.mpr hoff
        by_cases hkeep : slot.toOutputHandler.level.stays op data.length = true
        · rw [if_pos hkeep, if_pos hkeep]
          simp [StackSlot.fullness, OutputHandler.level, hon]
        · rw [if_neg hkeep, if_neg hkeep]
          by_cases hnone : slot.buffer ++ data = []
          · rw [hnone]
            simp [StackSlot.fullness, OutputHandler.level, hon]
          · have hlength : (slot.buffer ++ data).length ≠ 0 := by
              rwa [ne_eq, List.length_eq_zero_iff]
            rw [if_neg hlength]
            simp only [List.isEmpty_iff, hnone, if_false]
            refine ⟨?_, (ih _).2⟩
            rw [List.map_cons, (ih _).1]
            simp [StackSlot.fullness, OutputHandler.level, hon]

/-! ## Nothing is lost -/

/-- A handler that is passed over holds nothing. -/
def Quiet (slots : List (StackSlot α)) : Prop :=
  ∀ slot ∈ slots, slot.disabled = true → slot.buffer = []

/-- **The stack loses nothing**: what comes out and what is left is what was
there and the data. -/
theorem stackOp_conserves (op : HandlerOp) {slots : List (StackSlot α)} (h : Quiet slots)
    (data : List α) :
    (stackOp op slots data).2 ++ slotsPending (stackOp op slots data).1
        = slotsPending slots ++ data ∧ Quiet (stackOp op slots data).1 := by
  induction slots generalizing data with
  | nil => simp [stackOp, slotsPending, Quiet]
  | cons slot slots ih =>
      unfold Quiet at h ih ⊢
      rw [List.forall_mem_cons] at h
      obtain ⟨hslot, hslots⟩ := h
      rw [stackOp, handlerOp_eq]
      by_cases hoff : slot.disabled = true
      · obtain ⟨hbytes, hquiet⟩ := ih hslots data
        rw [if_pos hoff]
        refine ⟨?_, ?_⟩
        · simp only [slotsPending, hslot hoff, List.append_nil]
          exact hbytes
        · rw [List.forall_mem_cons]
          exact ⟨hslot, hquiet⟩
      · rw [if_neg hoff]
        by_cases hkeep : slot.toOutputHandler.level.stays op data.length = true
        · rw [if_pos hkeep]
          refine ⟨by simp [slotsPending], ?_⟩
          rw [List.forall_mem_cons]
          exact ⟨by simp, hslots⟩
        · rw [if_neg hkeep]
          by_cases hnone : slot.buffer ++ data = []
          · obtain ⟨hbuffer, rfl⟩ := List.append_eq_nil_iff.mp hnone
            simp only [hbuffer, List.append_nil, List.isEmpty_nil, if_true]
            refine ⟨by simp [slotsPending, hbuffer], ?_⟩
            rw [List.forall_mem_cons]
            exact ⟨by simp, hslots⟩
          · obtain ⟨hbytes, hquiet⟩ := ih hslots (slot.buffer ++ data)
            simp only [List.isEmpty_iff, hnone, if_false]
            refine ⟨?_, ?_⟩
            · simp only [slotsPending, List.append_nil]
              rw [hbytes, List.append_assoc]
            · rw [List.forall_mem_cons]
              exact ⟨by simp, hquiet⟩

/-- What comes out of the handlers and what is left in them is what was there and
the data. -/
theorem StackLayer.op_bytes (op : HandlerOp) {s : StackLayer} (h : Quiet s.slots)
    (data : List Written) :
    (s.op op data).passed.flatten ++ slotsPending (s.op op data).slots
        = s.passed.flatten ++ (slotsPending s.slots ++ data) ∧ Quiet (s.op op data).slots := by
  obtain ⟨hbytes, hquiet⟩ := stackOp_conserves op h data
  refine ⟨?_, hquiet⟩
  unfold StackLayer.op
  dsimp only
  split
  · next hempty =>
      rw [List.isEmpty_iff.mp hempty, List.nil_append] at hbytes
      rw [hbytes]
  · rw [← hbytes, List.flatten_append, List.flatten_singleton, List.append_assoc]

/-- The levels and lengths after an operation. -/
theorem StackLayer.op_measure (op : HandlerOp) {s : StackLayer} {m : Measure}
    (hlevels : m.levels = s.slots.map StackSlot.fullness)
    (hlengths : m.passed = s.passed.map List.length) (data : List Written) :
    (m.op op data.length).levels = (s.op op data).slots.map StackSlot.fullness ∧
      (m.op op data.length).passed = (s.op op data).passed.map List.length := by
  obtain ⟨hfull, hout⟩ := stackOp_levels op s.slots data
  rw [← hlevels] at hfull hout
  refine ⟨hfull.symm, ?_⟩
  unfold StackLayer.op Measure.op
  dsimp only
  rw [← hout]
  by_cases hempty : (stackOp op s.slots data).2 = []
  · simp [hempty, hlengths]
  · have hne : (stackOp op s.slots data).2.length ≠ 0 := by rwa [ne_eq, List.length_eq_zero_iff]
    rw [if_neg hne, hlengths]
    simp [hempty]

/-- What is written and not discarded has come out or is in a handler, and the
levels say how full the handlers are. -/
structure StackLayer.Kept (s : StackLayer) (m : Measure) : Prop where
  bytes : s.passed.flatten ++ slotsPending s.slots = s.written.filter fun b => b ∉ s.discarded
  quiet : Quiet s.slots
  levels : m.levels = s.slots.map StackSlot.fullness
  lengths : m.passed = s.passed.map List.length
  numbered : s.written.map Prod.snd = List.range s.written.length
  discarded : ∀ b ∈ s.discarded, b ∈ s.written

/-- The numbers of a text that is written next are new. -/
theorem StackLayer.Kept.fresh {s : StackLayer} {m : Measure} (h : s.Kept m) {text : Bytes}
    {b : Written} (hb : b ∈ freshBytes s.written text) : b ∉ s.discarded := by
  intro hmem
  have hlt : b.2 ∈ s.written.map Prod.snd := List.mem_map_of_mem (h.discarded b hmem)
  rw [h.numbered, List.mem_range] at hlt
  obtain ⟨v, n⟩ := b
  have hge := List.le_snd_of_mem_zipIdx hb
  dsimp only at hlt
  omega

/-- **A text** is written. -/
theorem StackLayer.Kept.write {s : StackLayer} {m : Measure} (h : s.Kept m) (text : Bytes) :
    (s.write text).Kept (m.op .write text.length) := by
  have hlength : (freshBytes s.written text).length = text.length := List.length_zipIdx
  obtain ⟨hbytes, hquiet⟩ := StackLayer.op_bytes .write h.quiet (freshBytes s.written text)
  obtain ⟨hlevels, hlengths⟩ := StackLayer.op_measure .write h.levels h.lengths
    (freshBytes s.written text)
  rw [hlength] at hlevels hlengths
  have hfresh : (freshBytes s.written text).filter (fun b => b ∉ s.discarded)
      = freshBytes s.written text := by
    apply List.filter_eq_self.mpr
    intro b hb
    simpa using h.fresh hb
  refine ⟨?_, hquiet, hlevels, hlengths, ?_, ?_⟩
  · calc (s.op .write (freshBytes s.written text)).passed.flatten
          ++ slotsPending (s.op .write (freshBytes s.written text)).slots
        = s.passed.flatten ++ slotsPending s.slots ++ freshBytes s.written text := by
          rw [hbytes, List.append_assoc]
      _ = (s.written ++ freshBytes s.written text).filter fun b => b ∉ s.discarded := by
          rw [h.bytes, List.filter_append, hfresh]
  · simp only [StackLayer.write, List.map_append, List.length_append, h.numbered, hlength,
      List.range_add]
    congr 1
    simp [freshBytes, List.range'_eq_map_range]
  · intro b hb
    exact List.mem_append_left _ (h.discarded b hb)

/-- What the top handler holds comes last of what is kept. -/
theorem StackLayer.Kept.top {s : StackLayer} {m : Measure} (h : s.Kept m)
    {slot : StackSlot Written} {slots : List (StackSlot Written)} (hs : s.slots = slot :: slots) :
    (s.written.filter fun b => b ∉ s.discarded)
        = s.passed.flatten ++ slotsPending slots ++ slot.buffer ∧
      Quiet slots ∧ (slot.disabled = true → slot.buffer = []) ∧
      m.levels = slot.fullness :: slots.map StackSlot.fullness := by
  have hquiet := h.quiet
  unfold Quiet at hquiet
  rw [hs, List.forall_mem_cons] at hquiet
  refine ⟨?_, hquiet.2, hquiet.1, ?_⟩
  · rw [← h.bytes, hs, slotsPending, List.append_assoc]
  · rw [h.levels, hs, List.map_cons]

/-- The data of the top handler is written into the handlers below it. -/
theorem StackLayer.Kept.passOn {s : StackLayer} {m : Measure} (h : s.Kept m)
    {slot : StackSlot Written} {slots : List (StackSlot Written)} (hs : s.slots = slot :: slots) :
    (StackLayer.op .write slot.buffer { s with slots := slots }).Kept
      (Measure.op .write slot.buffer.length { m with levels := slots.map StackSlot.fullness }) := by
  obtain ⟨htop, hquiet, -, -⟩ := h.top hs
  obtain ⟨hbytes, hquiet'⟩ := StackLayer.op_bytes .write (s := { s with slots := slots }) hquiet
    slot.buffer
  obtain ⟨hlevels, hlengths⟩ := StackLayer.op_measure .write (s := { s with slots := slots })
    (m := { m with levels := slots.map StackSlot.fullness }) rfl h.lengths slot.buffer
  refine ⟨?_, hquiet', hlevels, hlengths, h.numbered, h.discarded⟩
  rw [hbytes, ← List.append_assoc]
  exact htop.symm

/-- What the top handler holds is discarded. -/
theorem StackLayer.Kept.drop {s : StackLayer} {m : Measure} (h : s.Kept m)
    {slot : StackSlot Written} {slots : List (StackSlot Written)}
    (hs : s.slots = slot :: slots) {rest : List (StackSlot Written)} (hquiet : Quiet rest)
    (hpending : slotsPending rest = slotsPending slots) :
    StackLayer.Kept { s with slots := rest, discarded := s.discarded ++ slot.buffer }
      { m with levels := rest.map StackSlot.fullness } := by
  obtain ⟨htop, -, -, -⟩ := h.top hs
  have hnodup : s.written.Nodup := by
    have := List.nodup_range (n := s.written.length)
    rw [← h.numbered] at this
    exact List.Nodup.of_map _ this
  refine ⟨?_, hquiet, rfl, h.lengths, h.numbered, ?_⟩
  · dsimp only
    rw [filter_discard hnodup htop, hpending]
  · intro b hb
    rcases List.mem_append.mp hb with hb | hb
    · exact h.discarded b hb
    · have hmem : b ∈ s.written.filter fun b => b ∉ s.discarded := by
        rw [htop]
        exact List.mem_append_right _ hb
      exact List.mem_of_mem_filter hmem

/-- **One call** keeps what is written and not discarded. -/
theorem StackLayer.Kept.step {s : StackLayer} {m : Measure} (h : s.Kept m) (op : LayerOp) :
    (layerStep s op).Kept (measureStep m op) := by
  cases op with
  | write text => exact h.write text
  | start chunkSize flags =>
      refine ⟨?_, ?_, ?_, h.lengths, h.numbered, h.discarded⟩
      · simp only [layerStep, slotsPending, StackSlot.opened, List.append_nil]
        exact h.bytes
      · unfold Quiet layerStep
        rw [List.forall_mem_cons]
        exact ⟨fun _ => rfl, h.quiet⟩
      · simp only [measureStep, layerStep, List.map_cons, h.levels]
        rfl
  | flush =>
      unfold layerStep measureStep
      cases hs : s.slots with
      | nil =>
          rw [h.levels, hs]
          exact h
      | cons slot slots =>
          obtain ⟨htop, hquiet, hoff, hlevels⟩ := h.top hs
          have hpassed := h.passOn hs
          rw [hlevels]
          dsimp only
          have hflag : slot.fullness.flushable = slot.flushable := rfl
          have hused : slot.fullness.used = slot.buffer.length := rfl
          rw [hflag, hused]
          split
          · refine ⟨?_, ?_, ?_, hpassed.lengths, hpassed.numbered, hpassed.discarded⟩
            · simp only [slotsPending, StackSlot.emptied, List.append_nil]
              exact hpassed.bytes
            · unfold Quiet
              rw [List.forall_mem_cons]
              exact ⟨fun _ => rfl, hpassed.quiet⟩
            · rw [List.map_cons, hpassed.levels]
              rfl
          · exact h
  | clean =>
      unfold layerStep measureStep
      cases hs : s.slots with
      | nil =>
          rw [h.levels, hs]
          exact h
      | cons slot slots =>
          obtain ⟨htop, hquiet, hoff, hlevels⟩ := h.top hs
          rw [hlevels]
          dsimp only
          have hflag : slot.fullness.cleanable = slot.cleanable := rfl
          rw [hflag]
          split
          · refine StackLayer.Kept.drop h hs ?_ ?_
            · unfold Quiet
              rw [List.forall_mem_cons]
              exact ⟨fun _ => rfl, hquiet⟩
            · simp [slotsPending, StackSlot.emptied]
          · exact h
  | finish notice =>
      unfold layerStep measureStep
      cases hs : s.slots with
      | nil =>
          rw [h.levels, hs]
          exact h.write notice
      | cons slot slots =>
          obtain ⟨htop, hquiet, hoff, hlevels⟩ := h.top hs
          have hpassed := h.passOn hs
          rw [hlevels]
          dsimp only
          have hflag : slot.fullness.removable = slot.removable := rfl
          have hused : slot.fullness.used = slot.buffer.length := rfl
          rw [hflag, hused]
          split
          · exact hpassed
          · exact h.write notice
  | discard notice =>
      unfold layerStep measureStep
      cases hs : s.slots with
      | nil =>
          rw [h.levels, hs]
          exact h.write notice
      | cons slot slots =>
          obtain ⟨htop, hquiet, hoff, hlevels⟩ := h.top hs
          rw [hlevels]
          dsimp only
          have hflag : slot.fullness.removable = slot.removable := rfl
          rw [hflag]
          split
          · exact h.drop hs hquiet rfl
          · exact h.write notice
  | flushAll =>
      have hempty : m.levels.isEmpty = s.slots.isEmpty := by
        rw [h.levels]
        cases s.slots with
        | nil => rfl
        | cons slot slots => rfl
      simp only [layerStep, measureStep, hempty]
      cases hs : s.slots.isEmpty with
      | true => exact h
      | false =>
        obtain ⟨hbytes, hquiet⟩ := StackLayer.op_bytes .flush h.quiet []
        obtain ⟨hlevels, hlengths⟩ := StackLayer.op_measure .flush h.levels h.lengths []
        rw [List.append_nil] at hbytes
        have hall := hbytes.trans h.bytes
        exact ⟨hall, hquiet, hlevels, hlengths, h.numbered, h.discarded⟩

/-- **Every run** keeps what is written and not discarded. -/
theorem kept_run (ops : List LayerOp) :
    (StackLayer.start.run ops).Kept (ops.foldl measureStep ⟨[], []⟩) := by
  have hrun : ∀ {s : StackLayer} {m : Measure}, s.Kept m →
      (s.run ops).Kept (ops.foldl measureStep m) := by
    induction ops with
    | nil => exact fun h => h
    | cons op ops ih => exact fun h => ih (h.step op)
  refine hrun ⟨rfl, ?_, rfl, rfl, rfl, ?_⟩
  · simp [Quiet, StackLayer.start]
  · simp [StackLayer.start]

end Toxic
