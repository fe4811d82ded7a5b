import ToxicNginx.OutputChain
import ToxicNginx.StepSystem

/-!
# The shared-memory transfer of `ngx_http_toxic_moduleFork.c`

The child runs the script and puts its output into a segment of
`ForkTransferSize` bytes; a length and a flag tell the parent when to take it.
The segment of the length is got with the key of the flag, so that
`transferLen` and `transferNext` point to one cell.

* `Transfer`, `transferStep` — the two processes, one load or store of a shared
  cell at a time;
* `HandshakeSafe` — the parent gets what the child wrote, and leaves its loop
  with the end of it;
* `TransferOk` — the strings and the order of steps for which this works;
* `ChildPhase`, `Receiving` — the invariant, by where the child and the parent
  are; `transferChild_inv`, `transferParent_inv`;
* `handshakeSafe_of_guarded` — the property in every run of such steps;
* `never_left` — a parent that misses the end marker stays in its loop.
-/

namespace Toxic

open StepSystem

/-- Where the child is: before the store of 0, between two calls of
`callback_output`, in its loop, at the two stores and the wait of the full
buffer, and at those behind the loop, before the end marker, behind it, or at an
end that the script has made. -/
inductive TransferPc
  | attach
  | call
  | copy
  | fullLen
  | fullNext
  | fullWait
  | tailLen
  | tailNext
  | tailWait
  | finish
  | exited
  | died
  deriving DecidableEq, Repr

/-- Where the parent is: at the test of the outer or the inner loop, at the load
of the length, in the loop of `parent_callback` with what it has copied, at the
store of 0, behind the outer loop, or behind an access outside of the segment. -/
inductive ReceivePc
  | outer
  | inner
  | load
  | copying (len : Nat) (got : Bytes)
  | zero
  | left
  | faulted
  deriving DecidableEq, Repr

/-- The child: the strings that `Start` has still to emit, what is left of the
one in `callback_output`, and `index`. -/
structure TransferChild where
  pc : TransferPc
  outputs : List Bytes
  rest : Bytes
  index : Nat
  deriving DecidableEq, Repr

/-- The segment of key 1569, the cell of the segment of key 1589, the two
processes, the chunks that `parent_callback` got, and all that `Start` emits.
`early` says that `Start` does not return: `exit`, a fatal error and an uncaught
exception end the child where they are. -/
structure Transfer where
  data : Bytes
  cell : Int
  child : TransferChild
  parent : ReceivePc
  received : List Bytes
  output : Bytes
  early : Bool
  deriving DecidableEq, Repr

/-- Which of the two processes takes a step. -/
inductive TransferSide
  | child
  | parent
  deriving DecidableEq, Repr

/-- `ForkTransferSize`. -/
def forkTransferSize : Nat := 1024

/-- `*transferNext`, in the segment of key 1589. -/
def Transfer.transferNext (s : Transfer) : Int := s.cell

/-- `*transferLen`, in the segment of key 1589 as well. -/
def Transfer.transferLen (s : Transfer) : Int := s.cell

/-- A store to `*transferNext`. -/
def Transfer.storeNext (v : Int) (s : Transfer) : Transfer := { s with cell := v }

/-- A store to `*transferLen`. -/
def Transfer.storeLen (v : Int) (s : Transfer) : Transfer := { s with cell := v }

/-- The child goes on at `pc`. -/
def Transfer.childTo (pc : TransferPc) (s : Transfer) : Transfer :=
  { s with child := { s.child with pc := pc } }

/-- The parent goes on at `pc`. -/
def Transfer.parentTo (pc : ReceivePc) (s : Transfer) : Transfer := { s with parent := pc }

/-- A call of `callback_output`, whose length is used as an `int`. -/
def Transfer.startOutput (str : Bytes) (more : List Bytes) (s : Transfer) : Transfer :=
  { s with child := ⟨.copy, more, str.take (Int.bmod str.length 4294967296).toNat, 0⟩ }

/-- One step of the child. -/
def transferChild (s : Transfer) : Option Transfer :=
  match s.child.pc with
  | .attach => some ((s.storeNext 0).childTo .call)
  | .call =>
      match s.child.outputs with
      | [] => some (s.childTo (if s.early then .died else .finish))
      | str :: more => some (s.startOutput str more)
  | .copy =>
      match s.child.rest with
      | [] => some (s.childTo (if 0 < s.child.index then .tailLen else .call))
      | ch :: rest =>
          if forkTransferSize ≤ s.child.index then some (s.childTo .fullLen)
          else
            some { s with
              data := s.data.set s.child.index ch
              child := { s.child with index := s.child.index + 1, rest := rest } }
  | .fullLen => some ((s.storeLen forkTransferSize).childTo .fullNext)
  | .fullNext => some ((s.storeNext 1).childTo .fullWait)
  | .fullWait =>
      if s.transferNext = 1 then some s
      else
        -- the byte for which there was no room is passed over
        some { s with child := ⟨.copy, s.child.outputs, s.child.rest.tail, 0⟩ }
  | .tailLen => some ((s.storeLen s.child.index).childTo .tailNext)
  | .tailNext => some ((s.storeNext 1).childTo .tailWait)
  | .tailWait => if s.transferNext = 1 then some s else some (s.childTo .call)
  | .finish => some ((s.storeNext (-1)).childTo .exited)
  | .exited => none
  | .died => none

/-- One step of the parent. -/
def transferParent (s : Transfer) : Option Transfer :=
  match s.parent with
  | .outer => some (s.parentTo (if s.transferNext = -1 then .left else .inner))
  | .inner => some (s.parentTo (if s.transferNext = 0 then .inner else .load))
  | .load =>
      let len := (s.transferLen % 4294967296).toNat
      some (s.parentTo (if len = 0 then .zero else .copying len []))
  | .copying len got =>
      if got.length = len then some { s with parent := .zero, received := s.received ++ [got] }
      else
        match s.data[got.length]? with
        | some ch => some (s.parentTo (.copying len (got ++ [ch])))
        | none => some (s.parentTo .faulted)
  | .zero => some ((s.storeNext 0).parentTo .outer)
  | .left => none
  | .faulted => none

/-- One step of the system. -/
def transferStep (s : Transfer) : TransferSide → Option Transfer
  | .child => transferChild s
  | .parent => transferParent s

/-- Behind the `fork`, with what the segments hold and what `Start` will do. -/
def Transfer.start (memory : Nat → UInt8) (cell : Int) (outputs : List Bytes) (early : Bool) :
    Transfer where
  data := (List.range forkTransferSize).map memory
  cell := cell
  child := ⟨.attach, outputs, [], 0⟩
  parent := .outer
  received := []
  output := outputs.flatten
  early := early

/-- The child is no more. -/
def TransferPc.over (pc : TransferPc) : Prop := pc = .exited ∨ pc = .died

/-- The chunks that the parent got are the first bytes the child wrote; the
parent leaves its loop behind the end marker and with all of them; when the
child is no more it has left or is about to; and it has read no other memory. -/
structure HandshakeSafe (s : Transfer) : Prop where
  ordered : s.received.flatten <+: s.output
  complete : s.parent = .left → s.child.pc = .exited ∧ s.received.flatten = s.output
  leaves : s.child.pc.over → s.parent = .left ∨ (s.parent = .outer ∧ s.transferNext = -1)
  inside : s.parent ≠ .faulted

/-- The steps for which the transfer works.  No string is longer than the
segment, and `Start` returns behind the last one.  Before the child has stored 0 the parent does not act on what was in
the cell.  The parent loads the length while the cell holds it, which is between
the two stores of the child, or at any time for a single byte; it stores 0 when
the child waits for it; and the end marker finds it at the test of the outer
loop. -/
def TransferOk (s : Transfer) : TransferSide → Prop
  | .child =>
      match s.child.pc with
      | .call =>
          (∀ str ∈ s.child.outputs.head?, str.length ≤ forkTransferSize) ∧
            (s.child.outputs = [] → s.early = false)
      | .finish => s.parent = .outer
      | _ => True
  | .parent =>
      match s.parent with
      | .outer => s.child.pc = .attach → s.transferNext ≠ -1
      | .inner => s.child.pc = .attach → s.transferNext = 0
      | .load => (s.child.pc = .tailNext ∨ s.child.pc = .tailWait) ∧ s.transferLen = s.child.index
      | .zero => s.child.pc = .tailWait
      | _ => True

instance (s : Transfer) (side : TransferSide) : Decidable (TransferOk s side) := by
  unfold TransferOk
  split <;> split <;> infer_instance

/-- The parent waits in one of its loops. -/
def Transfer.Polling (s : Transfer) : Prop := s.parent = .outer ∨ s.parent = .inner

/-- Where the chunk in the segment is, by where the parent is. -/
def Receiving (s : Transfer) : Prop :=
  match s.parent with
  | .outer | .inner | .load =>
      s.output = s.received.flatten ++ (s.data.take s.child.index ++ s.child.outputs.flatten)
  | .copying len got =>
      len = s.child.index ∧ got = s.data.take got.length ∧ got.length ≤ s.child.index ∧
        s.output = s.received.flatten ++ (s.data.take s.child.index ++ s.child.outputs.flatten)
  | .zero => s.output = s.received.flatten ++ s.child.outputs.flatten
  | .left | .faulted => False

/-- What holds, by where the child is. -/
def ChildPhase (s : Transfer) : Prop :=
  match s.child.pc with
  | .attach => s.Polling ∧ s.received = [] ∧ s.output = s.child.outputs.flatten
  | .call => s.Polling ∧ s.cell = 0 ∧ s.output = s.received.flatten ++ s.child.outputs.flatten
  | .copy =>
      s.Polling ∧ s.cell = 0 ∧ s.child.index + s.child.rest.length ≤ forkTransferSize ∧
        s.output = s.received.flatten ++
          (s.data.take s.child.index ++ (s.child.rest ++ s.child.outputs.flatten))
  | .tailLen =>
      s.Polling ∧ s.cell = 0 ∧ 0 < s.child.index ∧ s.child.index ≤ forkTransferSize ∧
        s.output = s.received.flatten ++ (s.data.take s.child.index ++ s.child.outputs.flatten)
  | .tailNext =>
      s.cell = s.child.index ∧ 0 < s.child.index ∧ s.child.index ≤ forkTransferSize ∧ Receiving s
  | .tailWait =>
      (s.cell = 1 ∧ 0 < s.child.index ∧ s.child.index ≤ forkTransferSize ∧ Receiving s) ∨
        (s.cell = 0 ∧ s.Polling ∧ s.output = s.received.flatten ++ s.child.outputs.flatten)
  | .finish => s.Polling ∧ s.cell = 0 ∧ s.output = s.received.flatten
  | .exited => (s.parent = .outer ∨ s.parent = .left) ∧ s.cell = -1 ∧ s.output = s.received.flatten
  | .fullLen | .fullNext | .fullWait | .died => False

/-- The invariant of the transfer. -/
structure TransferInv (s : Transfer) : Prop where
  size : s.data.length = forkTransferSize
  phase : ChildPhase s

/-- The invariant holds behind the `fork`. -/
theorem transferInv_start (memory : Nat → UInt8) (cell : Int) (outputs : List Bytes)
    (early : Bool) : TransferInv (.start memory cell outputs early) :=
  ⟨by simp [Transfer.start], Or.inl rfl, rfl, rfl⟩

/-- A short string is used in full. -/
theorem startOutput_rest {str : Bytes} (h : str.length ≤ forkTransferSize) (more : List Bytes)
    (s : Transfer) :
    s.startOutput str more = { s with child := ⟨.copy, more, str, 0⟩ } := by
  have hshort : str.length ≤ 1024 := h
  have hlen : Int.bmod str.length 4294967296 = str.length :=
    Int.bmod_eq_of_le (by omega) (by omega)
  rw [Transfer.startOutput, hlen, Int.toNat_natCast, List.take_length]

/-- A byte that is stored at `index` is one byte more of the chunk. -/
theorem take_set_succ {data : Bytes} {index : Nat} (h : index < data.length) (ch : UInt8) :
    (data.set index ch).take (index + 1) = data.take index ++ [ch] := by
  rw [List.take_succ_eq_append_getElem (by simpa using h), List.getElem_set_self,
    List.take_set_of_le (Nat.le_refl _)]

/-- **Step lemma.**  A step of the child that the guard allows keeps the
invariant. -/
theorem transferChild_inv {s t : Transfer} (hs : TransferInv s) (hok : TransferOk s .child)
    (h : transferChild s = some t) : TransferInv t := by
  obtain ⟨hsize, hphase⟩ := hs
  unfold transferChild at h
  cases hpc : s.child.pc <;> simp only [ChildPhase, TransferOk, hpc] at h hphase hok
  case attach =>
    obtain rfl := Option.some.inj h
    obtain ⟨hpolling, hnone, houtput⟩ := hphase
    refine ⟨hsize, hpolling, rfl, ?_⟩
    change s.output = s.received.flatten ++ s.child.outputs.flatten
    rw [houtput, hnone, List.flatten_nil, List.nil_append]
  case call =>
    obtain ⟨hpolling, hcell, houtput⟩ := hphase
    split at h
    case h_1 hend =>
      rw [hok.2 hend, if_neg Bool.false_ne_true] at h
      obtain rfl := Option.some.inj h
      refine ⟨hsize, hpolling, hcell, ?_⟩
      change s.output = s.received.flatten
      rw [houtput, hend, List.flatten_nil, List.append_nil]
    case h_2 str more hstr =>
      obtain rfl := Option.some.inj h
      have hshort := hok.1 str (by rw [hstr]; rfl)
      rw [startOutput_rest hshort]
      refine ⟨hsize, hpolling, hcell, ?_, ?_⟩
      · simpa using hshort
      · change s.output = s.received.flatten ++ (s.data.take 0 ++ (str ++ more.flatten))
        rw [houtput, hstr, List.flatten_cons, List.take_zero, List.nil_append]
  case copy =>
    obtain ⟨hpolling, hcell, hfits, houtput⟩ := hphase
    split at h
    case h_1 hrest =>
      obtain rfl := Option.some.inj h
      rw [hrest, List.nil_append] at houtput
      rw [hrest, List.length_nil, Nat.add_zero] at hfits
      by_cases hindex : 0 < s.child.index
      · rw [if_pos hindex]
        exact ⟨hsize, hpolling, hcell, hindex, hfits, houtput⟩
      · rw [if_neg hindex]
        rw [Nat.eq_zero_of_not_pos hindex, List.take_zero, List.nil_append] at houtput
        exact ⟨hsize, hpolling, hcell, houtput⟩
    case h_2 ch rest hrest =>
      rw [hrest, List.length_cons] at hfits
      rw [if_neg (by omega)] at h
      obtain rfl := Option.some.inj h
      refine ⟨by simpa using hsize, hpolling, hcell, ?_, ?_⟩
      · change s.child.index + 1 + rest.length ≤ forkTransferSize
        omega
      · change s.output = s.received.flatten ++ ((s.data.set s.child.index ch).take
          (s.child.index + 1) ++ (rest ++ s.child.outputs.flatten))
        rw [take_set_succ (by omega), houtput, hrest]
        simp
  case tailLen =>
    obtain rfl := Option.some.inj h
    obtain ⟨hpolling, hcell, hpos, hfits, houtput⟩ := hphase
    refine ⟨hsize, rfl, hpos, hfits, ?_⟩
    rcases hpolling with hparent | hparent
    · simpa only [Receiving, Transfer.childTo, Transfer.storeLen, hparent] using houtput
    · simpa only [Receiving, Transfer.childTo, Transfer.storeLen, hparent] using houtput
  case tailNext =>
    obtain rfl := Option.some.inj h
    obtain ⟨-, hpos, hfits, hreceiving⟩ := hphase
    exact ⟨hsize, Or.inl ⟨rfl, hpos, hfits, hreceiving⟩⟩
  case tailWait =>
    rcases hphase with ⟨hcell, hpos, hfits, hreceiving⟩ | ⟨hcell, hpolling, houtput⟩
    · rw [Transfer.transferNext, hcell, if_pos rfl] at h
      obtain rfl := Option.some.inj h
      refine ⟨hsize, ?_⟩
      simp only [ChildPhase, hpc]
      exact Or.inl ⟨hcell, hpos, hfits, hreceiving⟩
    · rw [if_neg (by rw [Transfer.transferNext, hcell]; decide)] at h
      obtain rfl := Option.some.inj h
      exact ⟨hsize, hpolling, hcell, houtput⟩
  case finish =>
    obtain rfl := Option.some.inj h
    exact ⟨hsize, Or.inl hok, rfl, hphase.2.2⟩
  case exited => cases h

/-- A chunk is in the segment and the child waits, or is about to, for the parent
to take it. -/
structure Published (s : Transfer) : Prop where
  pc : (s.child.pc = .tailNext ∧ s.cell = s.child.index) ∨ (s.child.pc = .tailWait ∧ s.cell = 1)
  pos : 0 < s.child.index
  fits : s.child.index ≤ forkTransferSize
  receiving : Receiving s

/-- A chunk in the segment is all that the invariant asks for. -/
theorem Published.phase {s : Transfer} (h : Published s) : ChildPhase s := by
  rcases h.pc with ⟨hpc, hcell⟩ | ⟨hpc, hcell⟩
  · simp only [ChildPhase, hpc]
    exact ⟨hcell, h.pos, h.fits, h.receiving⟩
  · simp only [ChildPhase, hpc]
    exact Or.inl ⟨hcell, h.pos, h.fits, h.receiving⟩

/-- **What the invariant says of the parent.**  It has a chunk to take, or waits
for one, or the child has ended. -/
theorem ChildPhase.split {s : Transfer} (h : ChildPhase s) :
    Published s ∨
      (s.Polling ∧ ¬ s.child.pc.over ∧ (s.child.pc = .attach ∨ s.cell = 0) ∧
        s.received.flatten <+: s.output) ∨
      (s.child.pc = .exited ∧ s.cell = -1 ∧ (s.parent = .outer ∨ s.parent = .left) ∧
        s.output = s.received.flatten) := by
  cases hpc : s.child.pc <;> simp only [ChildPhase, hpc] at h
  case attach =>
    obtain ⟨hpolling, hnone, -⟩ := h
    refine Or.inr (Or.inl ⟨hpolling, by simp [TransferPc.over], Or.inl rfl, ?_⟩)
    rw [hnone]
    exact List.nil_prefix
  case call | copy | tailLen =>
    obtain ⟨hpolling, hcell, hrest⟩ := h
    refine Or.inr (Or.inl ⟨hpolling, by simp [TransferPc.over], Or.inr hcell, ?_⟩)
    simp only [hrest, List.prefix_append]
  case tailNext =>
    obtain ⟨hcell, hpos, hfits, hreceiving⟩ := h
    exact Or.inl ⟨Or.inl ⟨hpc, hcell⟩, hpos, hfits, hreceiving⟩
  case tailWait =>
    rcases h with ⟨hcell, hpos, hfits, hreceiving⟩ | ⟨hcell, hpolling, houtput⟩
    · exact Or.inl ⟨Or.inr ⟨hpc, hcell⟩, hpos, hfits, hreceiving⟩
    · exact Or.inr (Or.inl ⟨hpolling, by simp [TransferPc.over], Or.inr hcell, _, houtput.symm⟩)
  case finish =>
    obtain ⟨hpolling, hcell, houtput⟩ := h
    exact Or.inr (Or.inl ⟨hpolling, by simp [TransferPc.over], Or.inr hcell, [],
      by rw [houtput, List.append_nil]⟩)
  case exited =>
    obtain ⟨hparent, hcell, houtput⟩ := h
    exact Or.inr (Or.inr ⟨rfl, hcell, hparent, houtput⟩)

/-- A parent that is on its way with a chunk has found one. -/
theorem published_of_busy {s : Transfer} (h : ChildPhase s) (hbusy : ¬ s.Polling)
    (hleft : s.parent ≠ .left) : Published s := by
  rcases h.split with hpub | ⟨hpolling, -⟩ | ⟨-, -, houter | hgone, -⟩
  · exact hpub
  · exact absurd hpolling hbusy
  · exact absurd (Or.inl houter) hbusy
  · exact absurd hgone hleft

/-- A parent that waits and finds something in the cell has found a chunk, or the
child has not begun or has ended. -/
theorem published_of_polling {s : Transfer} (h : ChildPhase s) (hcell : s.cell ≠ 0) :
    Published s ∨ s.child.pc = .attach ∨ (s.child.pc = .exited ∧ s.cell = -1) := by
  rcases h.split with hpub | ⟨-, -, hattach | hzero, -⟩ | ⟨hexited, hend, -⟩
  · exact Or.inl hpub
  · exact Or.inr (Or.inl hattach)
  · exact absurd hzero hcell
  · exact Or.inr (Or.inr ⟨hexited, hend⟩)

/-- A parent that waits may go on waiting in the inner loop. -/
theorem ChildPhase.toInner {s : Transfer} (h : ChildPhase s) (hpolling : s.Polling)
    (hrunning : s.child.pc ≠ .exited) : ChildPhase (s.parentTo .inner) := by
  have hinner : (s.parentTo .inner).Polling := Or.inr rfl
  have hreceiving (hr : Receiving s) : Receiving (s.parentTo .inner) := by
    rcases hpolling with hparent | hparent
    · simpa only [Receiving, Transfer.parentTo, hparent] using hr
    · simpa only [Receiving, Transfer.parentTo, hparent] using hr
  have hchild : (s.parentTo .inner).child = s.child := rfl
  cases hpc : s.child.pc <;> simp only [ChildPhase, hchild, hpc] at h ⊢
  case attach => exact ⟨hinner, h.2⟩
  case tailNext => exact ⟨h.1, h.2.1, h.2.2.1, hreceiving h.2.2.2⟩
  case tailWait =>
    rcases h with ⟨hcell, hpos, hfits, hr⟩ | ⟨hcell, -, houtput⟩
    · exact Or.inl ⟨hcell, hpos, hfits, hreceiving hr⟩
    · exact Or.inr ⟨hcell, hinner, houtput⟩
  case exited => exact absurd hpc hrunning
  all_goals exact ⟨hinner, h.2⟩

/-- **Step lemma.**  A step of the parent that the guard allows keeps the
invariant. -/
theorem transferParent_inv {s t : Transfer} (hs : TransferInv s) (hok : TransferOk s .parent)
    (h : transferParent s = some t) : TransferInv t := by
  obtain ⟨hsize, hphase⟩ := hs
  unfold transferParent at h
  cases hparent : s.parent <;> simp only [TransferOk, hparent] at h hok
  case outer =>
    obtain rfl := Option.some.inj h
    refine ⟨hsize, ?_⟩
    by_cases hend : s.transferNext = -1
    · rw [if_pos hend]
      have hcell : s.cell = -1 := hend
      rcases published_of_polling hphase (by rw [hcell]; decide) with hpub | hattach | ⟨hpc, -⟩
      · rcases hpub.pc with ⟨-, hindex⟩ | ⟨-, hone⟩ <;> omega
      · exact absurd hend (hok hattach)
      · simp only [ChildPhase, hpc] at hphase
        simp only [ChildPhase, Transfer.parentTo, hpc]
        exact ⟨Or.inr trivial, hphase.2⟩
    · rw [if_neg hend]
      refine hphase.toInner (Or.inl hparent) fun hpc => hend ?_
      simp only [ChildPhase, hpc] at hphase
      exact hphase.2.1
  case inner =>
    obtain rfl := Option.some.inj h
    refine ⟨hsize, ?_⟩
    have hrunning : s.child.pc ≠ .exited := by
      intro hpc
      simp only [ChildPhase, hpc, hparent] at hphase
      simp at hphase
    by_cases hzero : s.transferNext = 0
    · rw [if_pos hzero]
      exact hphase.toInner (Or.inr hparent) hrunning
    · rw [if_neg hzero]
      rcases published_of_polling hphase hzero with hpub | hattach | ⟨hpc, -⟩
      · refine Published.phase ⟨hpub.pc, hpub.pos, hpub.fits, ?_⟩
        simpa only [Receiving, Transfer.parentTo, hparent] using hpub.receiving
      · exact absurd (hok hattach) hzero
      · exact absurd hpc hrunning
  case load =>
    obtain rfl := Option.some.inj h
    obtain ⟨-, hlen⟩ := hok
    have hpub := published_of_busy hphase (by simp [Transfer.Polling, hparent]) (by simp [hparent])
    have hpos := hpub.pos
    have hfits : s.child.index ≤ 1024 := hpub.fits
    have hindex : (s.transferLen % 4294967296).toNat = s.child.index := by
      rw [hlen]
      omega
    refine ⟨hsize, ?_⟩
    rw [hindex, if_neg (by omega)]
    refine Published.phase ⟨hpub.pc, hpub.pos, hpub.fits, ?_⟩
    have hreceiving := hpub.receiving
    simp only [Receiving, hparent] at hreceiving
    exact ⟨rfl, rfl, Nat.zero_le _, hreceiving⟩
  case copying len got =>
    have hpub := published_of_busy hphase (by simp [Transfer.Polling, hparent]) (by simp [hparent])
    have hfits := hpub.fits
    have hreceiving := hpub.receiving
    simp only [Receiving, hparent] at hreceiving
    obtain ⟨rfl, hgot, hle, houtput⟩ := hreceiving
    by_cases hall : got.length = s.child.index
    · rw [if_pos hall] at h
      obtain rfl := Option.some.inj h
      refine ⟨hsize, Published.phase ⟨hpub.pc, hpub.pos, hpub.fits, ?_⟩⟩
      change s.output = (s.received ++ [got]).flatten ++ s.child.outputs.flatten
      rw [houtput, List.flatten_append, List.flatten_singleton, List.append_assoc, ← hall, ← hgot]
    · rw [if_neg hall] at h
      have hlt : got.length < s.data.length := by omega
      rw [List.getElem?_eq_getElem hlt] at h
      obtain rfl := Option.some.inj h
      refine ⟨hsize, Published.phase ⟨hpub.pc, hpub.pos, hpub.fits, ?_⟩⟩
      refine ⟨rfl, ?_, ?_, houtput⟩
      · change got ++ [s.data[got.length]] = s.data.take (got ++ [s.data[got.length]]).length
        rw [List.length_append, List.length_singleton, List.take_succ_eq_append_getElem hlt, ← hgot]
      · change (got ++ [s.data[got.length]]).length ≤ s.child.index
        rw [List.length_append, List.length_singleton]
        omega
  case zero =>
    obtain rfl := Option.some.inj h
    have hpub := published_of_busy hphase (by simp [Transfer.Polling, hparent]) (by simp [hparent])
    have hreceiving := hpub.receiving
    simp only [Receiving, hparent] at hreceiving
    refine ⟨hsize, ?_⟩
    have hpc : ((s.storeNext 0).parentTo .outer).child.pc = .tailWait := hok
    simp only [ChildPhase, hpc]
    exact Or.inr ⟨rfl, Or.inl rfl, hreceiving⟩
  case left => cases h
  case faulted => cases h

/-- **Step lemma.**  Every step that the guard allows keeps the invariant. -/
theorem transferStep_inv {s t : Transfer} {side : TransferSide} (hs : TransferInv s)
    (hok : TransferOk s side) (h : transferStep s side = some t) : TransferInv t := by
  cases side with
  | child => exact transferChild_inv hs hok h
  | parent => exact transferParent_inv hs hok h

/-- A chunk in the segment is what comes next of the output. -/
theorem Published.ordered {s : Transfer} (h : Published s) : s.received.flatten <+: s.output := by
  have hreceiving := h.receiving
  unfold Receiving at hreceiving
  split at hreceiving
  case h_4 =>
    obtain ⟨-, -, -, houtput⟩ := hreceiving
    exact ⟨_, houtput.symm⟩
  case h_6 | h_7 => exact absurd hreceiving id
  all_goals exact ⟨_, hreceiving.symm⟩

/-- The invariant gives the property. -/
theorem TransferInv.safe {s : Transfer} (hs : TransferInv s) : HandshakeSafe s := by
  rcases hs.phase.split with hpub | ⟨hpolling, hrunning, -, hordered⟩ |
    ⟨hexited, hcell, hparent, houtput⟩
  · have hreceiving := hpub.receiving
    have hrunning : ¬ s.child.pc.over := by
      rcases hpub.pc with ⟨hpc, -⟩ | ⟨hpc, -⟩ <;> simp [hpc, TransferPc.over]
    refine ⟨hpub.ordered, fun hleft => ?_, fun hover => absurd hover hrunning, fun hfault => ?_⟩
    · simp only [Receiving, hleft] at hreceiving
    · simp only [Receiving, hfault] at hreceiving
  · have hparent : s.parent ≠ .left ∧ s.parent ≠ .faulted := by
      rcases hpolling with houter | hinner <;> simp [*]
    exact ⟨hordered, fun hleft => absurd hleft hparent.1, fun hover => absurd hover hrunning,
      hparent.2⟩
  · refine ⟨⟨[], by rw [houtput, List.append_nil]⟩, fun _ => ⟨hexited, houtput.symm⟩,
      fun _ => ?_, ?_⟩
    · exact hparent.symm.imp_right fun houter => ⟨houter, hcell⟩
    · rcases hparent with houter | hleft <;> simp [*]

/-- **Runs in which the transfer works.**  Whatever the segments hold at first,
whatever strings `Start` emits and however it ends, in every run of steps that the
guard allows the parent gets the output of the child in order, leaves its loop
behind the end marker with all of it, and does not stay when the child is no
more. -/
theorem handshakeSafe_of_guarded {memory : Nat → UInt8} {cell : Int} {outputs : List Bytes}
    {early : Bool} {as : List TransferSide} {t : Transfer}
    (hrun : GuardedRun transferStep TransferOk (.start memory cell outputs early) as t) :
    HandshakeSafe t :=
  (hrun.invariant (fun _ _ _ hs hok hstep => transferStep_inv hs hok hstep)
    (transferInv_start memory cell outputs early)).safe

/-! ## An end marker that is missed -/

/-- A parent that is past the test of the outer loop, or at this test without an end
marker, when the child is no more. -/
def MissedEnd (s : Transfer) : Prop :=
  s.child.pc.over ∧ s.parent ≠ .left ∧ (s.parent = .outer → s.cell ≠ -1)

/-- **Step lemma.**  A parent that has missed the end marker will not find it. -/
theorem MissedEnd.step {s t : Transfer} {side : TransferSide} (hs : MissedEnd s)
    (h : transferStep s side = some t) : MissedEnd t := by
  obtain ⟨hexited, hleft, houter⟩ := hs
  cases side with
  | child =>
      rcases hexited with hpc | hpc
      · simp only [transferStep, transferChild, hpc] at h
        cases h
      · simp only [transferStep, transferChild, hpc] at h
        cases h
  | parent =>
      simp only [transferStep] at h
      unfold transferParent at h
      cases hparent : s.parent <;> simp only [hparent] at h
      case outer =>
        obtain rfl := Option.some.inj h
        rw [if_neg (by exact houter hparent)]
        exact ⟨hexited, by simp [Transfer.parentTo], by simp [Transfer.parentTo]⟩
      case inner =>
        obtain rfl := Option.some.inj h
        refine ⟨hexited, ?_, ?_⟩ <;> split <;> simp [Transfer.parentTo]
      case load =>
        obtain rfl := Option.some.inj h
        refine ⟨hexited, ?_, ?_⟩ <;> split <;> simp [Transfer.parentTo]
      case copying len got =>
        split at h
        · obtain rfl := Option.some.inj h
          exact ⟨hexited, by simp, by simp⟩
        · split at h <;> obtain rfl := Option.some.inj h <;>
            exact ⟨hexited, by simp [Transfer.parentTo], by simp [Transfer.parentTo]⟩
      case zero =>
        obtain rfl := Option.some.inj h
        exact ⟨hexited, by simp [Transfer.parentTo], fun _ => by simp [Transfer.parentTo, Transfer.storeNext]⟩
      case left => exact absurd hparent hleft
      case faulted => cases h

/-- The child that stores the end marker with the parent elsewhere makes it miss
the marker. -/
theorem missedEnd_of_finish {s t : Transfer} (hpc : s.child.pc = .finish)
    (houter : s.parent ≠ .outer) (hleft : s.parent ≠ .left) (h : transferStep s .child = some t) :
    MissedEnd t := by
  simp only [transferStep, transferChild, hpc] at h
  obtain rfl := Option.some.inj h
  exact ⟨Or.inl rfl, hleft, fun hparent => absurd hparent houter⟩

/-- A script that ends the child leaves no end marker. -/
theorem missedEnd_of_death {s t : Transfer} (hs : TransferInv s) (hpc : s.child.pc = .call)
    (hend : s.child.outputs = []) (hearly : s.early = true) (h : transferStep s .child = some t) :
    MissedEnd t := by
  have hphase := hs.phase
  simp only [ChildPhase, hpc] at hphase
  obtain ⟨hpolling, hcell, -⟩ := hphase
  simp only [transferStep, transferChild, hpc, hend, hearly, if_true] at h
  obtain rfl := Option.some.inj h
  refine ⟨Or.inr rfl, ?_, fun _ => ?_⟩
  · rcases hpolling with hparent | hparent <;> simp [Transfer.childTo, hparent]
  · change s.cell ≠ -1
    rw [hcell]
    decide

/-- **A missed end marker is missed for good.**  When the child exits while the
parent is not at the test of the outer loop, or is ended by its script, the parent
never leaves its loop. -/
theorem never_left {s t : Transfer} {as : List TransferSide} (hs : MissedEnd s)
    (hrun : Run transferStep s as t) : t.parent ≠ .left :=
  (hrun.invariant (fun _ _ _ hm hstep => MissedEnd.step hm hstep) hs).2.1

/-- Two bytes arrive when the parent loads the length between the two stores of
the child and finds the end marker at its outer test. -/
theorem handshakeSafe_sample :
    ∃ t, GuardedRun transferStep TransferOk (.start (fun _ => 0) 7 [[97, 98]] false)
        [.child, .child, .child, .child, .child, .child, .parent, .parent, .parent, .parent,
          .parent, .parent, .child, .parent, .child, .child, .child, .parent] t ∧
      HandshakeSafe t := by
  have hsome : (check transferStep TransferOk (.start (fun _ => 0) 7 [[97, 98]] false)
      [.child, .child, .child, .child, .child, .child, .parent, .parent, .parent, .parent,
        .parent, .parent, .child, .parent, .child, .child, .child, .parent]).isSome = true := by
    decide +kernel
  obtain ⟨t, ht⟩ := Option.isSome_iff_exists.mp hsome
  have hrun := guardedRun_iff_check.mpr ht
  exact ⟨t, hrun, handshakeSafe_of_guarded hrun⟩

/-- The parent takes one byte of two when it loads the length behind both stores,
and leaves with it. -/
theorem length_overwritten :
    ∃ t, Run transferStep (.start (fun _ => 0) 0 [[97, 98]] false)
        [.child, .child, .child, .child, .child, .child, .child, .parent, .parent, .parent, .parent,
          .parent, .parent, .child, .child, .child, .parent] t ∧
      t.output = [97, 98] ∧ t.received = [[97]] ∧ t.parent = .left ∧ ¬ HandshakeSafe t := by
  have hends : (execute transferStep (.start (fun _ => 0) 0 [[97, 98]] false)
      [.child, .child, .child, .child, .child, .child, .child, .parent, .parent, .parent, .parent,
        .parent, .parent, .child, .child, .child, .parent]).map
        (fun t => (t.output, t.received, t.parent)) = some ([97, 98], [[97]], .left) := by
    decide +kernel
  obtain ⟨t, ht, hends⟩ := Option.map_eq_some_iff.mp hends
  obtain ⟨houtput, hrest⟩ := Prod.mk.inj hends
  obtain ⟨hreceived, hparent⟩ := Prod.mk.inj hrest
  refine ⟨t, run_iff_execute.mpr ht, houtput, hreceived, hparent, fun hsafe => ?_⟩
  have hall := (hsafe.complete hparent).2
  rw [hreceived, houtput] at hall
  exact absurd hall (by decide)

end Toxic
