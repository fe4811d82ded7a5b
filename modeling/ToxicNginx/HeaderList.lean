import ToxicNginx.HeaderFunction
import ToxicNginx.OutputChain

/-!
# The list of header fields and failing allocations

`header_function` pushes an element onto `r->headers_out.headers` before the
line is checked to the end and before its buffers are allocated.  The memory of
the element is not zeroed; here a field of it knows whether it has been written
since.  `ngx_alloc` is called without a log, and logs a failure.

* `HeaderList`, `HeaderList.push` — the list with its parts, and
  `ngx_list_push`;
* `HeaderList.headerFunction` — a call, with every early return;
* `TableCell.Sound`, `HeaderCallsSafe` — what every element must be after every
  call, and what a call must do to the list;
* `headerFunction_spec` — what a call can do to the list; `accepted_elements`,
  `accepted_appends` — what becomes of an accepted line;
* `headerCallsSafe_iff` — the calls that are safe are those that add no element,
  as no call writes the `hash` of the one it adds.
-/

namespace Toxic

/-- A field of a structure: what the memory holds, and whether it has been
written since the memory was given out. -/
structure MemField (α : Type) where
  value : α
  written : Bool
  deriving DecidableEq, Repr

/-- Memory that is given out. -/
def MemField.stale {α : Type} (value : α) : MemField α := ⟨value, false⟩

/-- A field that is assigned. -/
def MemField.stored {α : Type} (value : α) : MemField α := ⟨value, true⟩

/-- `ngx_table_elt_t` in memory; a data pointer is NULL or the allocation it
points to. -/
structure TableCell where
  hash : MemField Nat
  keyLen : MemField Nat
  keyData : MemField (Option Bytes)
  valueLen : MemField Nat
  valueData : MemField (Option Bytes)
  deriving DecidableEq, Repr

/-- `ngx_list_t` of header fields: the full parts and the last one. -/
structure HeaderList where
  full : List (List TableCell)
  last : List TableCell
  nalloc : Nat
  deriving DecidableEq, Repr

/-- The elements in the order of the loop over the parts. -/
def HeaderList.elements (l : HeaderList) : List TableCell := l.full.flatten ++ l.last

/-- `ngx_list_push`, with the answers of `ngx_palloc` for a new part and its
elements: the list around what the caller makes of the new element. -/
def HeaderList.push (part elts : Bool) (l : HeaderList) : Option (TableCell → HeaderList) :=
  if l.last.length = l.nalloc then
    if part && elts then some fun h => { l with full := l.full ++ [l.last], last := [h] } else none
  else some fun h => { l with last := l.last ++ [h] }

/-- What memory holds when it is given out. -/
structure StaleCell where
  hash : Nat
  keyLen : Nat
  keyData : Option Bytes
  valueLen : Nat
  valueData : Option Bytes
  deriving DecidableEq, Repr

/-- The element `ngx_list_push` returns. -/
def StaleCell.cell (m : StaleCell) : TableCell :=
  ⟨.stale m.hash, .stale m.keyLen, .stale m.keyData, .stale m.valueLen, .stale m.valueData⟩

/-- The allocations of one call: the two of a new part, the memory of the
element, and `ngx_alloc` for the key and the value, with what the memory held
before. -/
structure HeaderMemory where
  part : Bool
  elts : Bool
  element : StaleCell
  key : Option (Nat → UInt8)
  value : Option (Nat → UInt8)

/-- `key_index`, for a `uint` length that the loop casts to `int`. -/
def keyIndexInt (line : Bytes) : Nat := if line.length < 2 ^ 31 then keyIndex line else 0

/-- `header_function(ctr)`. -/
def HeaderList.headerFunction (m : HeaderMemory) (line : Option Bytes) (l : HeaderList) :
    Except Fault HeaderList :=
  match line with
  | none => .ok l
  | some line =>
      let k := keyIndexInt line
      if k = 0 then .ok l
      else
        match l.push m.part m.elts with
        | none => .ok l
        | some put =>
            match m.key with
            -- `ngx_log_error` reads the level of the log, which is NULL
            | none => .error .nullDereference
            | some keyHeap =>
                let n := line.length - 1 - k
                let h : TableCell :=
                  { m.element.cell with
                    keyLen := .stored k
                    keyData := .stored (some ((List.range k).map keyHeap))
                    valueLen := .stored n }
                if n = 0 then .ok (put h)
                else
                  match m.value with
                  | none => .error .nullDereference
                  | some _ =>
                      .ok (put
                        { h with
                          keyData := .stored (some (strncpy line k))
                          valueData := .stored (some (strncpy (line.drop (k + 1)) n)) })

/-- A pointer field and its length: written, and the pointer covers so many
bytes. -/
def Covers (len : MemField Nat) (data : MemField (Option Bytes)) : Prop :=
  len.written = true ∧ data.written = true ∧
    ∃ block, data.value = some block ∧ len.value ≤ block.length

/-- What every element of the list must be: a hash that is defined and not
zero, and pointers that cover their lengths. -/
structure TableCell.Sound (e : TableCell) : Prop where
  hashWritten : e.hash.written = true
  hashNonzero : e.hash.value ≠ 0
  key : Covers e.keyLen e.keyData
  value : Covers e.valueLen e.valueData

/-- The element as `ngx_http_header_filter` reads it. -/
def TableCell.elt (e : TableCell) : TableElt :=
  ⟨e.hash.value, (e.keyData.value.getD []).take e.keyLen.value,
    (e.valueData.value.getD []).take e.valueLen.value⟩

/-- The elements the header filter writes out. -/
def HeaderList.emitted (l : HeaderList) : List TableElt :=
  (l.elements.map TableCell.elt).filter (·.hash ≠ 0)

/-- The line is accepted: it has a key and a value, and every allocation
succeeds. -/
def Accepts (l : HeaderList) (m : HeaderMemory) (line : Bytes) : Prop :=
  keyIndexInt line ≠ 0 ∧ line.length - 1 - keyIndexInt line ≠ 0 ∧
    (l.push m.part m.elts).isSome ∧ m.key.isSome ∧ m.value.isSome

/-- What a call must do to the list: all elements are sound; an accepted line
is appended as one element that is written out; any other call changes
nothing. -/
structure CallSound (l l' : HeaderList) (m : HeaderMemory) (line : Option Bytes) : Prop where
  sound : ∀ e ∈ l'.elements, e.Sound
  appended : ∀ text, line = some text → Accepts l m text →
    ∃ e, l'.elements = l.elements ++ [e] ∧ e.elt.key ++ 58 :: e.elt.value = text ∧
      l'.emitted = l.emitted ++ [e.elt]
  kept : (∀ text, line = some text → ¬ Accepts l m text) → l' = l

/-- After every call of the sequence the process goes on and the list is as it
must be. -/
def HeaderCallsSafe : List (HeaderMemory × Option Bytes) → HeaderList → Prop
  | [], _ => True
  | c :: rest, l => ∃ l', l.headerFunction c.1 c.2 = .ok l' ∧ CallSound l l' c.1 c.2 ∧
      HeaderCallsSafe rest l'

/-- The call gets no element from `ngx_list_push`: there is no line, or it has
no colon behind its first character, or the list is full and has no memory for
a new part. -/
def AddsNone (l : HeaderList) (m : HeaderMemory) (line : Option Bytes) : Prop :=
  ∀ text, line = some text → keyIndexInt text = 0 ∨ l.push m.part m.elts = none

/-- A pushed element is the last one. -/
theorem push_elements {part elts : Bool} {l : HeaderList} {put : TableCell → HeaderList}
    (h : l.push part elts = some put) (e : TableCell) :
    (put e).elements = l.elements ++ [e] := by
  unfold HeaderList.push at h
  split at h
  · split at h
    · obtain rfl := Option.some.inj h
      simp [HeaderList.elements]
    · cases h
  · obtain rfl := Option.some.inj h
    simp [HeaderList.elements]

/-- **What a call can do**: nothing, when no element is added, or it adds one
whose hash is what the memory held, unless the process ends. -/
theorem headerFunction_spec (m : HeaderMemory) (line : Option Bytes) (l : HeaderList) :
    (AddsNone l m line ∧ l.headerFunction m line = .ok l) ∨
    (¬ AddsNone l m line ∧
      (l.headerFunction m line = .error .nullDereference ∨
       ∃ put e, l.push m.part m.elts = some put ∧ l.headerFunction m line = .ok (put e) ∧
        e.hash = .stale m.element.hash)) := by
  unfold HeaderList.headerFunction
  cases line with
  | none => exact Or.inl ⟨fun text h => by simp at h, rfl⟩
  | some text =>
      dsimp only
      by_cases hkey : keyIndexInt text = 0
      · rw [if_pos hkey]
        exact Or.inl ⟨fun text' h => Or.inl (Option.some.inj h ▸ hkey), rfl⟩
      rw [if_neg hkey]
      cases hpush : l.push m.part m.elts with
      | none => exact Or.inl ⟨fun _ _ => Or.inr hpush, rfl⟩
      | some put =>
          refine Or.inr ⟨fun hnone => ?_, ?_⟩
          · rcases hnone text rfl with hzero | hfull
            · exact hkey hzero
            · rw [hpush] at hfull
              cases hfull
          · cases m.key with
            | none => exact Or.inl rfl
            | some keyHeap =>
                dsimp only
                by_cases hempty : text.length - 1 - keyIndexInt text = 0
                · rw [if_pos hempty]
                  exact Or.inr ⟨put, _, rfl, rfl, rfl⟩
                · rw [if_neg hempty]
                  cases m.value with
                  | none => exact Or.inl rfl
                  | some valueHeap => exact Or.inr ⟨put, _, rfl, rfl, rfl⟩

/-- A call that adds no element is no accepted one. -/
theorem AddsNone.not_accepts {l : HeaderList} {m : HeaderMemory} {line : Option Bytes}
    (h : AddsNone l m line) {text : Bytes} (htext : line = some text) : ¬ Accepts l m text := by
  rintro ⟨hkey, -, hpush, -⟩
  rcases h text htext with hzero | hfull
  · exact hkey hzero
  · rw [hfull] at hpush
    cases hpush

/-- **Step lemma.**  On a list of sound elements a call does what it must
exactly if it adds no element. -/
theorem callSound_iff {l : HeaderList} (hl : ∀ e ∈ l.elements, e.Sound) (m : HeaderMemory)
    (line : Option Bytes) :
    (∃ l', l.headerFunction m line = .ok l' ∧ CallSound l l' m line) ↔ AddsNone l m line := by
  rcases headerFunction_spec m line l with ⟨hnone, hcall⟩ | ⟨hadds, hcall⟩
  · refine iff_of_true ⟨l, hcall, hl, fun text htext hacc => ?_, fun _ => rfl⟩ hnone
    exact absurd hacc (hnone.not_accepts htext)
  · refine iff_of_false ?_ hadds
    rintro ⟨l', hl', hsound⟩
    rcases hcall with hfault | ⟨put, e, hpush, hput, hhash⟩
    · rw [hfault] at hl'
      cases hl'
    · obtain rfl := Except.ok.inj (hput.symm.trans hl')
      have hmem : e ∈ (put e).elements := by
        rw [push_elements hpush]
        exact List.mem_append_right _ List.mem_cons_self
      have hwritten := (hsound.sound e hmem).hashWritten
      rw [hhash] at hwritten
      cases hwritten

/-- `strncpy` fills its buffer. -/
theorem strncpy_length (src : Bytes) (n : Nat) : (strncpy src n).length = n := by
  have hle : ((src.take n).takeWhile (· != 0)).length ≤ (src.take n).length :=
    (List.takeWhile_prefix _).length_le
  have htake : (src.take n).length ≤ n := List.length_take_le ..
  simp only [strncpy, List.length_append, List.length_replicate]
  omega

/-- An accepted line is short enough for the cast of its length. -/
theorem Accepts.keyIndex {l : HeaderList} {m : HeaderMemory} {text : Bytes}
    (h : Accepts l m text) : keyIndexInt text = keyIndex text ∧ keyIndex text ≠ 0 := by
  have hkey := h.1
  unfold keyIndexInt at hkey ⊢
  split
  · rename_i hshort
    rw [if_pos hshort] at hkey
    exact ⟨rfl, hkey⟩
  · rename_i hlong
    rw [if_neg hlong] at hkey
    exact absurd rfl hkey

/-- **What becomes of an accepted line**: the header filter finds one element
more, with copies of the two sides of the colon and the hash the memory held. -/
theorem accepted_elements {l : HeaderList} {m : HeaderMemory} {text : Bytes}
    (h : Accepts l m text) :
    ∃ l' e, l.headerFunction m (some text) = .ok l' ∧ l'.elements = l.elements ++ [e] ∧
      e.elt = ⟨m.element.hash, strncpy text (keyIndex text),
        strncpy (text.drop (keyIndex text + 1)) (text.length - 1 - keyIndex text)⟩ := by
  obtain ⟨hindex, -⟩ := h.keyIndex
  obtain ⟨hkey, hvalue, hpush, hkeyHeap, hvalueHeap⟩ := h
  obtain ⟨put, hpush⟩ := Option.isSome_iff_exists.mp hpush
  obtain ⟨keyHeap, hkeyHeap⟩ := Option.isSome_iff_exists.mp hkeyHeap
  obtain ⟨valueHeap, hvalueHeap⟩ := Option.isSome_iff_exists.mp hvalueHeap
  let e : TableCell :=
    { m.element.cell with
      keyLen := .stored (keyIndexInt text)
      keyData := .stored (some (strncpy text (keyIndexInt text)))
      valueLen := .stored (text.length - 1 - keyIndexInt text)
      valueData := .stored (some (strncpy (text.drop (keyIndexInt text + 1))
        (text.length - 1 - keyIndexInt text))) }
  have hcall : l.headerFunction m (some text) = .ok (put e) := by
    simp only [HeaderList.headerFunction, if_neg hkey, hpush, hkeyHeap, if_neg hvalue, hvalueHeap]
    rfl
  have hkeyElt : e.elt.key = strncpy text (keyIndexInt text) :=
    List.take_of_length_le (strncpy_length ..).le
  have hvalueElt : e.elt.value
      = strncpy (text.drop (keyIndexInt text + 1)) (text.length - 1 - keyIndexInt text) :=
    List.take_of_length_le (strncpy_length ..).le
  refine ⟨put e, e, hcall, push_elements hpush e, ?_⟩
  rw [← hindex, ← hkeyElt, ← hvalueElt]
  rfl

/-- **Refinement.**  Where the line is accepted, what the header filter reads is
what the call without failures makes of the fields. -/
theorem accepted_headerFunction {l l' : HeaderList} {m : HeaderMemory} {text : Bytes}
    (h : Accepts l m text) (hcall : l.headerFunction m (some text) = .ok l')
    (heap : Nat → UInt8) :
    l'.elements.map TableCell.elt
      = headerFunction m.element.hash heap text (l.elements.map TableCell.elt) := by
  obtain ⟨hindex, hkey⟩ := h.keyIndex
  have hvalue : text.length - 1 - keyIndex text ≠ 0 := hindex ▸ h.2.1
  obtain ⟨l₁, e, hcall₁, helements, helt⟩ := accepted_elements h
  obtain rfl := Except.ok.inj (hcall.symm.trans hcall₁)
  rw [helements, List.map_append, List.map_cons, List.map_nil, helt]
  simp only [headerFunction, if_neg hkey, if_neg hvalue]

/-- An accepted line without a NUL byte is its key, a colon and its value, and is
written out exactly if the memory of the element did not hold a zero in the
place of the hash. -/
theorem accepted_appends {l : HeaderList} {m : HeaderMemory} {text : Bytes}
    (h : Accepts l m text) (hnul : 0 ∉ text) :
    ∃ l' e, l.headerFunction m (some text) = .ok l' ∧ l'.elements = l.elements ++ [e] ∧
      e.elt.key ++ 58 :: e.elt.value = text ∧
      l'.emitted = l.emitted ++ (if m.element.hash = 0 then [] else [e.elt]) := by
  obtain ⟨-, hkey⟩ := h.keyIndex
  obtain ⟨hlt, hsplit⟩ := line_split hkey
  obtain ⟨l', e, hcall, helements, helt⟩ := accepted_elements h
  refine ⟨l', e, hcall, helements, ?_, ?_⟩
  · have hleft : strncpy text (keyIndex text) = text.take (keyIndex text) :=
      strncpy_eq_take (fun hmem => hnul (List.mem_of_mem_take hmem)) (by omega)
    have hright : strncpy (text.drop (keyIndex text + 1)) (text.length - 1 - keyIndex text)
        = text.drop (keyIndex text + 1) := by
      rw [strncpy_eq_take (fun hmem => hnul (List.mem_of_mem_drop (List.mem_of_mem_take hmem)))
        (by rw [List.length_drop]; omega)]
      exact List.take_of_length_le (by rw [List.length_drop]; omega)
    rw [helt, hleft, hright]
    exact hsplit.symm
  · have hhash : e.elt.hash = m.element.hash := by rw [helt]
    unfold HeaderList.emitted
    rw [helements, List.map_append, List.filter_append]
    congr 1
    by_cases hzero : m.element.hash = 0
    · simp [hhash, hzero]
    · simp [hhash, hzero]

/-- **When the header list stays sound.**  For every list of sound elements,
every sequence of calls and every answer of the allocator, the elements are
sound after each call and the calls do to the list what they must, exactly if
no call gets as far as an element. -/
theorem headerCallsSafe_iff (l : HeaderList) (hl : ∀ e ∈ l.elements, e.Sound)
    (calls : List (HeaderMemory × Option Bytes)) :
    HeaderCallsSafe calls l ↔ ∀ c ∈ calls, AddsNone l c.1 c.2 := by
  induction calls with
  | nil => simp [HeaderCallsSafe]
  | cons c rest ih =>
      rw [List.forall_mem_cons, ← ih]
      constructor
      · rintro ⟨l', hcall, hsound, hrest⟩
        have hnone := (callSound_iff hl c.1 c.2).mp ⟨l', hcall, hsound⟩
        obtain rfl : l' = l := hsound.kept fun text htext => hnone.not_accepts htext
        exact ⟨hnone, hrest⟩
      · rintro ⟨hnone, hrest⟩
        obtain ⟨l', hcall, hsound⟩ := (callSound_iff hl c.1 c.2).mpr hnone
        obtain rfl : l' = l := hsound.kept fun text htext => hnone.not_accepts htext
        exact ⟨l', hcall, hsound, hrest⟩

/-- `headerCallsSafe_iff` at a list with one field, a line without a colon and
one that begins with it. -/
theorem headerCallsSafe_iff_sample :
    HeaderCallsSafe
        [(⟨true, true, ⟨0, 0, none, 0, none⟩, none, none⟩, some [65, 66]),
          (⟨true, true, ⟨0, 0, none, 0, none⟩, none, none⟩, some [58, 66])]
        ⟨[], [⟨.stored 1, .stored 1, .stored (some [65]), .stored 1, .stored (some [66])⟩], 20⟩ ↔
      ∀ c ∈ [((⟨true, true, ⟨0, 0, none, 0, none⟩, none, none⟩ : HeaderMemory),
          some ([65, 66] : Bytes)),
          (⟨true, true, ⟨0, 0, none, 0, none⟩, none, none⟩, some [58, 66])],
        AddsNone ⟨[], [⟨.stored 1, .stored 1, .stored (some [65]), .stored 1,
          .stored (some [66])⟩], 20⟩ c.1 c.2 := by
  refine headerCallsSafe_iff _ (fun e he => ?_) _
  obtain rfl := List.mem_singleton.mp he
  exact ⟨rfl, by decide, ⟨rfl, rfl, [65], rfl, by decide⟩, ⟨rfl, rfl, [66], rfl, by decide⟩⟩

/-- The line `A:b` with every allocation granted, the element in memory that
held zeros: its hash is not defined. -/
theorem accepted_line_has_no_hash :
    ¬ HeaderCallsSafe
      [(⟨true, true, ⟨0, 0, none, 0, none⟩, some fun _ => 255, some fun _ => 255⟩,
        some [65, 58, 98])] ⟨[], [], 20⟩ := by
  rintro ⟨l', hcall, hsound, -⟩
  obtain rfl := Except.ok.inj hcall
  have hwritten := (hsound.sound _ (List.mem_cons_self)).hashWritten
  cases hwritten

end Toxic
