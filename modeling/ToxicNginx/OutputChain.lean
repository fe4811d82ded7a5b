import Mathlib
import ToxicNginx.LinkedCells

/-!
# The output chain of a toxic request

`callback_output` collects what the script prints in a chain of buffers that
grows at its tail `temp_chain`; `exit_request` announces `base_len` bytes and
hands the chain from `out_chain` to nginx.  This file embeds the two with the
memory they work on: chain links and buffers live at addresses, `malloc` gives
a cell with arbitrary contents, `ngx_pcalloc` a zeroed one, and either may
fail.

* `callbackOutput`, `toxicOutput` — the two functions of the module;
* `Stored` — the state after a sequence of non-empty writes: where the links
  and buffers are and what each buffer holds;
* `callbackOutput_first`, `callbackOutput_next` — one write starts the chain or
  extends it by one buffer whose range is the write **and a NUL byte**;
* `toxicWrites_collected` — the same for every sequence of writes;
* `bodyFaithful_iff` — the response announced and the response handed over
  agree with the writes exactly when every write is empty.
-/

namespace Toxic

open LinkedCells

/-- A string of bytes. -/
abbrev Bytes := List UInt8

/-- `ngx_chain_t`; a pointer is an address, `none` is NULL. -/
structure NgxChain where
  buf : Option Nat
  next : Option Nat
  deriving DecidableEq, Repr

/-- The fields of `ngx_buf_t` the module writes.  `pos` and `last` are offsets
into `block`, the allocation they point into; `file` is `b->file` with the
`directio` bit of the file it points to. -/
structure NgxBuf where
  block : Bytes
  pos : Nat
  last : Nat
  memory : Bool
  inFile : Bool
  file : Option Bool
  lastInChain : Bool
  lastBuf : Bool
  deriving DecidableEq, Repr

/-- `ngx_pcalloc(r->pool, sizeof(ngx_buf_t))`. -/
def NgxBuf.zeroed : NgxBuf := ⟨[], 0, 0, false, false, none, false, false⟩

/-- The bytes `[b->pos, b->last)`. -/
def NgxBuf.range (b : NgxBuf) : Bytes := (b.block.take b.last).drop b.pos

/-- The statics of the module that collect output, with the memory they point
into. -/
structure Output where
  links : Nat → NgxChain
  linkCount : Nat
  bufs : Nat → NgxBuf
  bufCount : Nat
  outChain : Option Nat
  tempChain : Option Nat
  baseLen : Int

/-- What stops a C function in the middle. -/
inductive Fault
  | nullDereference
  | outOfBounds
  deriving DecidableEq, Repr

/-- The answers of the allocations of one `callback_output` call: `link` and
`block` are `malloc` (the previous contents, or NULL), `buf` and `file` are
`ngx_pcalloc`. -/
structure Allocs where
  link : Option NgxChain
  buf : Bool
  block : Option (Nat → UInt8)
  file : Bool

/-- Every allocation of the call succeeds. -/
def Allocs.Succeed (a : Allocs) : Prop :=
  a.link.isSome ∧ a.buf = true ∧ a.block.isSome ∧ a.file = true

/-- `for(i=0;i<len;i++) b->pos[i] = str[i]; b->pos[i] = '\0';` -/
def storeString : Bytes → Bytes → Bytes
  | [], _ => []
  | _ :: block, [] => 0 :: block
  | _ :: block, c :: str => c :: storeString block str

/-- `base_len += len`, an `int`. -/
def addInt (base : Int) (len : Nat) : Int := Int.bmod (base + len) (2 ^ 32)

/-- The branch `if(temp_chain->buf)`: clear `last_buf` of the buffer at the
tail and move the tail to a link from `malloc`. -/
def Output.nextLink (o : Output) (t b : Nat) (link : Option NgxChain) : Output :=
  let bufs := Function.update o.bufs b { o.bufs b with lastBuf := false }
  match link with
  | none =>
      { o with
        bufs := bufs
        links := Function.update o.links t { o.links t with next := none }
        tempChain := none }
  | some junk =>
      { o with
        bufs := bufs
        links := Function.update
          (Function.update o.links t { o.links t with next := some o.linkCount })
          o.linkCount junk
        linkCount := o.linkCount + 1
        tempChain := some o.linkCount }

/-- The rest of `callback_output`: allocate the buffer, store it in the tail
link, copy the string and count it. -/
def Output.fillLink (o : Output) (a : Allocs) (str : Bytes) : Except Fault Output :=
  if a.buf = false then
    .ok o
  else
    match o.tempChain, a.block, a.file with
    | some t, some mem, true =>
        let b : NgxBuf :=
          { NgxBuf.zeroed with
            block := storeString ((List.range (str.length + 1)).map mem) str
            last := str.length + 1
            memory := true
            lastInChain := true
            lastBuf := true
            file := some false
            inFile := false }
        .ok { o with
          bufs := Function.update o.bufs o.bufCount b
          bufCount := o.bufCount + 1
          links := Function.update o.links t ⟨some o.bufCount, none⟩
          baseLen := addInt o.baseLen str.length }
    | _, _, _ => .error .nullDereference

/-- `callback_output(str, len)`, where `str` is the `len` bytes. -/
def callbackOutput (a : Allocs) (str : Bytes) (o : Output) : Except Fault Output :=
  if str.length ≤ 0 then
    .ok o
  else
    match o.tempChain with
    | none => .error .nullDereference
    | some t =>
        match (o.links t).buf with
        | some b => (o.nextLink t b a.link).fillLink a str
        | none => o.fillLink a str

/-- `toxic_request_callback`: the key; its `callback` is `callbackOutput`. -/
structure RequestCallback where
  key : Option Bytes
  deriving DecidableEq, Repr

/-- The loop of `toxic_output` with `n` rounds left, at index `i`. -/
def searchCallback (callbacks : List RequestCallback) (index : Bytes) (a : Allocs)
    (str : Bytes) (o : Output) : Nat → Nat → Except Fault Output
  | 0, _ => .ok o
  | n + 1, i =>
      match callbacks[i]? with
      | none => .error .outOfBounds
      | some cb =>
          if cb.key = some index then callbackOutput a str o
          else searchCallback callbacks index a str o n (i + 1)

/-- `toxic_output(request_index, .., str, str_length)`; `str_length` is an
`unsigned int`. -/
def toxicOutput (callbacks : List RequestCallback) (requestIndex : Option Bytes)
    (a : Allocs) (str : Bytes) (o : Output) : Except Fault Output :=
  match requestIndex with
  | none => .ok o
  | some index => searchCallback callbacks index a (str.take (str.length % 2 ^ 32)) o 10 0

/-- The head of `toxic_excecute`: `out_chain` is a zeroed link from the
request pool or, when `ngx_pcalloc` refuses it, NULL, and `temp_chain` is the
same; nothing is tested. -/
def Output.head (granted : Bool) (baseLen : Int) : Output where
  links := fun _ => ⟨none, none⟩
  linkCount := 1
  bufs := fun _ => NgxBuf.zeroed
  bufCount := 0
  outChain := if granted then some 0 else none
  tempChain := if granted then some 0 else none
  baseLen := baseLen

/-- The head of `toxic_excecute` when it gets the link. -/
def Output.start (baseLen : Int) : Output := .head true baseLen

/-- A sequence of script writes under one request index. -/
def toxicWrites (callbacks : List RequestCallback) (index : Bytes) :
    List (Bytes × Allocs) → Output → Except Fault Output
  | [], o => .ok o
  | (str, a) :: rest, o =>
      match toxicOutput callbacks (some index) a str o with
      | .error e => .error e
      | .ok o' => toxicWrites callbacks index rest o'

/-- The buffers of `out_chain` in chain order; `none` when the chain is not
NULL-terminated.  A link without a buffer holds no bytes. -/
def Output.chainBufs (o : Output) : Option (List NgxBuf) :=
  (walk NgxChain.next o.links o.linkCount o.outChain).map
    fun as => as.filterMap fun a => (o.links a).buf.map o.bufs

/-- What `exit_request` hands to nginx: `r->headers_out.content_length_n` and
the buffers of `out_chain`. -/
structure Handover where
  contentLengthN : Int
  bufs : Option (List NgxBuf)

/-- `r->headers_out.content_length_n = base_len;` and `out_chain`. -/
def exitRequestHandover (o : Output) : Handover := ⟨o.baseLen, o.chainBufs⟩

/-- Storing a string in an allocation of its length plus one writes every byte
of the allocation. -/
theorem storeString_eq {block str : Bytes} (hlen : block.length = str.length + 1) :
    storeString block str = str ++ [0] := by
  induction str generalizing block with
  | nil =>
      obtain ⟨b, rfl⟩ := List.length_eq_one_iff.mp hlen
      rfl
  | cons c str ih =>
      cases block with
      | nil => simp at hlen
      | cons b block => simp [storeString, ih (by simpa using hlen)]

/-- The buffer `callback_output` leaves for the string `str`; `final` says
whether a later write has cleared its `last_buf`. -/
def storedBuf (str : Bytes) (final : Bool) : NgxBuf where
  block := str ++ [0]
  pos := 0
  last := str.length + 1
  memory := true
  inFile := false
  file := some false
  lastInChain := true
  lastBuf := final

/-- The range of a stored buffer is the string and its terminator. -/
theorem storedBuf_range (str : Bytes) (final : Bool) :
    (storedBuf str final).range = str ++ [0] := by
  have htake : (str ++ [0]).take (str.length + 1) = str ++ [0] :=
    List.take_of_length_le (by simp)
  simp only [storedBuf, NgxBuf.range, htake, List.drop_zero]

/-- The state after the non-empty writes `earlier ++ [latest]`: the chain is
the links `front ++ [tail]`, their buffers are at `ptrs ++ [ptr]` and hold the
writes in order, and only the buffer of `tail` is final. -/
structure Stored (o : Output) (front : List Nat) (tail : Nat) (ptrs : List Nat) (ptr : Nat)
    (earlier : List Bytes) (latest : Bytes) : Prop where
  segment : Segment NgxChain.next o.links o.outChain (front ++ [tail]) none
  temp : o.tempChain = some tail
  fresh : ∀ l ∈ front ++ [tail], l < o.linkCount
  tail_ne : tail ∉ front
  length : (front ++ [tail]).length ≤ o.linkCount
  frontBufs : front.map (fun l => (o.links l).buf) = ptrs.map some
  tailBuf : (o.links tail).buf = some ptr
  ptrsFresh : ∀ q ∈ ptrs ++ [ptr], q < o.bufCount
  ptr_ne : ptr ∉ ptrs
  frontHold : ptrs.map o.bufs = earlier.map (storedBuf · false)
  tailHolds : o.bufs ptr = storedBuf latest true

/-- Reading the chain of a stored state gives the buffers of its writes. -/
theorem Stored.chainBufs {o : Output} {front : List Nat} {tail : Nat} {ptrs : List Nat}
    {ptr : Nat} {earlier : List Bytes} {latest : Bytes}
    (h : Stored o front tail ptrs ptr earlier latest) :
    o.chainBufs = some (earlier.map (storedBuf · false) ++ [storedBuf latest true]) := by
  have hwalk : walk NgxChain.next o.links o.linkCount o.outChain = some (front ++ [tail]) :=
    walk_of_segment h.segment h.length
  have hfront : front.filterMap (fun l => (o.links l).buf.map o.bufs) = ptrs.map o.bufs := by
    calc front.filterMap (fun l => (o.links l).buf.map o.bufs)
        = (front.map fun l => (o.links l).buf).filterMap (Option.map o.bufs) := by
          rw [List.filterMap_map]; rfl
      _ = ptrs.map o.bufs := by
          rw [h.frontBufs, List.filterMap_map]
          simp
  simp only [Output.chainBufs, hwalk, Option.map_some, List.filterMap_append, hfront,
    h.frontHold]
  simp [h.tailBuf, h.tailHolds]

/-- What the last part of `callback_output` stores when its allocations
succeed. -/
theorem fillLink_succeed (o : Output) {t : Nat} {a : Allocs} (str : Bytes)
    (ha : a.Succeed) (ht : o.tempChain = some t) :
    o.fillLink a str = .ok { o with
      bufs := Function.update o.bufs o.bufCount (storedBuf str true)
      bufCount := o.bufCount + 1
      links := Function.update o.links t ⟨some o.bufCount, none⟩
      baseLen := addInt o.baseLen str.length } := by
  obtain ⟨_, hbuf, hblock, hfile⟩ := ha
  obtain ⟨mem, hmem⟩ := Option.isSome_iff_exists.mp hblock
  have hstore : storeString ((List.range (str.length + 1)).map mem) str = str ++ [0] :=
    storeString_eq (by simp)
  simp only [Output.fillLink, hbuf, ht, hmem, hfile, hstore, NgxBuf.zeroed, storedBuf,
    Bool.true_eq_false, if_false]

/-- **First write.**  The first non-empty write fills the link `out_chain`
points to. -/
theorem callbackOutput_first (base : Int) {a : Allocs} {str : Bytes}
    (ha : a.Succeed) (hstr : str ≠ []) :
    ∃ o, callbackOutput a str (Output.start base) = .ok o ∧
      Stored o [] 0 [] 0 [] str ∧ o.baseLen = addInt base str.length := by
  have hlen : ¬ str.length ≤ 0 := by simpa using hstr
  have hfill := fillLink_succeed (Output.start base) str ha rfl
  have hcall : callbackOutput a str (Output.start base)
      = (Output.start base).fillLink a str := by
    simp only [callbackOutput, hlen, if_false]
    rfl
  refine ⟨_, hcall.trans hfill, ?_, rfl⟩
  refine ⟨?_, rfl, by simp [Output.start, Output.head], by simp, by simp [Output.start, Output.head], rfl, ?_,
    by simp [Output.start, Output.head], by simp, rfl, ?_⟩
  · exact Segment.cons (by simpa [Output.start, Output.head] using Segment.nil _)
  · simp [Output.start, Output.head]
  · simp [Output.start, Output.head]

/-- **Next write.**  A further non-empty write links a new cell behind the
tail, clears `last_buf` of the buffer before it and stores its own buffer. -/
theorem callbackOutput_next {o : Output} {front : List Nat} {tail : Nat} {ptrs : List Nat}
    {ptr : Nat} {earlier : List Bytes} {latest : Bytes}
    (h : Stored o front tail ptrs ptr earlier latest) {a : Allocs} {str : Bytes}
    (ha : a.Succeed) (hstr : str ≠ []) :
    ∃ o', callbackOutput a str o = .ok o' ∧
      Stored o' (front ++ [tail]) o.linkCount (ptrs ++ [ptr]) o.bufCount
        (earlier ++ [latest]) str ∧
      o'.baseLen = addInt o.baseLen str.length := by
  have hlen : ¬ str.length ≤ 0 := by simpa using hstr
  obtain ⟨junk, hjunk⟩ := Option.isSome_iff_exists.mp ha.1
  have htailFresh : tail < o.linkCount := h.fresh tail (by simp)
  have hptrFresh : ptr < o.bufCount := h.ptrsFresh ptr (by simp)
  have hfrontFresh : ∀ l ∈ front, l ≠ tail ∧ l ≠ o.linkCount := by
    intro l hl
    have hlt : l < o.linkCount := h.fresh l (List.mem_append_left _ hl)
    exact ⟨fun heq => h.tail_ne (heq ▸ hl), by omega⟩
  have hptrsFresh : ∀ q ∈ ptrs, q ≠ ptr ∧ q ≠ o.bufCount := by
    intro q hq
    have hlt : q < o.bufCount := h.ptrsFresh q (List.mem_append_left _ hq)
    exact ⟨fun heq => h.ptr_ne (heq ▸ hq), by omega⟩
  have hfill := fillLink_succeed (o.nextLink tail ptr (some junk)) str ha rfl
  have hcall : callbackOutput a str o
      = (o.nextLink tail ptr (some junk)).fillLink a str := by
    simp only [callbackOutput, hlen, if_false, h.temp, h.tailBuf, hjunk]
  refine ⟨_, hcall.trans hfill, ?_, rfl⟩
  have htail : tail ≠ o.linkCount := by omega
  have hptr : ptr ≠ o.bufCount := by omega
  constructor
  case segment =>
    refine Segment.extend h.segment ?_ ?_ ?_
    · intro l hl
      obtain ⟨h1, h2⟩ := hfrontFresh l hl
      simp [Output.nextLink, h1, h2]
    · simp [Output.nextLink, htail]
    · simp [Output.nextLink]
  case temp => rfl
  case fresh =>
    intro l hl
    rcases List.mem_append.mp hl with hl | hl
    · exact Nat.lt_succ_of_lt (h.fresh l hl)
    · obtain rfl := List.mem_singleton.mp hl
      exact Nat.lt_succ_self _
  case tail_ne =>
    intro hmem
    exact Nat.lt_irrefl _ (h.fresh _ hmem)
  case length =>
    have := h.length
    simp only [List.length_append, List.length_singleton, Output.nextLink] at this ⊢
    omega
  case frontBufs =>
    have hkeep : front.map (fun l => ((Function.update (o.nextLink tail ptr (some junk)).links
        o.linkCount ⟨some o.bufCount, none⟩) l).buf) = front.map fun l => (o.links l).buf := by
      refine List.map_congr_left fun l hl => ?_
      obtain ⟨h1, h2⟩ := hfrontFresh l hl
      simp [Output.nextLink, h1, h2]
    simp only [List.map_append, List.map_cons, List.map_nil]
    rw [← h.frontBufs, ← hkeep]
    simp [Output.nextLink, htail, h.tailBuf]
  case tailBuf => simp [Output.nextLink]
  case ptrsFresh =>
    intro q hq
    rcases List.mem_append.mp hq with hq | hq
    · exact Nat.lt_succ_of_lt (h.ptrsFresh q hq)
    · obtain rfl := List.mem_singleton.mp hq
      exact Nat.lt_succ_self _
  case ptr_ne =>
    intro hmem
    exact Nat.lt_irrefl _ (h.ptrsFresh _ hmem)
  case frontHold =>
    have hkeep : ptrs.map (Function.update (o.nextLink tail ptr (some junk)).bufs
        o.bufCount (storedBuf str true)) = ptrs.map o.bufs := by
      refine List.map_congr_left fun q hq => ?_
      obtain ⟨h1, h2⟩ := hptrsFresh q hq
      simp [Output.nextLink, h1, h2]
    simp only [List.map_append, List.map_cons, List.map_nil]
    rw [← h.frontHold, ← hkeep]
    simp [Output.nextLink, hptr, h.tailHolds, storedBuf]
  case tailHolds => simp [Output.nextLink]

/-- `toxic_output` hands a write to the callback whose key is the request
index, here the first and only element of `callbacks`. -/
theorem toxicOutput_route (index : Bytes) (rest : List RequestCallback) (a : Allocs)
    {str : Bytes} (o : Output) (hlen : str.length < 2 ^ 32) :
    toxicOutput (⟨some index⟩ :: rest) (some index) a str o = callbackOutput a str o := by
  have htake : str.take (str.length % 2 ^ 32) = str := by
    rw [Nat.mod_eq_of_lt hlen, List.take_length]
  simp only [toxicOutput, htake, searchCallback, List.getElem?_cons_zero, if_true]

/-- An `int` sum that stays in range is the sum. -/
theorem addInt_eq {base : Int} {len : Nat} (hbase : 0 ≤ base)
    (hsum : base + len ≤ 2147483647) : addInt base len = base + len := by
  unfold addInt
  apply Int.bmod_eq_of_le <;> omega

/-- The writes that store a buffer. -/
def nonEmpty (writes : List Bytes) : List Bytes := writes.filter fun s => !s.isEmpty

@[simp] theorem nonEmpty_nil : nonEmpty [] = [] := rfl

theorem nonEmpty_cons_nil (writes : List Bytes) : nonEmpty ([] :: writes) = nonEmpty writes := rfl

theorem nonEmpty_cons {str : Bytes} (hstr : str ≠ []) (writes : List Bytes) :
    nonEmpty (str :: writes) = str :: nonEmpty writes := by
  cases str with
  | nil => exact absurd rfl hstr
  | cons c str => rfl

theorem nonEmpty_append (left right : List Bytes) :
    nonEmpty (left ++ right) = nonEmpty left ++ nonEmpty right := List.filter_append ..

/-- Nothing is stored exactly when every write is empty. -/
theorem nonEmpty_eq_nil_iff {writes : List Bytes} :
    nonEmpty writes = [] ↔ ∀ s ∈ writes, s = [] := by
  simp [nonEmpty, List.filter_eq_nil_iff]

/-- The state after the non-empty writes `written`: nothing written yet, or
`Stored`. -/
def Collected (o : Output) (written : List Bytes) : Prop :=
  (written = [] ∧ o = Output.start 0) ∨
  ∃ front tail ptrs ptr earlier latest,
    written = earlier ++ [latest] ∧ Stored o front tail ptrs ptr earlier latest

/-- One write, empty or not, keeps the chain and the counter in step with what
was written. -/
theorem callbackOutput_collected {o : Output} {written : List Bytes} {a : Allocs} (str : Bytes)
    (h : Collected o written) (hbase : o.baseLen = (written.map List.length).sum)
    (ha : a.Succeed) (hsum : o.baseLen + str.length ≤ 2147483647) :
    ∃ o', callbackOutput a str o = .ok o' ∧
      Collected o' (written ++ nonEmpty [str]) ∧
      o'.baseLen = ((written ++ nonEmpty [str]).map List.length).sum := by
  have hadd : addInt o.baseLen str.length = o.baseLen + str.length :=
    addInt_eq (by omega) hsum
  by_cases hstr : str = []
  · subst hstr
    exact ⟨o, by simp [callbackOutput], by simpa [nonEmpty_cons_nil] using h,
      by simpa [nonEmpty_cons_nil] using hbase⟩
  · have hfilter : nonEmpty [str] = [str] := nonEmpty_cons hstr []
    have hlen : (((written ++ [str]).map List.length).sum : Int)
        = (written.map List.length).sum + str.length := by simp
    rw [hfilter]
    rcases h with ⟨rfl, rfl⟩ | ⟨front, tail, ptrs, ptr, earlier, latest, rfl, hstored⟩
    · obtain ⟨o', hcall, hst, hb⟩ := callbackOutput_first 0 ha hstr
      refine ⟨o', hcall, Or.inr ⟨[], 0, [], 0, [], str, rfl, hst⟩, ?_⟩
      rw [hb, hlen, ← hbase]
      exact hadd
    · obtain ⟨o', hcall, hst, hb⟩ := callbackOutput_next hstored ha hstr
      refine ⟨o', hcall, Or.inr ⟨_, _, _, _, _, _, rfl, hst⟩, ?_⟩
      rw [hb, hlen, ← hbase]
      exact hadd

/-- **Every sequence of writes.**  Routed writes of total length at most
`INT_MAX` leave the chain of exactly the non-empty ones and count their
bytes. -/
theorem toxicWrites_collected (index : Bytes) (rest : List RequestCallback) :
    ∀ (writes : List (Bytes × Allocs)) {o : Output} {written : List Bytes},
      Collected o written → o.baseLen = (written.map List.length).sum →
      (∀ w ∈ writes, w.2.Succeed) →
      o.baseLen + (writes.map (·.1.length)).sum ≤ 2147483647 →
      ∃ o', toxicWrites (⟨some index⟩ :: rest) index writes o = .ok o' ∧
        Collected o' (written ++ nonEmpty (writes.map Prod.fst)) ∧
        o'.baseLen = ((written ++ nonEmpty (writes.map Prod.fst)).map List.length).sum
  | [], o, written, h, hbase, _, _ => ⟨o, rfl, by simpa using h, by simpa using hbase⟩
  | (str, a) :: writes, o, written, h, hbase, hall, hsum => by
      have hsum' : o.baseLen + (str.length + (writes.map (·.1.length)).sum : Nat)
          ≤ 2147483647 := by simpa using hsum
      obtain ⟨o', hcall, hcol, hb⟩ := callbackOutput_collected str h hbase
        (hall (str, a) List.mem_cons_self) (by omega)
      have hgrow : o'.baseLen = o.baseLen + str.length := by
        rw [hb, hbase]
        by_cases hstr : str = []
        · simp [hstr, nonEmpty_cons_nil]
        · simp [nonEmpty_cons hstr]
      obtain ⟨o'', hrest, hcol', hb'⟩ := toxicWrites_collected index rest writes
        hcol hb
        (fun w hw => hall w (List.mem_cons_of_mem _ hw)) (by omega)
      have hfilter : written ++ nonEmpty [str] ++ nonEmpty (writes.map Prod.fst)
          = written ++ nonEmpty (((str, a) :: writes).map Prod.fst) := by
        rw [List.append_assoc, ← nonEmpty_append]
        rfl
      refine ⟨o'', ?_, hfilter ▸ hcol', hfilter ▸ hb'⟩
      have hroute : toxicOutput (⟨some index⟩ :: rest) (some index) a str o
          = callbackOutput a str o := toxicOutput_route index rest a o (by omega)
      simp only [toxicWrites, hroute, hcall, hrest]

/-- The buffers handed over after the non-empty writes `written`. -/
def storedBufs (written : List Bytes) : List NgxBuf :=
  written.dropLast.map (storedBuf · false) ++ written.getLast?.toList.map (storedBuf · true)

/-- The chain of a collected state is NULL-terminated and holds one buffer for
each non-empty write. -/
theorem Collected.chainBufs {o : Output} {written : List Bytes} (h : Collected o written) :
    o.chainBufs = some (storedBufs written) := by
  rcases h with ⟨rfl, rfl⟩ | ⟨front, tail, ptrs, ptr, earlier, latest, rfl, hstored⟩
  · rfl
  · simp [hstored.chainBufs, storedBufs]

/-- The handed over bytes are each write followed by a NUL byte. -/
theorem storedBufs_bytes (written : List Bytes) :
    ((storedBufs written).map NgxBuf.range).flatten = (written.map (· ++ [0])).flatten := by
  rcases List.eq_nil_or_concat written with rfl | ⟨earlier, latest, rfl⟩
  · rfl
  · simp [storedBufs, storedBuf_range, Function.comp_def]

/-- Every terminated string is one byte longer than the string. -/
theorem terminated_length (written : List Bytes) :
    ((written.map (· ++ [0])).flatten).length
      = (written.map List.length).sum + written.length := by
  induction written with
  | nil => rfl
  | cons s written ih =>
      simp only [List.map_cons, List.flatten_cons, List.length_append, ih, List.length_cons,
        List.sum_cons, List.length_nil]
      omega

/-- What a faithful response body asks of the handover: the
chain is NULL-terminated and its ranges are the writes, only its last buffer is
marked as the last one, and the announced length is the number of bytes. -/
structure BodyFaithful (h : Handover) (writes : List Bytes) : Prop where
  bytes : ∃ bufs, h.bufs = some bufs ∧ (bufs.map NgxBuf.range).flatten = writes.flatten
  flags : (∃ s ∈ writes, s ≠ []) → ∃ earlier final, h.bufs = some (earlier ++ [final]) ∧
    final.lastBuf = true ∧ final.lastInChain = true ∧
    ∀ b ∈ earlier, b.lastBuf = false ∧ b.lastInChain = false
  announced : ∃ bufs, h.bufs = some bufs ∧
    h.contentLengthN = ((bufs.map NgxBuf.range).flatten.length : Int)

/-- **When the response body is faithful.**  For every sequence of writes that
`toxic_output` routes to `callback_output`, the response handed over by
`exit_request` agrees with the writes if and only if all of them are empty: a
non-empty write puts its terminating NUL into the range of its buffer. -/
theorem bodyFaithful_iff (index : Bytes) (rest : List RequestCallback)
    (writes : List (Bytes × Allocs)) (halloc : ∀ w ∈ writes, w.2.Succeed)
    (htotal : (writes.map (·.1.length)).sum ≤ 2147483647) :
    ∃ o, toxicWrites (⟨some index⟩ :: rest) index writes (Output.start 0) = .ok o ∧
      (BodyFaithful (exitRequestHandover o) (writes.map Prod.fst) ↔
        ∀ s ∈ writes.map Prod.fst, s = []) := by
  have hstart : Collected (Output.start 0) [] := Or.inl ⟨rfl, rfl⟩
  have hfits : (Output.start 0).baseLen + (writes.map (·.1.length)).sum ≤ 2147483647 := by
    simp only [Output.start, Output.head]
    omega
  obtain ⟨o, hrun, hcol, hbase⟩ :=
    toxicWrites_collected index rest writes hstart rfl halloc hfits
  refine ⟨o, hrun, ?_⟩
  generalize hw : writes.map Prod.fst = strs at hcol hbase
  rw [List.nil_append] at hcol hbase
  have hbufs : (exitRequestHandover o).bufs = some (storedBufs (nonEmpty strs)) :=
    hcol.chainBufs
  constructor
  · intro hfaith
    obtain ⟨bufs, hsome, hlen⟩ := hfaith.announced
    obtain rfl := Option.some.inj (hbufs.symm.trans hsome)
    rw [storedBufs_bytes] at hlen
    have hcount : (exitRequestHandover o).contentLengthN
        = ((nonEmpty strs).map List.length).sum := hbase
    have hnone : (nonEmpty strs).length = 0 := by
      rw [hcount, terminated_length, Int.natCast_inj] at hlen
      omega
    exact nonEmpty_eq_nil_iff.mp (List.length_eq_zero_iff.mp hnone)
  · intro hempty
    rw [nonEmpty_eq_nil_iff.mpr hempty] at hbufs hbase
    refine ⟨⟨_, hbufs, ?_⟩, ?_, ⟨_, hbufs, hbase⟩⟩
    · exact (List.flatten_eq_nil_iff.mpr hempty).symm
    · rintro ⟨s, hs, hne⟩
      exact absurd (hempty s hs) hne

/-- One write of `A` and one empty write, with every allocation granted. -/
def sampleWrites : List (Bytes × Allocs) :=
  [([65], ⟨some ⟨none, none⟩, true, some fun _ => 255, true⟩),
   ([], ⟨some ⟨none, none⟩, true, some fun _ => 255, true⟩)]

/-- `bodyFaithful_iff` at a request that prints one letter. -/
theorem bodyFaithful_iff_sample :
    ∃ o, toxicWrites [⟨some [107]⟩] [107] sampleWrites (Output.start 0) = .ok o ∧
      (BodyFaithful (exitRequestHandover o) (sampleWrites.map Prod.fst) ↔
        ∀ s ∈ sampleWrites.map Prod.fst, s = []) :=
  bodyFaithful_iff [107] [] sampleWrites
    (by simp [sampleWrites, Allocs.Succeed]) (by decide)

/-- The response to the single write `A` is announced with one byte and handed
over with two. -/
theorem single_write_not_faithful :
    ∃ o, toxicWrites [⟨some [107]⟩] [107] [([65], ⟨some ⟨none, none⟩, true, some fun _ => 255, true⟩)]
        (Output.start 0) = .ok o ∧
      ¬ BodyFaithful (exitRequestHandover o) [[65]] := by
  refine ⟨_, rfl, ?_⟩
  intro hfaith
  obtain ⟨bufs, hsome, hbytes⟩ := hfaith.bytes
  obtain rfl : [storedBuf [65] true] = bufs := Option.some.inj hsome
  exact absurd hbytes (by decide)

end Toxic
