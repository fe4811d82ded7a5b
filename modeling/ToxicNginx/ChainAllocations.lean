import ToxicNginx.OutputChain

/-!
# Failing allocations of the output chain

`callback_output` attaches a new link and makes it the tail before the buffer
of the link is allocated, and tests only one of its four allocations; the first
link comes from `toxic_excecute`, which tests nothing either.  This file follows
any sequence of calls with any answers of `malloc` and `ngx_pcalloc`.

* `Allocs.Granted` — the allocations a call asks for all succeed;
* `ChainSound` — the chain from `out_chain` is terminated, ends in
  `temp_chain`, and its links hold the stored writes that `base_len` counts;
* `callbackOutput_granted`, `callbackOutput_denied` — one call on a chain of
  stored writes, and what a refused allocation leaves;
* `writesSafe_iff` — the calls after which every chain is sound, and that a
  refused call leaves alone: a refusal must be that of the first buffer, or that
  of the first link when nothing is written at all.
-/

namespace Toxic

open LinkedCells

/-- The allocations one call asks for succeed; `first` says that the tail has
no buffer, and then no link is asked for. -/
def Allocs.Granted (a : Allocs) (first : Prop) : Prop :=
  (first ∨ a.link.isSome) ∧ a.buf = true ∧ a.block.isSome ∧ a.file = true

instance (a : Allocs) (first : Prop) [Decidable first] : Decidable (a.Granted first) := by
  unfold Allocs.Granted; infer_instance

/-- The writes whose buffers are in the chain after one more call: an empty
write and one that is refused an allocation store nothing. -/
def storedBy (stored : List Bytes) (w : Bytes × Allocs) : List Bytes :=
  if w.1 ≠ [] ∧ w.2.Granted (stored = []) then stored ++ [w.1] else stored

/-- The buffer a link points to. -/
def Output.bufAt (o : Output) (l : Nat) : Option NgxBuf := (o.links l).buf.map o.bufs

/-- A buffer is filled with a write. -/
structure NgxBuf.Holds (b : NgxBuf) (str : Bytes) : Prop where
  data : str <+: b.range
  memory : b.memory = true
  file : b.file.isSome

/-- The list from `out_chain` after the writes `stored`.  Before the first one
it has no buffer: it is the zeroed link of the request pool, or empty. -/
structure ChainSound (o : Output) (stored : List Bytes) : Prop where
  chain : ∃ as, Segment NgxChain.next o.links o.outChain as none ∧ as.getLast? = o.tempChain ∧
    (∀ l ∈ as, l < o.linkCount ∧ ∀ p, (o.links l).buf = some p → p < o.bufCount) ∧
    (stored = [] → as.length ≤ 1 ∧ ∀ l ∈ as, o.bufAt l = none) ∧
    (stored ≠ [] → List.Forall₂ (fun l str => ∃ b, o.bufAt l = some b ∧ b.Holds str) as stored)
  counted : o.baseLen = ((stored.map List.length).sum : Nat)

/-- The chain, the flags of its buffers and `base_len` are as before. -/
structure Untouched (o o' : Output) : Prop where
  outChain : o'.outChain = o.outChain
  tempChain : o'.tempChain = o.tempChain
  links : ∀ l < o.linkCount, o'.links l = o.links l
  bufs : ∀ p < o.bufCount, o'.bufs p = o.bufs p
  baseLen : o'.baseLen = o.baseLen

/-- After every call of the sequence the process goes on with a sound chain,
which a call that stores nothing has left alone. -/
def WritesSafe : List (Bytes × Allocs) → List Bytes → Output → Prop
  | [], _, _ => True
  | w :: rest, stored, o => ∃ o', callbackOutput w.2 w.1 o = .ok o' ∧
      ChainSound o' (storedBy stored w) ∧
      (¬ w.2.Granted (stored = []) → Untouched o o') ∧
      WritesSafe rest (storedBy stored w) o'

/-- A call that goes well: it writes nothing, or its allocations succeed and
the count stays an `int`, or the refused allocation is that of the first
buffer. -/
def CallOk (stored : List Bytes) (w : Bytes × Allocs) : Prop :=
  w.1 = [] ∨
  (w.2.Granted (stored = []) ∧
    (stored.map List.length).sum + w.1.length ≤ 2147483647) ∨
  (stored = [] ∧ w.2.buf = false)

/-- Every call goes well. -/
def CallsOk : List Bytes → List (Bytes × Allocs) → Prop
  | _, [] => True
  | stored, w :: rest => CallOk stored w ∧ CallsOk (storedBy stored w) rest

@[simp] theorem storedBy_nil (stored : List Bytes) (a : Allocs) :
    storedBy stored ([], a) = stored := by
  simp [storedBy]

theorem storedBy_granted {stored : List Bytes} {str : Bytes} {a : Allocs} (hstr : str ≠ [])
    (ha : a.Granted (stored = [])) : storedBy stored (str, a) = stored ++ [str] :=
  if_pos ⟨hstr, ha⟩

theorem storedBy_denied {stored : List Bytes} {str : Bytes} {a : Allocs}
    (ha : ¬ a.Granted (stored = [])) : storedBy stored (str, a) = stored :=
  if_neg fun h => ha h.2

/-- A stored buffer holds its write. -/
theorem storedBuf_holds (str : Bytes) (final : Bool) : (storedBuf str final).Holds str where
  data := by
    rw [storedBuf_range]
    exact List.prefix_append str [0]
  memory := rfl
  file := rfl

/-- What each stored buffer is to its write, the buffers handed over are to the
writes, in order. -/
theorem storedBufs_forall₂ {R : NgxBuf → Bytes → Prop}
    (hstored : ∀ str final, R (storedBuf str final) str) (written : List Bytes) :
    List.Forall₂ R (storedBufs written) written := by
  rcases List.eq_nil_or_concat written with rfl | ⟨earlier, latest, rfl⟩
  · exact List.Forall₂.nil
  · have hearlier : List.Forall₂ R (earlier.map (storedBuf · false)) earlier :=
      List.forall₂_map_left_iff.mpr (List.forall₂_same.mpr fun str _ => hstored str false)
    have hlatest : List.Forall₂ R [storedBuf latest true] [latest] :=
      List.Forall₂.cons (hstored latest true) List.Forall₂.nil
    simpa [storedBufs] using List.rel_append hearlier hlatest

/-- The links of a stored state point to the buffers of its writes. -/
theorem Stored.bufsAt {o : Output} {front : List Nat} {tail : Nat} {ptrs : List Nat}
    {ptr : Nat} {earlier : List Bytes} {latest : Bytes}
    (h : Stored o front tail ptrs ptr earlier latest) :
    (front ++ [tail]).map o.bufAt = (storedBufs (earlier ++ [latest])).map some := by
  have hfront : front.map o.bufAt = (earlier.map (storedBuf · false)).map some := by
    calc front.map o.bufAt
        = (front.map fun l => (o.links l).buf).map (Option.map o.bufs) := by
          rw [List.map_map]; rfl
      _ = (ptrs.map o.bufs).map some := by
          rw [h.frontBufs, List.map_map, List.map_map]; rfl
      _ = (earlier.map (storedBuf · false)).map some := by rw [h.frontHold]
  have htail : o.bufAt tail = some (storedBuf latest true) := by
    rw [Output.bufAt, h.tailBuf, Option.map_some, h.tailHolds]
  rw [List.map_append, hfront]
  simp [storedBufs, htail]

/-- The state after the non-empty writes `written`, when `base_len` started with
`base`. -/
def CollectedFrom (base : Int) (o : Output) (written : List Bytes) : Prop :=
  (written = [] ∧ o = Output.start base) ∨
  ∃ front tail ptrs ptr earlier latest,
    written = earlier ++ [latest] ∧ Stored o front tail ptrs ptr earlier latest

/-- The chain of a collected state holds one buffer for each write. -/
theorem CollectedFrom.chainBufs {base : Int} {o : Output} {written : List Bytes}
    (h : CollectedFrom base o written) : o.chainBufs = some (storedBufs written) := by
  rcases h with ⟨rfl, rfl⟩ | ⟨front, tail, ptrs, ptr, earlier, latest, rfl, hst⟩
  · rfl
  · simp [hst.chainBufs, storedBufs]

/-- **A collected chain is sound** when its count is right. -/
theorem CollectedFrom.sound {base : Int} {o : Output} {stored : List Bytes}
    (h : CollectedFrom base o stored)
    (hbase : o.baseLen = ((stored.map List.length).sum : Nat)) : ChainSound o stored := by
  refine ⟨?_, hbase⟩
  rcases h with ⟨rfl, rfl⟩ | ⟨front, tail, ptrs, ptr, earlier, latest, rfl, hst⟩
  · refine ⟨[0], Segment.cons (Segment.nil _), rfl, ?_, fun _ => ⟨le_refl 1, ?_⟩,
      fun h => absurd rfl h⟩
    · intro l hl
      obtain rfl := List.mem_singleton.mp hl
      exact ⟨Nat.zero_lt_one, fun p hp => by simp [Output.start, Output.head] at hp⟩
    · exact fun l _ => rfl
  · refine ⟨front ++ [tail], hst.segment, ?_, ?_, fun h => by simp at h, fun _ => ?_⟩
    · rw [hst.temp]
      exact List.getLast?_concat
    · intro l hl
      refine ⟨hst.fresh l hl, fun p hp => hst.ptrsFresh p ?_⟩
      rcases List.mem_append.mp hl with hl | hl
      · have hmem : some p ∈ ptrs.map some := by
          rw [← hst.frontBufs, ← hp]
          exact List.mem_map_of_mem hl
        obtain ⟨q, hq, hqp⟩ := List.mem_map.mp hmem
        exact List.mem_append_left _ (Option.some.inj hqp ▸ hq)
      · obtain rfl := List.mem_singleton.mp hl
        obtain rfl := Option.some.inj (hst.tailBuf.symm.trans hp)
        simp
    · have hall := storedBufs_forall₂ storedBuf_holds (earlier ++ [latest])
      have hsome : List.Forall₂ (fun ob str => ∃ b, ob = some b ∧ NgxBuf.Holds b str)
          ((storedBufs (earlier ++ [latest])).map some) (earlier ++ [latest]) :=
        List.forall₂_map_left_iff.mpr (hall.imp fun b str hb => ⟨b, rfl, hb⟩)
      rw [← hst.bufsAt] at hsome
      exact List.forall₂_map_left_iff.mp hsome

/-- An `int` sum is at most `INT_MAX`. -/
theorem addInt_le (base : Int) (len : Nat) : addInt base len ≤ 2147483647 := by
  have h := Int.bmod_le (x := base + len) (m := 2 ^ 32) (by decide)
  unfold addInt
  omega

/-- The first call does not ask for a link. -/
theorem callbackOutput_start (base : Int) (a : Allocs) (str : Bytes) :
    callbackOutput a str (Output.start base)
      = callbackOutput { a with link := some ⟨none, none⟩ } str (Output.start base) := rfl

/-- **Granted call.**  A call whose allocations succeed stores its write. -/
theorem callbackOutput_granted {base : Int} {o : Output} {stored : List Bytes} {a : Allocs}
    {str : Bytes} (h : CollectedFrom base o stored) (hstr : str ≠ [])
    (ha : a.Granted (stored = [])) :
    ∃ o', callbackOutput a str o = .ok o' ∧ CollectedFrom base o' (stored ++ [str]) ∧
      o'.baseLen = addInt o.baseLen str.length := by
  obtain ⟨hlink, hbuf, hblock, hfile⟩ := ha
  rcases h with ⟨rfl, rfl⟩ | ⟨front, tail, ptrs, ptr, earlier, latest, rfl, hst⟩
  · have hall : Allocs.Succeed { a with link := some ⟨none, none⟩ } := ⟨rfl, hbuf, hblock, hfile⟩
    obtain ⟨o', hcall, hst, hbase⟩ := callbackOutput_first base hall hstr
    exact ⟨o', (callbackOutput_start base a str).trans hcall,
      Or.inr ⟨[], 0, [], 0, [], str, rfl, hst⟩, hbase⟩
  · have hsome : a.link.isSome := hlink.resolve_left (by simp)
    obtain ⟨o', hcall, hst', hbase⟩ := callbackOutput_next hst ⟨hsome, hbuf, hblock, hfile⟩ hstr
    exact ⟨o', hcall, Or.inr ⟨_, _, _, _, _, _, rfl, hst'⟩, hbase⟩

/-- Where the last part of `callback_output` returns without storing, it is
the buffer that was refused. -/
theorem fillLink_denied {o o' : Output} {a : Allocs} {str : Bytes}
    (ha : ¬ (o.tempChain.isSome ∧ a.buf = true ∧ a.block.isSome ∧ a.file = true))
    (hcall : o.fillLink a str = .ok o') : a.buf = false ∧ o' = o := by
  by_cases hbuf : a.buf = false
  · rw [Output.fillLink, if_pos hbuf] at hcall
    exact ⟨hbuf, (Except.ok.inj hcall).symm⟩
  · rw [Output.fillLink, if_neg hbuf] at hcall
    split at hcall
    · rename_i t mem ht hblock hfile
      exact absurd ⟨by simp [ht], by simpa using hbuf, by simp [hblock], hfile⟩ ha
    · cases hcall

/-- **Refused call.**  A call that is refused an allocation and returns was
refused the first buffer, or it has moved the tail. -/
theorem callbackOutput_denied {base : Int} {o o' : Output} {stored : List Bytes} {a : Allocs}
    {str : Bytes} (h : CollectedFrom base o stored) (hstr : str ≠ [])
    (ha : ¬ a.Granted (stored = []))
    (hcall : callbackOutput a str o = .ok o') :
    a.buf = false ∧ o'.baseLen = o.baseLen ∧
      (stored = [] ∧ o' = o ∨ stored ≠ [] ∧ o'.tempChain ≠ o.tempChain) := by
  have hlen : ¬ str.length ≤ 0 := by simpa using hstr
  rcases h with ⟨rfl, rfl⟩ | ⟨front, tail, ptrs, ptr, earlier, latest, rfl, hst⟩
  · have hfill : (Output.start base).fillLink a str = .ok o' := by
      rw [← hcall, callbackOutput, if_neg hlen]
      rfl
    have hnot : ¬ ((Output.start base).tempChain.isSome ∧ a.buf = true ∧ a.block.isSome ∧
        a.file = true) := fun h => ha ⟨Or.inl rfl, h.2⟩
    obtain ⟨hbuf, rfl⟩ := fillLink_denied hnot hfill
    exact ⟨hbuf, rfl, Or.inl ⟨rfl, rfl⟩⟩
  · have hfill : (o.nextLink tail ptr a.link).fillLink a str = .ok o' := by
      rw [← hcall, callbackOutput, if_neg hlen]
      simp only [hst.temp, hst.tailBuf]
    have hnot : ¬ ((o.nextLink tail ptr a.link).tempChain.isSome ∧ a.buf = true ∧
        a.block.isSome ∧ a.file = true) := by
      rintro ⟨htemp, hrest⟩
      refine ha ⟨Or.inr ?_, hrest⟩
      cases hl : a.link with
      | none => simp [Output.nextLink, hl] at htemp
      | some junk => rfl
    obtain ⟨hbuf, rfl⟩ := fillLink_denied hnot hfill
    have hbase : (o.nextLink tail ptr a.link).baseLen = o.baseLen := by
      unfold Output.nextLink
      cases a.link with
      | none => rfl
      | some junk => rfl
    refine ⟨hbuf, hbase, Or.inr ⟨by simp, ?_⟩⟩
    have hfresh : tail < o.linkCount := hst.fresh tail (by simp)
    rw [hst.temp]
    cases a.link with
    | none => simp [Output.nextLink]
    | some junk =>
        have hne : o.linkCount ≠ tail := by omega
        simpa [Output.nextLink] using hne

/-- A chain is as before when nothing happened. -/
theorem Untouched.refl (o : Output) : Untouched o o :=
  ⟨rfl, rfl, fun _ _ => rfl, fun _ _ => rfl, rfl⟩

/-- **Step lemma.**  A call that goes well keeps the chain of the stored
writes, and does nothing when it stores nothing. -/
theorem callbackOutput_ok {base : Int} {o : Output} {stored : List Bytes}
    {w : Bytes × Allocs} (h : CollectedFrom base o stored)
    (hbase : o.baseLen = ((stored.map List.length).sum : Nat))
    (hok : CallOk stored w) :
    ∃ o', callbackOutput w.2 w.1 o = .ok o' ∧ CollectedFrom base o' (storedBy stored w) ∧
      o'.baseLen = (((storedBy stored w).map List.length).sum : Nat) ∧
      (¬ w.2.Granted (stored = []) → o' = o) := by
  obtain ⟨str, a⟩ := w
  by_cases hstr : str = []
  · subst hstr
    rw [storedBy_nil]
    exact ⟨o, by simp [callbackOutput], h, hbase, fun _ => rfl⟩
  rcases hok with hnil | ⟨ha, htotal⟩ | ⟨rfl, hbuf⟩
  · exact absurd hnil hstr
  · obtain ⟨o', hcall, hcol, hbase'⟩ := callbackOutput_granted h hstr ha
    rw [storedBy_granted hstr ha]
    refine ⟨o', hcall, hcol, ?_, fun hn => absurd ha hn⟩
    have hsum : addInt o.baseLen str.length = o.baseLen + str.length :=
      addInt_eq (by omega) (by simp only at htotal; omega)
    rw [hbase', hsum, hbase]
    simp
  · have ha : ¬ a.Granted (([] : List Bytes) = []) := fun hg => by simp [hg.2.1] at hbuf
    have hlen : ¬ str.length ≤ 0 := by simpa using hstr
    rw [storedBy_denied ha]
    refine ⟨o, ?_, h, hbase, fun _ => rfl⟩
    obtain ⟨-, rfl⟩ | ⟨front, tail, ptrs, ptr, earlier, latest, hnil, -⟩ := h
    · have hfill : (Output.start base).fillLink a str = .ok (Output.start base) := by
        rw [Output.fillLink, if_pos hbuf]
      rw [← hfill, callbackOutput, if_neg hlen]
      rfl
    · simp at hnil

/-- A call that keeps the chain sound, and leaves it alone when it stores
nothing, goes well. -/
theorem callOk_of_safe {base : Int} {o o' : Output} {stored : List Bytes}
    {w : Bytes × Allocs} (h : CollectedFrom base o stored)
    (hcall : callbackOutput w.2 w.1 o = .ok o')
    (hsound : ChainSound o' (storedBy stored w))
    (huntouched : ¬ w.2.Granted (stored = []) → Untouched o o') : CallOk stored w := by
  obtain ⟨str, a⟩ := w
  by_cases hstr : str = []
  · exact Or.inl hstr
  by_cases ha : a.Granted (stored = [])
  · obtain ⟨o₁, hcall₁, -, hbase₁⟩ := callbackOutput_granted h hstr ha
    obtain rfl := Except.ok.inj (hcall.symm.trans hcall₁)
    have hcounted := hsound.counted
    rw [storedBy_granted hstr ha, hbase₁] at hcounted
    have hle := addInt_le o.baseLen str.length
    rw [hcounted] at hle
    simp only [List.map_append, List.sum_append, List.map_cons, List.map_nil, List.sum_cons,
      List.sum_nil] at hle
    exact Or.inr (Or.inl ⟨ha, by simp only; omega⟩)
  · obtain ⟨hbuf, -, hstored | ⟨-, htail⟩⟩ := callbackOutput_denied h hstr ha hcall
    · exact Or.inr (Or.inr ⟨hstored.1, hbuf⟩)
    · exact absurd (huntouched ha).tempChain htail

/-- **Run lemma.**  From a collected chain, a sequence of calls is safe exactly
if every call goes well. -/
theorem CollectedFrom.safe_iff {base : Int} {calls : List (Bytes × Allocs)} {o : Output}
    {stored : List Bytes} (h : CollectedFrom base o stored)
    (hbase : o.baseLen = ((stored.map List.length).sum : Nat)) :
    WritesSafe calls stored o ↔ CallsOk stored calls := by
  induction calls generalizing o stored with
  | nil => exact Iff.rfl
  | cons w rest ih =>
      constructor
      · rintro ⟨o', hcall, hsound, huntouched, hrest⟩
        have hok := callOk_of_safe h hcall hsound huntouched
        obtain ⟨o₁, hcall₁, hcol, hbase₁, -⟩ := callbackOutput_ok h hbase hok
        obtain rfl := Except.ok.inj (hcall.symm.trans hcall₁)
        exact ⟨hok, (ih hcol hbase₁).mp hrest⟩
      · rintro ⟨hok, hrest⟩
        obtain ⟨o', hcall, hcol, hbase', hsame⟩ := callbackOutput_ok h hbase hok
        refine ⟨o', hcall, hcol.sound hbase', fun ha => ?_, (ih hcol hbase').mpr hrest⟩
        rw [hsame ha]
        exact Untouched.refl o

/-- An `int` that adds nothing to a length is zero. -/
theorem eq_zero_of_addInt {base : Int32} {len : Nat} (h : addInt base.toInt len = len) :
    base = 0 := by
  have hlow := base.le_toInt
  have hhigh := base.toInt_lt
  rw [addInt, Int.bmod_eq_self_sub_mul_bdiv] at h
  have hzero : base.toInt = 0 := by omega
  exact Int32.toInt_inj.mp hzero

/-- A count that does not start at zero is wrong after the first call. -/
theorem base_eq_zero_of_safe {base : Int32} {w : Bytes × Allocs} {rest : List (Bytes × Allocs)}
    (h : WritesSafe (w :: rest) [] (Output.start base.toInt)) : base = 0 := by
  obtain ⟨o', hcall, hsound, huntouched, -⟩ := h
  obtain ⟨str, a⟩ := w
  have hcounted := hsound.counted
  by_cases hstr : str = []
  · subst hstr
    obtain rfl : Output.start base.toInt = o' := by
      simpa [callbackOutput] using hcall
    rw [storedBy_nil] at hcounted
    exact Int32.toInt_inj.mp hcounted
  have hstart : CollectedFrom base.toInt (Output.start base.toInt) [] := Or.inl ⟨rfl, rfl⟩
  by_cases ha : a.Granted (([] : List Bytes) = [])
  · obtain ⟨o₁, hcall₁, -, hbase⟩ := callbackOutput_granted hstart hstr ha
    obtain rfl := Except.ok.inj (hcall.symm.trans hcall₁)
    rw [storedBy_granted hstr ha, hbase] at hcounted
    have hsum : addInt base.toInt str.length = str.length := by
      simpa [Output.start, Output.head] using hcounted
    exact eq_zero_of_addInt hsum
  · rw [storedBy_denied ha, (huntouched ha).baseLen] at hcounted
    exact Int32.toInt_inj.mp hcounted

/-- Without a first link a sequence of calls is safe exactly if it writes
nothing: the first write dereferences NULL. -/
theorem writesSafe_nolink {base : Int32} {calls : List (Bytes × Allocs)} :
    WritesSafe calls [] (Output.head false base.toInt) ↔
      (calls = [] ∨ base = 0) ∧ ∀ w ∈ calls, w.1 = [] := by
  induction calls with
  | nil => simp [WritesSafe]
  | cons w rest ih =>
      obtain ⟨str, a⟩ := w
      have hcall : callbackOutput a str (Output.head false base.toInt)
          = if str = [] then .ok (Output.head false base.toInt) else .error .nullDereference := by
        cases str <;> rfl
      constructor
      · rintro ⟨o', hok, hsound, -, hrest⟩
        simp only [hcall] at hok
        by_cases hstr : str = []
        · rw [if_pos hstr] at hok
          obtain rfl := Except.ok.inj hok
          subst hstr
          rw [storedBy_nil] at hsound hrest
          have hbase : base = 0 := Int32.toInt_inj.mp hsound.counted
          exact ⟨Or.inr hbase, List.forall_mem_cons.mpr ⟨rfl, (ih.mp hrest).2⟩⟩
        · rw [if_neg hstr] at hok
          cases hok
      · rintro ⟨hbase, hempty⟩
        obtain ⟨rfl, hrest⟩ := List.forall_mem_cons.mp hempty
        obtain rfl := hbase.resolve_left (List.cons_ne_nil _ _)
        refine ⟨Output.head false 0, hcall, ?_, fun _ => Untouched.refl _, ?_⟩
        · rw [storedBy_nil]
          refine ⟨⟨[], Segment.nil _, rfl, fun l hl => absurd hl List.not_mem_nil,
            fun _ => ⟨Nat.zero_le 1, fun l hl => absurd hl List.not_mem_nil⟩,
            fun h => absurd rfl h⟩, rfl⟩
        · rw [storedBy_nil]
          exact ih.mpr ⟨Or.inr rfl, hrest⟩

/-- Calls that write nothing go well. -/
theorem callsOk_of_empty {stored : List Bytes} {calls : List (Bytes × Allocs)}
    (h : ∀ w ∈ calls, w.1 = []) : CallsOk stored calls := by
  induction calls with
  | nil => trivial
  | cons w rest ih =>
      obtain ⟨hw, hrest⟩ := List.forall_mem_cons.mp h
      have hstored : storedBy stored w = stored := by
        unfold storedBy
        exact if_neg fun hgranted => hgranted.1 hw
      exact ⟨Or.inl hw, by rw [hstored]; exact ih hrest⟩

/-- **When the chain survives its allocations.**  For every sequence of calls,
every pattern of refused allocations, that of `out_chain` included, and every
`base_len` the request starts with, the chain is sound after each call, and left
alone by those that are refused an allocation, exactly if the count starts at
zero, every call goes well — nothing is refused but the first buffer, and the
total stays an `int` — and there is a first link, or nothing is written. -/
theorem writesSafe_iff (granted : Bool) (base : Int32) (calls : List (Bytes × Allocs)) :
    WritesSafe calls [] (Output.head granted base.toInt) ↔
      (calls = [] ∨ base = 0) ∧ CallsOk [] calls ∧ (granted = true ∨ ∀ w ∈ calls, w.1 = []) := by
  cases granted with
  | false =>
      rw [writesSafe_nolink]
      constructor
      · rintro ⟨hbase, hempty⟩
        exact ⟨hbase, callsOk_of_empty hempty, Or.inr hempty⟩
      · rintro ⟨hbase, -, hempty⟩
        exact ⟨hbase, hempty.resolve_left Bool.false_ne_true⟩
  | true =>
      have hstart : CollectedFrom 0 (Output.start 0) [] := Or.inl ⟨rfl, rfl⟩
      have hzero : WritesSafe calls [] (Output.start 0) ↔ CallsOk [] calls :=
        hstart.safe_iff rfl
      constructor
      · intro h
        cases calls with
        | nil => exact ⟨Or.inl rfl, trivial, Or.inl rfl⟩
        | cons w rest =>
            obtain rfl := base_eq_zero_of_safe h
            exact ⟨Or.inr rfl, hzero.mp h, Or.inl rfl⟩
      · rintro ⟨rfl | rfl, hok, -⟩
        · trivial
        · exact hzero.mpr hok

/-- The second write is refused the memory for its buffer and the process
goes on with a tail that holds garbage. -/
theorem refused_buffer_moves_tail :
    ¬ WritesSafe [([65], ⟨none, true, some fun _ => 255, true⟩),
      ([66], ⟨some ⟨some 7, some 9⟩, false, some fun _ => 255, true⟩)] []
      (Output.head true 0) := by
  rintro ⟨o₁, hcall₁, -, -, o₂, hcall₂, -, huntouched, -⟩
  obtain rfl := Except.ok.inj hcall₁
  obtain rfl := Except.ok.inj hcall₂
  have htemp := (huntouched (by decide)).tempChain
  exact absurd htemp (by decide)

end Toxic
