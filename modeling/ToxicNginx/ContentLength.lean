import ToxicNginx.ChainAllocations
import ToxicNginx.OutputHandlers

/-!
# The announced length

The length of a write is a `size_t` in `php_output_op`, an `unsigned int` in
`toxic_output` and `callback_output`, is added to the `int` `base_len`, and
ends as the `off_t` `content_length_n` and in the comparison with
`r->connection->sent`.  The writes here are what `php_output_op` passes on: a
script's writes, or a buffer that is flushed.

* `phpOutputOp` — one write from `php_output_op` to `callback_output`;
* `NumbersExact` — every number is the one it stands for;
* `NumbersKept` — before, between and after the writes;
* `numbersKept_iff` — the writes for which this is so: at most `INT_MAX` bytes
  in all.
-/

namespace Toxic

/-- `php_output_op(PHP_OUTPUT_HANDLER_WRITE, str, len)` without a handler: the
string goes to `toxic_output` with a `size_t` length. -/
def phpOutputOp (callbacks : List RequestCallback) (index : Bytes) (a : Allocs) (str : Bytes)
    (o : Output) : Except Fault Output :=
  let out := (outputOp .write [] str).2
  if out.isEmpty then .ok o else toxicOutput callbacks (some index) a out o

/-- `r->connection->sent >= base_len`, an `off_t` and an `int`. -/
def sentAll (sent : Nat) (o : Output) : Bool := decide (o.baseLen ≤ sent)

/-- The copy of a write: all its bytes, in an allocation of one more. -/
structure NgxBuf.Copies (b : NgxBuf) (str : Bytes) : Prop where
  data : str <+: b.range
  room : b.block.length = str.length + 1

/-- The numbers after the writes `strs`: the announced length is their total,
each of them is copied in full, and the comparison is one with their total. -/
structure NumbersExact (o : Output) (strs : List Bytes) : Prop where
  announced : (exitRequestHandover o).contentLengthN = ((strs.map List.length).sum : Nat)
  copied : ∃ bufs, (exitRequestHandover o).bufs = some bufs ∧
    List.Forall₂ NgxBuf.Copies bufs (nonEmpty strs)
  compared : ∀ sent, sentAll sent o = decide ((strs.map List.length).sum ≤ sent)

/-- The numbers are exact before, between and after the writes. -/
def NumbersKept (callbacks : List RequestCallback) (index : Bytes) :
    List Bytes → List (Bytes × Allocs) → Output → Prop
  | strs, [], o => NumbersExact o strs
  | strs, w :: rest, o => NumbersExact o strs ∧
      ∃ o', phpOutputOp callbacks index w.2 w.1 o = .ok o' ∧
        NumbersKept callbacks index (strs ++ [w.1]) rest o'

/-- No write is refused an allocation. -/
def AllGranted : List Bytes → List (Bytes × Allocs) → Prop
  | _, [] => True
  | stored, w :: rest =>
      (w.1 = [] ∨ w.2.Granted (stored = [])) ∧ AllGranted (storedBy stored w) rest

/-- A write reaches `callback_output` with the length of an `unsigned int`. -/
theorem phpOutputOp_eq (index : Bytes) (rest : List RequestCallback) (a : Allocs) (str : Bytes)
    (o : Output) :
    phpOutputOp (⟨some index⟩ :: rest) index a str o = callbackOutput a (cutLength str) o := by
  unfold phpOutputOp outputOp
  cases str with
  | nil => rfl
  | cons c str =>
      dsimp only
      rw [if_neg (by simp), toxicOutput_cutLength]

/-- A string that an `unsigned int` can count is not cut. -/
theorem cutLength_eq {str : Bytes} (h : str.length < 2 ^ 32) : cutLength str = str := by
  unfold cutLength
  rw [Nat.mod_eq_of_lt h, List.take_length]

/-- A stored buffer copies its write. -/
theorem storedBuf_copies (str : Bytes) (final : Bool) : (storedBuf str final).Copies str where
  data := (storedBuf_holds str final).data
  room := by simp [storedBuf]

/-- The non-empty writes have all the bytes. -/
theorem nonEmpty_total (strs : List Bytes) :
    ((nonEmpty strs).map List.length).sum = (strs.map List.length).sum := by
  induction strs with
  | nil => rfl
  | cons str strs ih =>
      by_cases hstr : str = []
      · subst hstr
        simpa [nonEmpty_cons_nil] using ih
      · simp [nonEmpty_cons hstr, ih]

/-- The numbers of a collected chain are exact when its count is. -/
theorem CollectedFrom.numbersExact {base : Int} {o : Output} {strs : List Bytes}
    (h : CollectedFrom base o (nonEmpty strs))
    (hbase : o.baseLen = ((strs.map List.length).sum : Nat)) : NumbersExact o strs where
  announced := hbase
  copied := ⟨_, h.chainBufs, storedBufs_forall₂ storedBuf_copies _⟩
  compared := by
    intro sent
    unfold sentAll
    rw [hbase]
    exact decide_eq_decide.mpr Int.ofNat_le

theorem NumbersKept.exact {callbacks : List RequestCallback} {index : Bytes} {strs : List Bytes}
    {writes : List (Bytes × Allocs)} {o : Output}
    (h : NumbersKept callbacks index strs writes o) : NumbersExact o strs := by
  cases writes with
  | nil => exact h
  | cons w rest => exact h.1

/-- What one write does to the list of the stored ones. -/
theorem storedBy_nonEmpty {strs : List Bytes} {w : Bytes × Allocs}
    (hw : w.1 = [] ∨ w.2.Granted (nonEmpty strs = [])) :
    storedBy (nonEmpty strs) w = nonEmpty (strs ++ [w.1]) := by
  obtain ⟨str, a⟩ := w
  rw [nonEmpty_append]
  by_cases hstr : str = []
  · subst hstr
    rw [storedBy_nil]
    exact (List.append_nil _).symm
  · rw [storedBy_granted hstr (hw.resolve_left hstr), nonEmpty_cons hstr]
    rfl

/-- The count after one write more. -/
theorem total_concat (strs : List Bytes) (str : Bytes) :
    ((strs ++ [str]).map List.length).sum = (strs.map List.length).sum + str.length := by
  simp

section

variable {index : Bytes} {rest : List RequestCallback} {o : Output} {strs : List Bytes}
  {w : Bytes × Allocs}

/-- **A granted write** that keeps the total an `int` keeps the numbers
exact. -/
theorem phpOutputOp_exact (h : CollectedFrom 0 o (nonEmpty strs))
    (hbase : o.baseLen = ((strs.map List.length).sum : Nat))
    (hw : w.1 = [] ∨ w.2.Granted (nonEmpty strs = []))
    (htotal : (strs.map List.length).sum + w.1.length ≤ 2147483647) :
    ∃ o', phpOutputOp (⟨some index⟩ :: rest) index w.2 w.1 o = .ok o' ∧
      CollectedFrom 0 o' (nonEmpty (strs ++ [w.1])) ∧
      o'.baseLen = (((strs ++ [w.1]).map List.length).sum : Nat) := by
  rw [phpOutputOp_eq, cutLength_eq (by omega), total_concat]
  have hok : CallOk (nonEmpty strs) w := by
    rcases hw with hstr | ha
    · exact Or.inl hstr
    · exact Or.inr (Or.inl ⟨ha, by rwa [nonEmpty_total]⟩)
  obtain ⟨o', hcall, hcol, hcount, -⟩ := callbackOutput_ok h (by rw [nonEmpty_total, hbase]) hok
  rw [storedBy_nonEmpty hw] at hcol hcount
  rw [nonEmpty_total, total_concat] at hcount
  exact ⟨o', hcall, hcol, hcount⟩

/-- A write after which the length is still the total was granted, and the
total is an `int`. -/
theorem granted_of_announced {o' : Output} (h : CollectedFrom 0 o (nonEmpty strs))
    (hbase : o.baseLen = ((strs.map List.length).sum : Nat))
    (hcall : phpOutputOp (⟨some index⟩ :: rest) index w.2 w.1 o = .ok o')
    (hannounced : o'.baseLen = (((strs ++ [w.1]).map List.length).sum : Nat))
    (hint : o.baseLen ≤ 2147483647) :
    (w.1 = [] ∨ w.2.Granted (nonEmpty strs = [])) ∧
      (strs.map List.length).sum + w.1.length ≤ 2147483647 := by
  obtain ⟨str, a⟩ := w
  rw [phpOutputOp_eq] at hcall
  rw [total_concat] at hannounced
  dsimp only at hcall hannounced ⊢
  by_cases hstr : cutLength str = []
  · -- nothing is counted, and so nothing was to be counted
    rw [hstr] at hcall
    obtain rfl : o = o' := by simpa [callbackOutput] using hcall
    have hlen : str.length = 0 := by omega
    exact ⟨Or.inl (List.length_eq_zero_iff.mp hlen), by omega⟩
  by_cases ha : a.Granted (nonEmpty strs = [])
  · obtain ⟨o₁, hcall₁, -, hbase₁⟩ := callbackOutput_granted h hstr ha
    obtain rfl := Except.ok.inj (hcall.symm.trans hcall₁)
    have hle := addInt_le o.baseLen (cutLength str).length
    exact ⟨Or.inr ha, by omega⟩
  · obtain ⟨-, hsame, -⟩ := callbackOutput_denied h hstr ha hcall
    have hlen : str.length = 0 := by omega
    exact absurd (by rw [List.length_eq_zero_iff.mp hlen]; rfl) hstr

end

/-- **Run lemma.**  On a chain whose numbers are exact, they stay so exactly
if the total stays an `int` and no write is refused an allocation. -/
theorem CollectedFrom.kept_iff {index : Bytes} {rest : List RequestCallback}
    {writes : List (Bytes × Allocs)} {o : Output} {strs : List Bytes}
    (h : CollectedFrom 0 o (nonEmpty strs))
    (hbase : o.baseLen = ((strs.map List.length).sum : Nat))
    (hint : o.baseLen ≤ 2147483647) :
    NumbersKept (⟨some index⟩ :: rest) index strs writes o ↔
      (strs.map List.length).sum + (writes.map (·.1.length)).sum ≤ 2147483647 ∧
        AllGranted (nonEmpty strs) writes := by
  induction writes generalizing o strs with
  | nil =>
      constructor
      · intro _
        exact ⟨by simp only [List.map_nil, List.sum_nil]; omega, trivial⟩
      · intro _
        exact h.numbersExact hbase
  | cons w writes ih =>
      have hsum : ((w :: writes).map (·.1.length)).sum
          = w.1.length + (writes.map (·.1.length)).sum := by simp
      constructor
      · rintro ⟨-, o', hcall, hkept⟩
        obtain ⟨hw, htotal⟩ := granted_of_announced h hbase hcall hkept.exact.announced hint
        obtain ⟨o₁, hcall₁, hcol, hcount⟩ := phpOutputOp_exact h hbase hw htotal
        obtain rfl := Except.ok.inj (hcall.symm.trans hcall₁)
        obtain ⟨hle, hall⟩ := (ih hcol hcount (by rw [hcount, total_concat]; omega)).mp hkept
        rw [total_concat] at hle
        exact ⟨by omega, hw, by rwa [storedBy_nonEmpty hw]⟩
      · rintro ⟨htotal, hw, hall⟩
        obtain ⟨o', hcall, hcol, hcount⟩ := phpOutputOp_exact h hbase hw (by omega)
        refine ⟨h.numbersExact hbase, o', hcall, (ih hcol hcount ?_).mpr ⟨?_, ?_⟩⟩
        · rw [hcount, total_concat]
          omega
        · rw [total_concat]
          omega
        · rwa [← storedBy_nonEmpty hw]

/-- **When no number wraps.**  For every sequence of writes the announced length
is their total, every write is copied in full and the comparison with `sent` is
one with the total, before, between and after the writes, exactly if the count
starts at zero, the total is at most `INT_MAX` and no allocation is refused. -/
theorem numbersKept_iff (base : Int32) (index : Bytes) (rest : List RequestCallback)
    (writes : List (Bytes × Allocs)) :
    NumbersKept (⟨some index⟩ :: rest) index [] writes (Output.start base.toInt) ↔
      base = 0 ∧ (writes.map (·.1.length)).sum ≤ 2147483647 ∧ AllGranted [] writes := by
  have hstart : CollectedFrom 0 (Output.start 0) (nonEmpty []) := Or.inl ⟨rfl, rfl⟩
  have hzero : NumbersKept (⟨some index⟩ :: rest) index [] writes (Output.start 0) ↔ _ :=
    hstart.kept_iff rfl (by decide)
  constructor
  · intro h
    have hbase : base = 0 := Int32.toInt_inj.mp h.exact.announced
    subst hbase
    exact ⟨rfl, by simpa using hzero.mp h⟩
  · rintro ⟨rfl, htotal, hall⟩
    exact hzero.mpr ⟨by simpa using htotal, hall⟩

/-- A single write of two gigabytes is announced with a negative length. -/
theorem two_gigabytes_wrap :
    ¬ NumbersKept [⟨some [107]⟩] [107] []
      [(List.replicate (2 ^ 31) 65, ⟨none, true, some fun _ => 255, true⟩)] (Output.start 0) := by
  intro h
  have hstart : CollectedFrom 0 (Output.start 0) (nonEmpty []) := Or.inl ⟨rfl, rfl⟩
  have htotal := ((hstart.kept_iff rfl (by decide)).mp h).1
  simp only [List.map_cons, List.map_nil, List.sum_cons, List.sum_nil, List.length_replicate]
    at htotal
  omega

end Toxic
