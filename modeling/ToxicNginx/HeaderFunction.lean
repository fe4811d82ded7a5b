import Mathlib.Data.List.TakeWhile
import ToxicNginx.AdjacentCount
import ToxicNginx.ResponseFilters

/-!
# A header line of the script on its way to the response

`PHP_FUNCTION(header)` calls `header_function` of the module and not
`sapi_header_op`, whose check for line breaks and NUL bytes it replaces.  The
line is cut at its first colon, copied by `strncpy` into an element of
`r->headers_out.headers`, and written out by `ngx_http_header_filter`.

* `headerFunction` — the element of a call, with what the memory it gets holds;
* `illegalBreak`, `Clean` — the check of `sapi_header_op` that is bypassed;
* `NoSplit` — a call adds clean elements, and one line at most to the header
  block;
* `headerBlock_lines` — what a clean element adds to the block;
* `noSplit_iff` — the exact condition on the line.
-/

namespace Toxic

/-- `strncpy(dst, src, n)`: up to `n` bytes in front of a NUL, and NUL bytes
behind them. -/
def strncpy (src : Bytes) (n : Nat) : Bytes :=
  let copied := (src.take n).takeWhile (· != 0)
  copied ++ List.replicate (n - copied.length) 0

/-- `key_index`: where the first colon is, 0 when there is none. -/
def keyIndex (line : Bytes) : Nat := if 58 ∈ line then line.idxOf 58 else 0

/-- `header_function`.  `hash` is what the pool memory of the element holds in
that field, and `heap` what `ngx_alloc` returns for the key, which is left so
when the value is empty. -/
def headerFunction (hash : Nat) (heap : Nat → UInt8) (line : Bytes) (headers : List TableElt) :
    List TableElt :=
  let k := keyIndex line
  if k = 0 then headers
  else if line.length - 1 - k = 0 then headers ++ [⟨hash, (List.range k).map heap, []⟩]
  else
    headers ++
      [⟨hash, strncpy line k, strncpy (line.drop (k + 1)) (line.length - 1 - k)⟩]

/-- `illegal_break` of `sapi_header_op`, for a byte and the next one: a newline
that no blank or tab follows. -/
def illegalBreak (c next : UInt8) : Bool :=
  next != 32 && next != 9 && (c == 10 || (c == 13 && next != 10))

/-- What the check of `sapi_header_op` accepts: no NUL byte and no illegal
break, where a NUL follows the end. -/
def Clean (text : Bytes) : Prop := 0 ∉ text ∧ countAdjacent illegalBreak 0 text = 0

instance (text : Bytes) : Decidable (Clean text) := inferInstanceAs (Decidable (_ ∧ _))

/-- The lines of a header block: the line ends that are no folds. -/
def lineEnds (block : Bytes) : Nat := countAdjacent illegalBreak 0 block

/-- The response with other header fields. -/
def Response.withHeaders (r : Response) (headers : List TableElt) : Response :=
  { r with headersOut := { r.headersOut with headers := headers } }

/-- What a `header()` call that makes `headers'` of `headers` must satisfy: the
elements it adds are clean, and the header block gets at most one line. -/
structure NoSplit (conf : FilterConf) (r : Response) (headers headers' : List TableElt) :
    Prop where
  kept : headers <+: headers'
  clean : ∀ e ∈ headers'.drop headers.length, Clean e.key ∧ Clean e.value
  lines : lineEnds (headerBlock conf (r.withHeaders headers'))
    ≤ lineEnds (headerBlock conf (r.withHeaders headers)) + 1

/-- The lines that cannot split a response: those that add no element, those
with a value that pass the check of `sapi_header_op`, and those without a value
when the memory of the key happens to pass it. -/
def UnsplitLine (heap : Nat → UInt8) (line : Bytes) : Prop :=
  keyIndex line = 0 ∨
    (if line.length - 1 - keyIndex line = 0 then Clean ((List.range (keyIndex line)).map heap)
     else Clean line)

/-- A text without a NUL byte is copied as it is. -/
theorem strncpy_eq_take {src : Bytes} {n : Nat} (h : 0 ∉ src.take n) (hlen : n ≤ src.length) :
    strncpy src n = src.take n := by
  have hcopied : (src.take n).takeWhile (· != 0) = src.take n := by
    apply List.takeWhile_eq_self_iff.mpr
    intro c hc
    rw [bne_iff_ne]
    intro hzero
    exact h (hzero ▸ hc)
  unfold strncpy
  simp only [hcopied, List.length_take, Nat.min_eq_left hlen, Nat.sub_self, List.replicate_zero,
    List.append_nil]

/-- The copy of a text stops in front of a NUL byte. -/
theorem length_copied_lt {src : Bytes} {n : Nat} (h : 0 ∈ src.take n) :
    ((src.take n).takeWhile (· != 0)).length < n := by
  have hlen : (src.take n).length ≤ n := List.length_take_le ..
  have hle : ((src.take n).takeWhile (· != 0)).length ≤ (src.take n).length :=
    (List.takeWhile_prefix _).length_le
  by_contra hnot
  have heq : (src.take n).takeWhile (· != 0) = src.take n :=
    (List.takeWhile_prefix _).eq_of_length (by omega)
  have hall := List.takeWhile_eq_self_iff.mp heq 0 h
  simp at hall

/-- A text with a NUL byte is copied with one. -/
theorem zero_mem_strncpy (src : Bytes) (n : Nat) (h : 0 ∈ src.take n) : 0 ∈ strncpy src n := by
  have hshort := length_copied_lt h
  unfold strncpy
  apply List.mem_append_right
  exact List.mem_replicate.mpr ⟨by omega, rfl⟩

/-- A line with a key is the key, a colon and the rest. -/
theorem line_split {line : Bytes} (hkey : keyIndex line ≠ 0) :
    keyIndex line < line.length ∧
      line = line.take (keyIndex line) ++ 58 :: line.drop (keyIndex line + 1) := by
  have hmem : 58 ∈ line := by
    by_contra hnot
    exact hkey (by simp [keyIndex, hnot])
  have hindex : keyIndex line = line.idxOf 58 := by simp [keyIndex, hmem]
  have hlt : keyIndex line < line.length := by
    rw [hindex]
    exact List.idxOf_lt_length_of_mem hmem
  refine ⟨hlt, ?_⟩
  have hget : (line)[keyIndex line] = 58 := by
    simp only [hindex]
    exact List.getElem_idxOf _
  rw [← hget, ← List.drop_eq_getElem_cons hlt, List.take_append_drop]

/-- Behind a byte that is no blank, tab or newline a break is what it is at the
end of a text. -/
theorem countAdjacent_illegalBreak (next : UInt8) (hblank : next ≠ 32) (htab : next ≠ 9)
    (hnewline : next ≠ 10) (text : Bytes) :
    countAdjacent illegalBreak next text = countAdjacent illegalBreak 0 text := by
  have hsame : ∀ c, illegalBreak c next = illegalBreak c 0 := by
    intro c
    simp only [illegalBreak, bne_iff_ne.mpr hblank, bne_iff_ne.mpr htab, bne_iff_ne.mpr hnewline]
    rfl
  apply Nat.le_antisymm
  · exact countAdjacent_mono (fun c hc => (hsame c) ▸ hc) text
  · exact countAdjacent_mono (fun c hc => (hsame c).symm ▸ hc) text

/-- The key and the value of a line are clean exactly when the line is. -/
theorem clean_line_iff {line : Bytes} (hkey : keyIndex line ≠ 0) :
    Clean line ↔
      Clean (line.take (keyIndex line)) ∧ Clean (line.drop (keyIndex line + 1)) := by
  obtain ⟨_, hsplit⟩ := line_split hkey
  generalize line.take (keyIndex line) = key at hsplit ⊢
  generalize line.drop (keyIndex line + 1) = value at hsplit ⊢
  subst hsplit
  have hcolon : ∀ next, illegalBreak 58 next = false := by
    intro next
    simp [illegalBreak]
  unfold Clean
  rw [countAdjacent_append, List.headD_cons, countAdjacent_cons, hcolon,
    countAdjacent_illegalBreak _ (by decide) (by decide) (by decide)]
  simp only [List.mem_append, List.mem_cons, Bool.false_eq_true, if_false]
  constructor
  · rintro ⟨hnul, hbreaks⟩
    exact ⟨⟨fun h => hnul (Or.inl h), by omega⟩, fun h => hnul (Or.inr (Or.inr h)), by omega⟩
  · rintro ⟨⟨hkeyNul, hkeyBreaks⟩, hvalueNul, hvalueBreaks⟩
    refine ⟨?_, by omega⟩
    rintro (h | h | h)
    · exact hkeyNul h
    · cases h
    · exact hvalueNul h

/-- The line an element is written as. -/
def fieldLine (e : TableElt) : Bytes := e.key ++ bytesOf ": " ++ e.value ++ crlf

/-- A clean element is one line, whatever header line or blank line follows. -/
theorem lineEnds_fieldLine {e : TableElt} (hkey : Clean e.key) (hvalue : Clean e.value) :
    countAdjacent illegalBreak 13 (fieldLine e) = 1 := by
  have hcolon : bytesOf ": " = [58, 32] := by decide
  have hend : countAdjacent illegalBreak 13 crlf = 1 := by decide
  have hhead : crlf.headD 13 = 13 := rfl
  have hmiddle : ∀ next, countAdjacent illegalBreak next [58, 32] = 0 := by
    intro next
    simp [countAdjacent, illegalBreak]
  unfold fieldLine
  rw [hcolon, countAdjacent_append, countAdjacent_append, countAdjacent_append, hend, hhead,
    hmiddle, List.headD_cons,
    countAdjacent_illegalBreak 13 (by decide) (by decide) (by decide),
    countAdjacent_illegalBreak 58 (by decide) (by decide) (by decide), hkey.2, hvalue.2]

/-- The fields of the elements stand between the rest of the block and its blank
line. -/
theorem headerBlock_fields (conf : FilterConf) (r : Response) (headers : List TableElt) :
    ∃ front, ∀ added : List TableElt,
      headerBlock conf (r.withHeaders (headers ++ added))
        = front ++ ((added.filter (·.hash ≠ 0)).flatMap fieldLine ++ crlf) := by
  refine ⟨(headerBlock conf (r.withHeaders headers)).dropLast.dropLast, fun added => ?_⟩
  have hdrop : ∀ text : Bytes, (text ++ crlf).dropLast.dropLast = text := by
    intro text
    have hcrlf : text ++ crlf = text ++ [13] ++ [10] := by simp [crlf]
    rw [hcrlf, List.dropLast_concat, List.dropLast_concat]
  unfold headerBlock
  simp only [← List.append_assoc, hdrop]
  simp only [Response.withHeaders, connectionHeader, List.filter_append, List.flatMap_append,
    ← List.append_assoc]
  rfl

/-- **Another clean element** is one more line at most. -/
theorem headerBlock_lines (conf : FilterConf) (r : Response) (headers : List TableElt)
    {e : TableElt} (hkey : Clean e.key) (hvalue : Clean e.value) :
    lineEnds (headerBlock conf (r.withHeaders (headers ++ [e])))
      ≤ lineEnds (headerBlock conf (r.withHeaders headers)) + 1 := by
  obtain ⟨front, hblock⟩ := headerBlock_fields conf r headers
  have hnone := hblock []
  rw [List.append_nil, List.filter_nil, List.flatMap_nil, List.nil_append] at hnone
  rw [hnone, hblock [e]]
  have hfront : ∀ next, countAdjacent illegalBreak next front
      ≤ countAdjacent illegalBreak 13 front := by
    intro next
    apply countAdjacent_mono
    intro c hc
    simp only [illegalBreak, Bool.and_eq_true, Bool.or_eq_true, beq_iff_eq] at hc ⊢
    rcases hc.2 with hc | hc
    · simp [hc]
    · simp [hc.1]
  unfold lineEnds
  by_cases hhash : e.hash = 0
  · simp [hhash]
  · have hlist : ([e].filter (·.hash ≠ 0)).flatMap fieldLine = fieldLine e := by
      simp [hhash]
    rw [hlist, countAdjacent_append, countAdjacent_append, countAdjacent_append]
    have hline := lineEnds_fieldLine hkey hvalue
    have hhead : crlf.headD 0 = 13 := rfl
    rw [hhead, hline]
    have := hfront ((fieldLine e ++ crlf).headD 0)
    omega

/-- **A header line does not split the response** — the elements a `header()`
call adds have no NUL byte and no line break but folds, and the header block gets
one line at most — if and only if the line adds no element, or passes the check
of `sapi_header_op`, or has no value and finds memory that does. -/
theorem noSplit_iff (conf : FilterConf) (r : Response) (headers : List TableElt) (hash : Nat)
    (heap : Nat → UInt8) (line : Bytes) :
    NoSplit conf r headers (headerFunction hash heap line headers) ↔ UnsplitLine heap line := by
  unfold UnsplitLine headerFunction
  dsimp only
  by_cases hkey : keyIndex line = 0
  · simp only [hkey, if_true, true_or, iff_true]
    refine ⟨List.prefix_rfl, ?_, by omega⟩
    intro e he
    simp at he
  simp only [hkey, if_false, false_or]
  have hadded : ∀ e : TableElt,
      NoSplit conf r headers (headers ++ [e]) ↔ Clean e.key ∧ Clean e.value := by
    intro e
    constructor
    · intro h
      apply h.clean e
      simp
    · rintro ⟨hk, hv⟩
      refine ⟨List.prefix_append _ _, ?_, headerBlock_lines conf r headers hk hv⟩
      intro e' he'
      rw [List.drop_left, List.mem_singleton] at he'
      rw [he']
      exact ⟨hk, hv⟩
  by_cases hempty : line.length - 1 - keyIndex line = 0
  · simp only [hempty, if_true]
    rw [hadded]
    have hnil : Clean [] := ⟨by simp, rfl⟩
    exact and_iff_left hnil
  simp only [hempty, if_false]
  rw [hadded, clean_line_iff hkey]
  have hlt := (line_split hkey).1
  have hrest : (line.drop (keyIndex line + 1)).take (line.length - 1 - keyIndex line)
      = line.drop (keyIndex line + 1) := by
    apply List.take_of_length_le
    simp only [List.length_drop]
    omega
  by_cases hnul : 0 ∈ line.take (keyIndex line)
  · have hcopied := zero_mem_strncpy _ _ hnul
    exact ⟨fun h => absurd hcopied h.1.1, fun h => absurd hnul h.1.1⟩
  rw [strncpy_eq_take hnul (by omega)]
  by_cases hvalue : 0 ∈ line.drop (keyIndex line + 1)
  · have hcopied := zero_mem_strncpy (line.drop (keyIndex line + 1)) _ (hrest ▸ hvalue)
    exact ⟨fun h => absurd hcopied h.2.1, fun h => absurd hvalue h.2.1⟩
  · rw [strncpy_eq_take (hrest.symm ▸ hvalue) (by simp only [List.length_drop]; omega), hrest]

/-- `header("A:b\r\nC:d")` puts a second field line into the response. -/
theorem header_splits :
    headerFunction 1 (fun _ => 0) (bytesOf "A:b" ++ crlf ++ bytesOf "C:d") []
        = [⟨1, bytesOf "A", bytesOf "b" ++ crlf ++ bytesOf "C:d"⟩] ∧
      ∀ conf r, ¬ NoSplit conf r []
        (headerFunction 1 (fun _ => 0) (bytesOf "A:b" ++ crlf ++ bytesOf "C:d") []) := by
  refine ⟨by decide +kernel, fun conf r h => ?_⟩
  have hclean := (h.clean ⟨1, bytesOf "A", bytesOf "b" ++ crlf ++ bytesOf "C:d"⟩
    (by decide +kernel)).2
  exact absurd hclean (by decide +kernel)

end Toxic
