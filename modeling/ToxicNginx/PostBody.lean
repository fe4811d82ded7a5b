import ToxicNginx.HeaderFunction

/-!
# The body of a POST request as `parse_str` gets it

`toxic_parse_post` walks the chain `r->request_body->bufs`.  It takes the bytes
between `start` and `end` of each buffer for the data, and puts the pieces
together with `strncpy` and `strncat` in memory that `malloc` returns as it is.

* `parseBuf`, `toxicParsePost` — the assembly, with what the memory holds;
* `ParsedExactly` — the string is the body and nothing else was read;
* `Whole` — the one shape of a chain for which this works;
* `Damaged` — what a second buffer does to the string, whatever follows;
* `parsedExactly_chain_iff` — the exact condition on the chain.
-/

namespace Toxic

/-- A buffer of the chain of a request body: the bytes of `[pos, last)`, where
`pos` is `start`, how many bytes there are from `last` to `end`, and the part of
the temporary file for a buffer in a file, which has no memory. -/
structure BodyBuf where
  data : Bytes
  spare : Nat
  file : Bytes
  deriving DecidableEq, Repr

/-- The part of the body a buffer holds. -/
def BodyBuf.contents (b : BodyBuf) : Bytes := b.data ++ b.file

/-- What a chain of buffers holds. -/
def chainContents (chain : List BodyBuf) : Bytes := chain.flatMap BodyBuf.contents

/-- `int len = buf->end - buf->start`. -/
def BodyBuf.len (b : BodyBuf) : Int := Int.bmod (b.data.length + b.spare) 4294967296

/-- The local variables of `toxic_parse_post`: what the memory at `post_body`
holds, `post_len`, and whether a byte outside of `[pos, last)` was read. -/
structure PostState where
  postBody : Bytes
  postLen : Nat
  outside : Bool
  deriving DecidableEq, Repr

/-- The string that `ZVAL_STRINGL` gives to `parse_str`. -/
def PostState.string (s : PostState) : Bytes := s.postBody.take s.postLen

/-- `malloc(size)`: memory that holds what it happens to. -/
def malloc (heap : Nat → UInt8) (size : Nat) : Bytes := (List.range size).map heap

/-- `strncat(dst, src, n)` in the memory of `dst`; `none` is an access behind
its end. -/
def strncat (dst src : Bytes) (n : Nat) : Option Bytes :=
  let p := dst.idxOf 0
  let copied := (src.take n).takeWhile (· != 0)
  if p + copied.length + 1 ≤ dst.length then
    some (dst.take p ++ copied ++ 0 :: dst.drop (p + copied.length + 1))
  else none

/-- The body of the loop of `toxic_parse_post`, with what `malloc` returns and
with what there is behind `last`; `none` is undefined behaviour. -/
def parseBuf (heap behind : Nat → UInt8) (b : BodyBuf) (s : PostState) : Option PostState :=
  if b.len ≤ 0 then some s
  else
    let len := b.len.toNat
    let src := b.data ++ malloc behind b.spare
    let outside := s.outside || (decide (b.data.length < len) && !b.data.contains 0)
    -- the size given to `malloc` is an `int` as well
    if 2147483647 < s.postLen + len + 1 then none
    else
      let memory := malloc heap (s.postLen + len + 1)
      if s.postLen = 0 then some ⟨strncpy src len ++ memory.drop len, len, outside⟩
      else
        (strncat (strncpy s.postBody s.postLen ++ memory.drop s.postLen) src len).map
          fun body => ⟨body, s.postLen + len, outside⟩

/-- The loop of `toxic_parse_post`.  The buffers are numbered for what the
memory they use holds. -/
def parseBufs (heap behind : Nat → Nat → UInt8) :
    Nat → List BodyBuf → PostState → Option PostState
  | _, [], s => some s
  | i, b :: bufs, s =>
      (parseBuf (heap i) (behind i) b s).bind (parseBufs heap behind (i + 1) bufs)

/-- `toxic_parse_post`, where `none` for the body is the NULL pointer
`r->request_body`. -/
def toxicParsePost (heap behind : Nat → Nat → UInt8) :
    Option (List BodyBuf) → Option PostState
  | none => none
  | some chain => parseBufs heap behind 1 chain ⟨malloc (heap 0) 1, 0, false⟩

/-- `parse_str` gets the body and its length, whatever the memory that `malloc`
returns holds, and no other byte was read. -/
def ParsedExactly (behind : Nat → Nat → UInt8) (chain : Option (List BodyBuf))
    (body : Bytes) : Prop :=
  ∀ heap, ∃ s, toxicParsePost heap behind chain = some s ∧
    s.string = body ∧ s.postLen = body.length ∧ s.outside = false

/-- The buffers that the loop uses. -/
def activeBufs (chain : List BodyBuf) : List BodyBuf := chain.filter fun b => decide (0 < b.len)

/-- The chains that are read as they are.  Either there is no body and no buffer
with memory; or one buffer alone has memory, `end - start` is the length of the
body, no byte outside of `[pos, last)` is reached, and `strncpy` copies the body
as it is. -/
def Whole (chain : Option (List BodyBuf)) (body : Bytes) : Prop :=
  match chain.map activeBufs with
  | some [] => body = []
  | some [b] =>
      b.len.toNat = body.length ∧ body.length + 1 ≤ 2147483647 ∧
        (body.length ≤ b.data.length ∨ 0 ∈ b.data) ∧ strncpy b.data body.length = body
  | _ => False

instance (chain : Option (List BodyBuf)) (body : Bytes) : Decidable (Whole chain body) := by
  unfold Whole
  split <;> infer_instance

/-! ## What the string functions do -/

/-- Memory that holds one byte everywhere. -/
theorem malloc_const (c : UInt8) (size : Nat) :
    malloc (fun _ => c) size = List.replicate size c := by
  simp [malloc]

@[simp] theorem length_strncpy (src : Bytes) (n : Nat) : (strncpy src n).length = n := by
  have hcopied : ((src.take n).takeWhile (· != 0)).length ≤ n :=
    (List.takeWhile_prefix _).length_le.trans (List.length_take_le ..)
  simp only [strncpy, List.length_append, List.length_replicate]
  omega

/-- A copy that is cut off is a shorter copy. -/
theorem take_strncpy {m n : Nat} (h : m ≤ n) (src : Bytes) :
    (strncpy src n).take m = strncpy src m := by
  have hcopied : ((src.take n).takeWhile (· != 0)).take m = (src.take m).takeWhile (· != 0) := by
    rw [List.take_takeWhile, List.take_take, Nat.min_eq_left h]
  simp only [strncpy, List.take_append, hcopied, List.take_replicate]
  congr 2
  rw [← hcopied, List.length_take]
  have hlen : ((src.take n).takeWhile (· != 0)).length ≤ n :=
    (List.takeWhile_prefix _).length_le.trans (List.length_take_le ..)
  omega

/-- What stands behind the text is not copied when the text is long enough or
holds a NUL byte. -/
theorem strncpy_append {data more : Bytes} {n : Nat} (h : n ≤ data.length ∨ 0 ∈ data) :
    strncpy (data ++ more) n = strncpy data n := by
  suffices hcopied : ((data ++ more).take n).takeWhile (· != 0)
      = (data.take n).takeWhile (· != 0) by
    simp only [strncpy, hcopied]
  rcases h with hlen | hzero
  · rw [List.take_append_of_le_length hlen]
  · rcases Nat.le_total n data.length with hle | hge
    · rw [List.take_append_of_le_length hle]
    · rw [List.take_append, List.take_of_length_le hge, List.takeWhile_append, if_neg]
      intro hall
      have heq := (List.takeWhile_prefix (· != 0)).eq_of_length hall
      have hne := List.takeWhile_eq_self_iff.mp heq 0 hzero
      simp at hne

/-- Without a NUL byte `strncat` runs off the end. -/
theorem strncat_eq_none {dst : Bytes} (h : 0 ∉ dst) (src : Bytes) (n : Nat) :
    strncat dst src n = none := by
  simp only [strncat, List.idxOf_eq_length h]
  rw [if_neg (by omega)]

/-- What `strncat` leaves: a NUL byte where the copy ends, and behind it what
there was. -/
theorem strncat_eq_some {dst src out : Bytes} {n : Nat} (h : strncat dst src n = some out) :
    out[dst.idxOf 0 + ((src.take n).takeWhile (· != 0)).length]? = some 0 ∧
      ∀ i, dst.idxOf 0 + ((src.take n).takeWhile (· != 0)).length < i → out[i]? = dst[i]? := by
  simp only [strncat] at h
  generalize (src.take n).takeWhile (· != 0) = copied at h ⊢
  generalize dst.idxOf 0 = p at h ⊢
  split at h
  case isFalse => cases h
  case isTrue hfits =>
    obtain rfl := Option.some.inj h
    have hp : (dst.take p).length = p := List.length_take_of_le (by omega)
    have hhead : (dst.take p ++ copied).length = p + copied.length := by
      rw [List.length_append, hp]
    constructor
    · rw [List.getElem?_append_right (by omega), hhead, Nat.sub_self]
      rfl
    · intro i hi
      obtain ⟨j, rfl⟩ : ∃ j, i = p + copied.length + 1 + j := ⟨i - (p + copied.length + 1), by omega⟩
      rw [List.getElem?_append_right (by omega), hhead,
        show p + copied.length + 1 + j - (p + copied.length) = j + 1 by omega,
        List.getElem?_cons_succ, List.getElem?_drop]

/-! ## A second buffer damages the string -/

/-- The string ends in front of its last byte, or the buffers so far hold as many
bytes as it has. -/
def Loose (c : Bytes) (s : PostState) : Prop :=
  0 ∈ s.postBody.take (s.postLen - 1) ∨ s.outside = true ∨ s.postLen ≤ c.length

/-- What a second buffer leaves when the memory from `malloc` holds the byte
`fill` everywhere: the string ends in that byte, or in a NUL byte that the
buffers do not end in. -/
structure Damaged (fill : UInt8) (c : Bytes) (s : PostState) : Prop where
  pos : 0 < s.postLen
  loose : Loose c s
  last : s.postBody[s.postLen - 1]? = some fill ∨
    (s.postBody[s.postLen - 1]? = some 0 ∧
      (s.outside = true ∨ (s.postLen ≤ c.length ∧ (s.postLen = c.length → c.getLast? ≠ some 0))))

/-- The loop passes over a buffer without memory. -/
theorem parseBuf_inactive {heap behind : Nat → UInt8} {b : BodyBuf} {s : PostState}
    (h : b.len ≤ 0) : parseBuf heap behind b s = some s := by
  simp [parseBuf, h]

/-- What the first buffer with memory leaves. -/
theorem parseBuf_first {heap behind : Nat → UInt8} {b : BodyBuf} {s : PostState}
    (hactive : 0 < b.len) (hs : s.postLen = 0) :
    parseBuf heap behind b s =
      if 2147483647 < b.len.toNat + 1 then none
      else some
        ⟨strncpy (b.data ++ malloc behind b.spare) b.len.toNat
            ++ (malloc heap (b.len.toNat + 1)).drop b.len.toNat, b.len.toNat,
          s.outside || (decide (b.data.length < b.len.toNat) && !b.data.contains 0)⟩ := by
  simp only [parseBuf, hs, Nat.zero_add, if_true]
  rw [if_neg (by omega)]

/-- What a later buffer with memory leaves. -/
theorem parseBuf_later {heap behind : Nat → UInt8} {b : BodyBuf} {s t : PostState}
    (hactive : 0 < b.len) (hs : 0 < s.postLen) (h : parseBuf heap behind b s = some t) :
    t.postLen = s.postLen + b.len.toNat ∧
      t.outside = (s.outside || (decide (b.data.length < b.len.toNat) && !b.data.contains 0)) ∧
      strncat (strncpy s.postBody s.postLen
          ++ (malloc heap (s.postLen + b.len.toNat + 1)).drop s.postLen)
        (b.data ++ malloc behind b.spare) b.len.toNat = some t.postBody := by
  simp only [parseBuf] at h
  rw [if_neg (by omega)] at h
  split at h
  · cases h
  · rw [if_neg (by omega)] at h
    obtain ⟨body, hbody, rfl⟩ := Option.map_eq_some_iff.mp h
    exact ⟨rfl, rfl, hbody⟩

/-- The string of one buffer is loose. -/
theorem loose_first {heap behind : Nat → UInt8} {b : BodyBuf} {s t : PostState} {c : Bytes}
    (hactive : 0 < b.len) (hs : s.postLen = 0) (h : parseBuf heap behind b s = some t) :
    0 < t.postLen ∧ Loose (c ++ b.contents) t := by
  rw [parseBuf_first hactive hs] at h
  split at h
  · cases h
  · obtain rfl := Option.some.inj h
    refine ⟨by simp only; omega, ?_⟩
    simp only [Loose, List.length_append, BodyBuf.contents]
    rcases Nat.lt_or_ge b.data.length b.len.toNat with hshort | hlong
    · by_cases hzero : 0 ∈ b.data
      · left
        rw [List.take_append_of_le_length (by simp only [length_strncpy]; omega),
          take_strncpy (Nat.sub_le ..)]
        apply zero_mem_strncpy
        rw [List.take_append, List.take_of_length_le (by omega)]
        exact List.mem_append_left _ hzero
      · right; left
        simp [hshort, hzero]
    · right; right
      omega

/-- A NUL byte in the first `n` bytes of a text is one of its first `n` bytes
as they are copied. -/
theorem idxOf_strncpy_lt {src : Bytes} {m n : Nat} (h : 0 ∈ src.take m) (hmn : m ≤ n) :
    (strncpy src n).idxOf 0 < m := by
  have hmem : 0 ∈ strncpy src m := zero_mem_strncpy src m h
  rw [← List.take_append_drop m (strncpy src n), take_strncpy hmn, List.idxOf_append_of_mem hmem]
  simpa using List.idxOf_lt_length_of_mem hmem

/-- What holds at the end of a string that a buffer fills to the last byte, when
the bytes of the buffer are no less than the string gets. -/
theorem edge_append {c : Bytes} {b : BodyBuf} {behind : Nat → UInt8} {len n : Nat} (hn : 0 < n)
    (hc : len ≤ c.length) (hlong : n ≤ b.data.length)
    (hcopied : (((b.data ++ malloc behind b.spare).take n).takeWhile (· != 0)).length = n) :
    len + n ≤ (c ++ b.contents).length ∧
      (len + n = (c ++ b.contents).length → (c ++ b.contents).getLast? ≠ some 0) := by
  rw [List.take_append_of_le_length hlong] at hcopied
  simp only [List.length_append, BodyBuf.contents]
  refine ⟨by omega, fun hall hlast => ?_⟩
  have hfile : b.file = [] := List.eq_nil_of_length_eq_zero (by omega)
  have hne : b.data ≠ [] := by
    intro hnil
    rw [hnil, List.length_nil] at hlong
    omega
  rw [hfile, List.append_nil, List.getLast?_append_of_ne_nil _ hne] at hlast
  have hcut : ((b.data.take n).takeWhile (· != 0)).length < n := by
    apply length_copied_lt
    rw [List.take_of_length_le (by omega)]
    exact List.mem_of_getLast? hlast
  omega

/-- **Step lemma.**  A further buffer damages the string. -/
theorem damaged_of_loose {fill : UInt8} {behind : Nat → UInt8} {b : BodyBuf} {s t : PostState}
    {c : Bytes} (hfill : fill ≠ 0) (hactive : 0 < b.len) (hs : 0 < s.postLen) (hloose : Loose c s)
    (h : parseBuf (fun _ => fill) behind b s = some t) :
    Damaged fill (c ++ b.contents) t := by
  obtain ⟨hlen, hout, hcat⟩ := parseBuf_later hactive hs h
  generalize hn : b.len.toNat = n at hlen hout hcat
  have hnpos : 0 < n := by omega
  have htail : (malloc (fun _ => fill) (s.postLen + n + 1)).drop s.postLen
      = List.replicate (n + 1) fill := by
    rw [malloc_const, List.drop_replicate, show s.postLen + n + 1 - s.postLen = n + 1 by omega]
  rw [htail] at hcat
  -- the copy holds a NUL byte, since there is none in the memory behind it
  have hzero : 0 ∈ strncpy s.postBody s.postLen := by
    by_contra hnot
    rw [strncat_eq_none] at hcat
    · cases hcat
    · simp only [List.mem_append, not_or]
      exact ⟨hnot, fun hmem => hfill (List.eq_of_mem_replicate hmem).symm⟩
  obtain ⟨hnul, hbehind⟩ := strncat_eq_some hcat
  rw [List.idxOf_append_of_mem hzero] at hnul hbehind
  have hp : (strncpy s.postBody s.postLen).idxOf 0 < s.postLen := by
    simpa using List.idxOf_lt_length_of_mem hzero
  generalize hk : ((b.data ++ malloc behind b.spare).take n).takeWhile (· != 0) = copied
    at hnul hbehind
  have hcopied : copied.length ≤ n := by
    rw [← hk]
    exact (List.takeWhile_prefix _).length_le.trans (List.length_take_le ..)
  generalize hidx : (strncpy s.postBody s.postLen).idxOf 0 = p at hnul hbehind hp
  rcases Nat.lt_or_ge (p + copied.length) (s.postLen + n - 1) with hearly | hlate
  · -- the last byte is one that `malloc` left
    refine ⟨by omega, Or.inl ?_, Or.inl ?_⟩
    · apply List.mem_of_getElem? (i := p + copied.length)
      rw [hlen, List.getElem?_take_of_lt hearly, hnul]
    · rw [hlen, hbehind _ hearly, List.getElem?_append_right (by simp only [length_strncpy]; omega),
        List.getElem?_replicate, if_pos (by simp only [length_strncpy]; omega)]
  · -- the text ended in front of the last byte and the buffer filled the rest
    have hfull : copied.length = n ∧ p = s.postLen - 1 := by omega
    have hedge : t.outside = true ∨ (t.postLen ≤ (c ++ b.contents).length ∧
        (t.postLen = (c ++ b.contents).length → (c ++ b.contents).getLast? ≠ some 0)) := by
      rw [hout, hlen]
      rcases hloose with hzero' | hread | hbytes
      · have := idxOf_strncpy_lt hzero' (Nat.sub_le s.postLen 1)
        omega
      · simp [hread]
      · rcases Nat.lt_or_ge b.data.length n with hshort | hlong
        · have hnozero : 0 ∉ b.data := by
            intro hmem
            have hcut : copied.length < n := by
              rw [← hk]
              apply length_copied_lt
              rw [List.take_append, List.take_of_length_le (by omega)]
              exact List.mem_append_left _ hmem
            omega
          simp [hshort, hnozero]
        · right
          exact edge_append hnpos hbytes hlong (by rw [hk, hfull.1])
    refine ⟨by omega, ?_, Or.inr ⟨?_, hedge⟩⟩
    · exact Or.inr (hedge.imp_right And.left)
    · rw [hlen, show s.postLen + n - 1 = p + copied.length by omega, hnul]

/-- More bytes in the buffers do not make a string tight. -/
theorem Loose.extend {c : Bytes} {s : PostState} (h : Loose c s) (more : Bytes) :
    Loose (c ++ more) s := by
  rcases h with hzero | hread | hbytes
  · exact Or.inl hzero
  · exact Or.inr (Or.inl hread)
  · refine Or.inr (Or.inr ?_)
    rw [List.length_append]
    omega

/-- More bytes in the buffers do not mend a string. -/
theorem Damaged.extend {fill : UInt8} {c : Bytes} {s : PostState} (h : Damaged fill c s)
    (more : Bytes) : Damaged fill (c ++ more) s := by
  refine ⟨h.pos, h.loose.extend more, h.last.imp_right fun ⟨hnul, hedge⟩ => ⟨hnul, ?_⟩⟩
  rcases hedge with hread | ⟨hle, hlast⟩
  · exact Or.inl hread
  · refine Or.inr ⟨by rw [List.length_append]; omega, fun hall => ?_⟩
    rw [List.length_append] at hall
    have hmore : more = [] := List.eq_nil_of_length_eq_zero (by omega)
    rw [hmore, List.append_nil]
    exact hlast (by omega)

/-- The contents of a chain, one buffer more. -/
theorem chainContents_cons (c : Bytes) (b : BodyBuf) (bufs : List BodyBuf) :
    c ++ chainContents (b :: bufs) = c ++ b.contents ++ chainContents bufs := by
  simp [chainContents]

/-- **Run lemma.**  A damaged string stays damaged. -/
theorem damaged_keep {fill : UInt8} {behind : Nat → Nat → UInt8} (hfill : fill ≠ 0) {i : Nat}
    {bufs : List BodyBuf} {c : Bytes} {s t : PostState} (hs : Damaged fill c s)
    (h : parseBufs (fun _ _ => fill) behind i bufs s = some t) :
    Damaged fill (c ++ chainContents bufs) t := by
  induction bufs generalizing i c s with
  | nil =>
      obtain rfl := Option.some.inj h
      exact hs.extend _
  | cons b bufs ih =>
      obtain ⟨m, hm, hrest⟩ := Option.bind_eq_some_iff.mp h
      rw [chainContents_cons]
      rcases Int.lt_or_le 0 b.len with hactive | hidle
      · exact ih (damaged_of_loose hfill hactive hs.pos hs.loose hm) hrest
      · rw [parseBuf_inactive hidle] at hm
        obtain rfl := Option.some.inj hm
        exact ih (hs.extend _) hrest

/-- With a string begun, any further buffer with memory damages it. -/
theorem damaged_run {fill : UInt8} {behind : Nat → Nat → UInt8} (hfill : fill ≠ 0) {i : Nat}
    {bufs : List BodyBuf} {c : Bytes} {s t : PostState} (hs : 0 < s.postLen)
    (hloose : Loose c s) (hactive : activeBufs bufs ≠ [])
    (h : parseBufs (fun _ _ => fill) behind i bufs s = some t) :
    Damaged fill (c ++ chainContents bufs) t := by
  induction bufs generalizing i c s with
  | nil => exact absurd rfl hactive
  | cons b bufs ih =>
      obtain ⟨m, hm, hrest⟩ := Option.bind_eq_some_iff.mp h
      rw [chainContents_cons]
      rcases Int.lt_or_le 0 b.len with hlen | hidle
      · exact damaged_keep hfill (damaged_of_loose hfill hlen hs hloose hm) hrest
      · rw [parseBuf_inactive hidle] at hm
        obtain rfl := Option.some.inj hm
        rw [activeBufs, List.filter_cons_of_neg (by simpa using hidle)] at hactive
        exact ih hs (hloose.extend _) hactive hrest

/-! ## The chains that are read as they are -/

/-- The loop over a chain, one buffer at a time. -/
theorem parseBufs_cons (heap behind : Nat → Nat → UInt8) (i : Nat) (b : BodyBuf)
    (bufs : List BodyBuf) (s : PostState) :
    parseBufs heap behind i (b :: bufs) s
      = (parseBuf (heap i) (behind i) b s).bind (parseBufs heap behind (i + 1) bufs) := rfl

/-- The loop over a chain in two parts. -/
theorem parseBufs_append (heap behind : Nat → Nat → UInt8) (i : Nat) (xs ys : List BodyBuf)
    (s : PostState) :
    parseBufs heap behind i (xs ++ ys) s
      = (parseBufs heap behind i xs s).bind (parseBufs heap behind (i + xs.length) ys) := by
  induction xs generalizing i s with
  | nil => rfl
  | cons b xs ih =>
      simp only [List.cons_append, parseBufs, Option.bind_assoc, List.length_cons]
      congr 1
      funext m
      rw [ih, Nat.add_right_comm, Nat.add_assoc]

/-- Buffers without memory are passed over. -/
theorem parseBufs_inactive {heap behind : Nat → Nat → UInt8} {i : Nat} {bufs : List BodyBuf}
    {s : PostState} (h : activeBufs bufs = []) : parseBufs heap behind i bufs s = some s := by
  induction bufs generalizing i with
  | nil => rfl
  | cons b bufs ih =>
      have hidle := List.filter_eq_nil_iff.mp h
      have hlen : b.len ≤ 0 := by simpa using hidle b List.mem_cons_self
      simp only [parseBufs, parseBuf_inactive hlen, Option.bind_some]
      exact ih (List.filter_eq_nil_iff.mpr fun x hx => hidle x (List.mem_cons_of_mem _ hx))

/-- A chain with a buffer that has memory, at the first such buffer. -/
theorem activeBufs_cons {chain : List BodyBuf} {b : BodyBuf} {more : List BodyBuf}
    (h : activeBufs chain = b :: more) :
    ∃ before behind, chain = before ++ b :: behind ∧ activeBufs before = [] ∧ 0 < b.len ∧
      activeBufs behind = more := by
  obtain ⟨before, behind, hchain, hidle, hb, hmore⟩ := List.filter_eq_cons_iff.mp h
  exact ⟨before, behind, hchain, List.filter_eq_nil_iff.mpr hidle, by simpa using hb, hmore⟩

/-- A chain is read from the first buffer that has memory. -/
theorem toxicParsePost_active {heap behind : Nat → Nat → UInt8} {before after : List BodyBuf}
    {b : BodyBuf} (hbefore : activeBufs before = []) :
    toxicParsePost heap behind (some (before ++ b :: after))
      = (parseBuf (heap (1 + before.length)) (behind (1 + before.length)) b
          ⟨malloc (heap 0) 1, 0, false⟩).bind
        (parseBufs heap behind (1 + before.length + 1) after) := by
  rw [toxicParsePost, parseBufs_append, parseBufs_inactive hbefore, Option.bind_some,
    parseBufs_cons]

/-- A chain whose one buffer with memory is `b` is read as `b` is. -/
theorem toxicParsePost_single {heap behind : Nat → Nat → UInt8} {before after : List BodyBuf}
    {b : BodyBuf} (hbefore : activeBufs before = []) (hafter : activeBufs after = []) :
    toxicParsePost heap behind (some (before ++ b :: after))
      = parseBuf (heap (1 + before.length)) (behind (1 + before.length)) b
          ⟨malloc (heap 0) 1, 0, false⟩ := by
  rw [toxicParsePost_active hbefore]
  generalize parseBuf (heap (1 + before.length)) (behind (1 + before.length)) b
      ⟨malloc (heap 0) 1, 0, false⟩ = parsed
  cases parsed with
  | none => rfl
  | some m => exact parseBufs_inactive hafter

/-- Nothing is read of a chain without memory. -/
theorem parsedExactly_idle_iff {behind : Nat → Nat → UInt8} {chain : List BodyBuf} {body : Bytes}
    (h : activeBufs chain = []) : ParsedExactly behind (some chain) body ↔ body = [] := by
  simp only [ParsedExactly, toxicParsePost, parseBufs_inactive h]
  constructor
  · intro hparsed
    obtain ⟨s, hs, hstring, -, -⟩ := hparsed fun _ _ => 0
    obtain rfl := Option.some.inj hs
    simpa [PostState.string] using hstring.symm
  · rintro rfl heap
    exact ⟨_, rfl, List.take_zero, rfl, rfl⟩

/-- When one buffer with memory is read as it is. -/
theorem parsedExactly_single_iff {behind : Nat → Nat → UInt8} {chain : List BodyBuf} {b : BodyBuf}
    {body : Bytes} (h : activeBufs chain = [b]) :
    ParsedExactly behind (some chain) body ↔
      b.len.toNat = body.length ∧ body.length + 1 ≤ 2147483647 ∧
        (body.length ≤ b.data.length ∨ 0 ∈ b.data) ∧ strncpy b.data body.length = body := by
  obtain ⟨before, after, rfl, hbefore, hactive, hafter⟩ := activeBufs_cons h
  simp only [ParsedExactly, toxicParsePost_single hbefore hafter, parseBuf_first hactive]
  constructor
  · intro hparsed
    obtain ⟨s, hs, hstring, hlen, hout⟩ := hparsed fun _ _ => 0
    split at hs
    · cases hs
    case isFalse hfits =>
      obtain rfl := Option.some.inj hs
      simp only at hlen
      have hinside : body.length ≤ b.data.length ∨ 0 ∈ b.data := by
        simp only [Bool.false_or, Bool.and_eq_false_iff, decide_eq_false_iff_not, Nat.not_lt,
          Bool.not_eq_false', List.contains_iff_mem] at hout
        rwa [← hlen]
      refine ⟨hlen, by omega, hinside, ?_⟩
      simp only [PostState.string] at hstring
      rw [List.take_left' (length_strncpy _ _), hlen, strncpy_append hinside] at hstring
      exact hstring
  · rintro ⟨hlen, hfits, hinside, hcopy⟩ heap
    rw [if_neg (by omega)]
    refine ⟨_, rfl, ?_, ?_, ?_⟩
    · simp only [PostState.string]
      rw [List.take_left' (length_strncpy _ _), hlen, strncpy_append hinside, hcopy]
    · simp only [hlen]
    · rcases hinside with hlong | hzero
      · simp [hlen, Nat.not_lt.mpr hlong]
      · simp [hzero]

/-- Two buffers with memory are never put together for every content of the
memory that `malloc` returns. -/
theorem not_parsedExactly_of_two {behind : Nat → Nat → UInt8} {chain : List BodyBuf}
    {b b' : BodyBuf} {more : List BodyBuf} (h : activeBufs chain = b :: b' :: more) :
    ¬ ParsedExactly behind (some chain) (chainContents chain) := by
  obtain ⟨before, after, hchain, hbefore, hactive, hafter⟩ := activeBufs_cons h
  intro hparsed
  -- a byte that the body does not end in
  obtain ⟨fill, hfill, hlast⟩ :
      ∃ fill : UInt8, fill ≠ 0 ∧ (chainContents chain).getLast? ≠ some fill := by
    by_cases hone : (chainContents chain).getLast? = some 1
    · exact ⟨2, by decide, by rw [hone]; decide⟩
    · exact ⟨1, by decide, hone⟩
  obtain ⟨t, ht, hstring, hlen, hout⟩ := hparsed fun _ _ => fill
  have hdamaged : Damaged fill (chainContents chain) t := by
    have hcontents : chainContents chain
        = chainContents before ++ b.contents ++ chainContents after := by
      rw [hchain, ← chainContents_cons, chainContents, List.flatMap_append]
      rfl
    rw [hchain, toxicParsePost_active hbefore] at ht
    obtain ⟨m, hm, hrest⟩ := Option.bind_eq_some_iff.mp ht
    obtain ⟨hpos, hloose⟩ := loose_first (c := chainContents before) hactive rfl hm
    rw [hcontents]
    exact damaged_run hfill hpos hloose (by rw [hafter]; exact List.cons_ne_nil _ _) hrest
  have hpos := hdamaged.pos
  have hend : t.postBody[t.postLen - 1]? = (chainContents chain).getLast? := by
    rw [List.getLast?_eq_getElem?, ← hlen, ← hstring, PostState.string,
      List.getElem?_take_of_lt (by omega)]
  rcases hdamaged.last with hfilled | ⟨hnul, hread | ⟨-, hbytes⟩⟩
  · exact hlast (hend.symm.trans hfilled)
  · rw [hout] at hread
    cases hread
  · exact hbytes hlen (hend.symm.trans hnul)

/-- **The exact condition.**  What the chain holds is read as it is exactly when
it is whole. -/
theorem parsedExactly_chain_iff (behind : Nat → Nat → UInt8) (chain : List BodyBuf) :
    ParsedExactly behind (some chain) (chainContents chain)
      ↔ Whole (some chain) (chainContents chain) := by
  simp only [Whole, Option.map_some]
  cases hactive : activeBufs chain with
  | nil => exact parsedExactly_idle_iff hactive
  | cons b more =>
      cases more with
      | nil => exact parsedExactly_single_iff hactive
      | cons b' more =>
          exact iff_of_false (not_parsedExactly_of_two hactive) id

end Toxic
