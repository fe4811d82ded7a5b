import Mathlib.Data.List.TakeWhile
import ToxicNginx.OutputChain

/-!
# Reading a chunked request body

`ngx_http_parse_chunked` is called on what a buffer holds and stops in front of
the data of a chunk; the filter takes the data and calls it again.  Its state
is kept in `rb->chunked` from one buffer to the next.

* `chunkByte`, `parseLoop`, `parseChunked` — the parser, one byte at a time and
  over a buffer;
* `dechunk` — the body that a stream of bytes encodes, wherever it is cut;
* `parseLoop_again`, `parseLoop_ok`, `parseLoop_done` — a call of the parser
  leaves the rest of the body to what follows;
* `dechunk_data` — so does taking data out of a chunk.
-/

namespace Toxic

/-- The states of `ngx_http_parse_chunked`. -/
inductive ChunkState
  | chunkStart
  | chunkSize
  | chunkExtension
  | chunkExtensionAlmostDone
  | chunkData
  | afterData
  | afterDataAlmostDone
  | lastChunkExtension
  | lastChunkExtensionAlmostDone
  | trailer
  | trailerAlmostDone
  | trailerHeader
  | trailerHeaderAlmostDone
  deriving DecidableEq, Repr

/-- `ngx_http_chunked_t`, less `length`, which every call sets anew from the two
others (`Chunked.atLeast`). -/
structure Chunked where
  state : ChunkState
  size : Int
  deriving DecidableEq, Repr

/-- The context with another state. -/
def Chunked.to (ctx : Chunked) (state : ChunkState) : Chunked := { ctx with state := state }

/-- What one byte does: the parser goes on, stops in front of data, has seen the
end of the body, or finds a fault. -/
inductive ChunkStep
  | next (ctx : Chunked)
  | data
  | done
  | invalid

/-- The value of a hexadecimal digit, in either case. -/
def hexDigit (ch : UInt8) : Option Nat :=
  if 48 ≤ ch ∧ ch ≤ 57 then some (ch.toNat - 48)
  else if 97 ≤ (ch ||| 32) ∧ (ch ||| 32) ≤ 102 then some ((ch ||| 32).toNat - 97 + 10)
  else none

/-- The value of an `off_t`. -/
def offT (x : Int) : Int := x.bmod 18446744073709551616

/-- The byte behind the size of a chunk, with the states it leads to. -/
def chunkSizeEnd (ctx : Chunked) (ch : UInt8) (almostDone done extension : ChunkState) :
    ChunkStep :=
  if ch = 13 then .next (ctx.to almostDone)
  else if ch = 10 then .next (ctx.to done)
  else if ch = 59 ∨ ch = 32 ∨ ch = 9 then .next (ctx.to extension)
  else .invalid

/-- A line that is passed over: CR and LF change the state. -/
def chunkLine (ctx : Chunked) (ch : UInt8) (almostDone done : ChunkState) : ChunkStep :=
  if ch = 13 then .next (ctx.to almostDone)
  else if ch = 10 then .next (ctx.to done)
  else .next ctx

/-- A LF that must follow. -/
def chunkLf (ctx : Chunked) (ch : UInt8) (done : ChunkState) : ChunkStep :=
  if ch = 10 then .next (ctx.to done) else .invalid

/-- The switch of `ngx_http_parse_chunked`. -/
def chunkByte (ctx : Chunked) (ch : UInt8) : ChunkStep :=
  match ctx.state with
  | .chunkStart =>
      match hexDigit ch with
      | some d => .next { ctx with state := .chunkSize, size := d }
      | none => .invalid
  | .chunkSize =>
      match hexDigit ch with
      | some d => .next { ctx with size := offT (ctx.size * 16 + d) }
      | none =>
          if ctx.size = 0 then
            chunkSizeEnd ctx ch .lastChunkExtensionAlmostDone .trailer .lastChunkExtension
          else chunkSizeEnd ctx ch .chunkExtensionAlmostDone .chunkData .chunkExtension
  | .chunkExtension => chunkLine ctx ch .chunkExtensionAlmostDone .chunkData
  | .chunkExtensionAlmostDone => chunkLf ctx ch .chunkData
  | .chunkData => .data
  | .afterData => chunkLine ctx ch .afterDataAlmostDone .chunkStart
  | .afterDataAlmostDone => chunkLf ctx ch .chunkStart
  | .lastChunkExtension => chunkLine ctx ch .lastChunkExtensionAlmostDone .trailer
  | .lastChunkExtensionAlmostDone => chunkLf ctx ch .trailer
  | .trailer =>
      if ch = 13 then .next (ctx.to .trailerAlmostDone)
      else if ch = 10 then .done
      else .next (ctx.to .trailerHeader)
  | .trailerAlmostDone => if ch = 10 then .done else .invalid
  | .trailerHeader => chunkLine ctx ch .trailerHeaderAlmostDone .trailer
  | .trailerHeaderAlmostDone => chunkLf ctx ch .trailer

/-- What a call of `ngx_http_parse_chunked` returns, with the context and what
is left of the buffer: `NGX_OK` in front of data, `NGX_AGAIN`, `NGX_DONE` or
`NGX_ERROR`. -/
inductive ChunkParse
  | ok (ctx : Chunked) (left : Bytes)
  | again (ctx : Chunked)
  | done (left : Bytes)
  | error

/-- The loop of `ngx_http_parse_chunked` over the bytes of a buffer. -/
def parseLoop (ctx : Chunked) : Bytes → ChunkParse
  | [] => .again ctx
  | ch :: rest =>
      match chunkByte ctx ch with
      | .next ctx' => parseLoop ctx' rest
      | .data => .ok ctx (ch :: rest)
      | .done => .done rest
      | .invalid => .error

/-- The first lines of `ngx_http_parse_chunked`: a chunk whose data has been
taken is over. -/
def Chunked.resume (ctx : Chunked) : Chunked :=
  if ctx.state = .chunkData ∧ ctx.size = 0 then ctx.to .afterData else ctx

/-- `ctx->length`: how many bytes must follow at least. -/
def Chunked.atLeast (ctx : Chunked) : Int :=
  match ctx.state with
  | .chunkStart => 3
  | .chunkSize => offT (1 + if ctx.size = 0 then 1 else ctx.size + 4)
  | .chunkExtension | .chunkExtensionAlmostDone => offT (1 + ctx.size + 4)
  | .chunkData => offT (ctx.size + 4)
  | .afterData | .afterDataAlmostDone => 4
  | .lastChunkExtension | .lastChunkExtensionAlmostDone => 2
  | .trailer | .trailerAlmostDone => 1
  | .trailerHeader | .trailerHeaderAlmostDone => 2

/-- `ngx_http_parse_chunked` on the bytes of a buffer. -/
def parseChunked (ctx : Chunked) (bytes : Bytes) : ChunkParse :=
  match parseLoop ctx.resume bytes with
  | .ok c left => if c.size < 0 ∨ c.atLeast < 0 then .error else .ok c left
  | .again c => if c.size < 0 ∨ c.atLeast < 0 then .error else .again c
  | .done left => .done left
  | .error => .error

/-- What `ngx_pcalloc` makes of `rb->chunked`. -/
def Chunked.start : Chunked := ⟨.chunkStart, 0⟩

/-- The context after some data of the chunk was taken. -/
def Chunked.taken (ctx : Chunked) (n : Nat) : Chunked := { ctx with size := ctx.size - n }

/-- The body that a stream encodes, up to its end or a fault: the bytes in the
chunks, one at a time. -/
def dechunk (ctx : Chunked) : Bytes → Bytes
  | [] => []
  | ch :: rest =>
      match chunkByte ctx ch with
      | .next ctx' => dechunk ctx' rest
      | .data => ch :: dechunk (ctx.taken 1).resume rest
      | .done => []
      | .invalid => []

/-- What holds of the context inside of the loop: a chunk with data is not
empty, and the size is an `off_t`. -/
structure Chunked.Running (ctx : Chunked) : Prop where
  size_lt : ctx.size < 9223372036854775808
  nonempty : ctx.state = .chunkExtension ∨ ctx.state = .chunkExtensionAlmostDone ∨
    ctx.state = .chunkData → ctx.size ≠ 0

/-- An `off_t` is less than `2 ^ 63`. -/
theorem offT_lt (x : Int) : offT x < 9223372036854775808 :=
  Int.bmod_lt (by decide)

/-- A small sum is no zero, even when it wraps around. -/
theorem offT_ne_zero {x : Int} (hpos : 0 < x) (hlt : x < 18446744073709551616) :
    offT x ≠ 0 := by
  intro hzero
  have hdvd : (18446744073709551616 : Int) ∣ x := Int.dvd_of_bmod_eq_zero hzero
  obtain ⟨k, rfl⟩ := hdvd
  omega

/-- Something must follow a context whose size is no fault. -/
theorem Chunked.atLeast_ne_zero {ctx : Chunked} (hrunning : ctx.Running) (hsize : ¬ ctx.size < 0) :
    ctx.atLeast ≠ 0 := by
  have hlt := hrunning.size_lt
  unfold Chunked.atLeast
  split
  case h_2 =>
    apply offT_ne_zero <;> split <;> omega
  case h_3 => exact offT_ne_zero (by omega) (by omega)
  case h_4 => exact offT_ne_zero (by omega) (by omega)
  case h_5 => exact offT_ne_zero (by omega) (by omega)
  all_goals decide

/-- Taking the state that `chunkSizeEnd` finds keeps the size. -/
theorem chunkSizeEnd_next {ctx ctx' : Chunked} {ch : UInt8} {almostDone done extension : ChunkState}
    (h : chunkSizeEnd ctx ch almostDone done extension = .next ctx') :
    ctx'.size = ctx.size ∧
      (ctx'.state = almostDone ∨ ctx'.state = done ∨ ctx'.state = extension) := by
  unfold chunkSizeEnd at h
  grind [Chunked.to]

/-- A line that is passed over keeps the size. -/
theorem chunkLine_next {ctx ctx' : Chunked} {ch : UInt8} {almostDone done : ChunkState}
    (h : chunkLine ctx ch almostDone done = .next ctx') :
    ctx'.size = ctx.size ∧
      (ctx'.state = almostDone ∨ ctx'.state = done ∨ ctx'.state = ctx.state) := by
  unfold chunkLine at h
  grind [Chunked.to]

/-- A LF that must follow keeps the size. -/
theorem chunkLf_next {ctx ctx' : Chunked} {ch : UInt8} {done : ChunkState}
    (h : chunkLf ctx ch done = .next ctx') : ctx'.size = ctx.size ∧ ctx'.state = done := by
  unfold chunkLf at h
  grind [Chunked.to]

/-- A digit is a small number. -/
theorem hexDigit_lt {ch : UInt8} {d : Nat} (h : hexDigit ch = some d) : d < 512 := by
  have hch := ch.toNat_lt
  have hlow := (ch ||| 32).toNat_lt
  unfold hexDigit at h
  grind

/-- A state that comes behind the size or behind the data asks nothing of it. -/
theorem Chunked.Running.of_state {ctx ctx' : Chunked} (hctx : ctx.Running)
    (hsize : ctx'.size = ctx.size)
    (hstate : ctx.size ≠ 0 ∨ (ctx'.state ≠ .chunkExtension ∧ ctx'.state ≠ .chunkExtensionAlmostDone ∧
      ctx'.state ≠ .chunkData)) : ctx'.Running := by
  refine ⟨hsize ▸ hctx.size_lt, fun hmust => ?_⟩
  rw [hsize]
  rcases hstate with hne | ⟨hext, halmost, hdata⟩
  · exact hne
  · rcases hmust with h | h | h
    · exact absurd h hext
    · exact absurd h halmost
    · exact absurd h hdata

/-- **Step lemma.**  A byte keeps the context in order. -/
theorem Chunked.Running.step {ctx ctx' : Chunked} {ch : UInt8} (hctx : ctx.Running)
    (h : chunkByte ctx ch = .next ctx') : ctx'.Running := by
  cases hstate : ctx.state <;> simp only [chunkByte, hstate] at h
  case chunkStart =>
    split at h
    case h_1 d hd =>
      obtain rfl := ChunkStep.next.inj h
      have hlt := hexDigit_lt hd
      exact ⟨by simp only; omega, by simp⟩
    case h_2 => cases h
  case chunkSize =>
    split at h
    case h_1 d hd =>
      obtain rfl := ChunkStep.next.inj h
      exact ⟨offT_lt _, by simp⟩
    case h_2 =>
      split at h
      case isTrue hzero =>
        obtain ⟨hsize, hto⟩ := chunkSizeEnd_next h
        refine hctx.of_state hsize (Or.inr ?_)
        rcases hto with hto | hto | hto <;> simp [hto]
      case isFalse hzero => exact hctx.of_state (chunkSizeEnd_next h).1 (Or.inl hzero)
  case chunkExtension =>
    exact hctx.of_state (chunkLine_next h).1 (Or.inl (hctx.nonempty (Or.inl hstate)))
  case chunkExtensionAlmostDone =>
    exact hctx.of_state (chunkLf_next h).1 (Or.inl (hctx.nonempty (Or.inr (Or.inl hstate))))
  case chunkData => cases h
  case trailer =>
    split at h
    · obtain rfl := ChunkStep.next.inj h
      exact hctx.of_state rfl (Or.inr (by simp [Chunked.to]))
    · split at h
      · cases h
      · obtain rfl := ChunkStep.next.inj h
        exact hctx.of_state rfl (Or.inr (by simp [Chunked.to]))
  case trailerAlmostDone => split at h <;> cases h
  case afterDataAlmostDone | lastChunkExtensionAlmostDone | trailerHeaderAlmostDone =>
    obtain ⟨hsize, hto⟩ := chunkLf_next h
    exact hctx.of_state hsize (Or.inr (by simp [hto]))
  case afterData | lastChunkExtension | trailerHeader =>
    obtain ⟨hsize, hto⟩ := chunkLine_next h
    refine hctx.of_state hsize (Or.inr ?_)
    rcases hto with hto | hto | hto <;> simp [hto, hstate]

/-- Data is only in front of the parser in the state for it. -/
theorem chunkByte_data {ctx : Chunked} {ch : UInt8} :
    chunkByte ctx ch = .data ↔ ctx.state = .chunkData := by
  cases hstate : ctx.state <;> simp only [chunkByte, hstate, chunkLine, chunkLf] <;>
    grind [chunkSizeEnd]

/-- Inside of the loop there is nothing to resume. -/
theorem Chunked.Running.resume_eq {ctx : Chunked} (hctx : ctx.Running) : ctx.resume = ctx := by
  unfold Chunked.resume
  rw [if_neg]
  rintro ⟨hstate, hzero⟩
  exact hctx.nonempty (Or.inr (Or.inr hstate)) hzero

/-- The context in which the parser starts is in order. -/
theorem Chunked.running_start : Chunked.start.Running := ⟨by decide, by decide⟩

/-! ## A call of the parser -/

/-- A call that runs to the end of its buffer leaves the body to what follows. -/
theorem parseLoop_again {ctx c : Chunked} {bytes : Bytes} (hctx : ctx.Running)
    (h : parseLoop ctx bytes = .again c) :
    c.Running ∧ ∀ more, dechunk ctx (bytes ++ more) = dechunk c more := by
  induction bytes generalizing ctx with
  | nil =>
      obtain rfl := ChunkParse.again.inj h
      exact ⟨hctx, fun more => rfl⟩
  | cons ch rest ih =>
      simp only [parseLoop] at h
      split at h
      case h_1 ctx' hstep =>
        obtain ⟨hc, hrest⟩ := ih (hctx.step hstep) h
        refine ⟨hc, fun more => ?_⟩
        simp only [List.cons_append, dechunk, hstep, hrest]
      all_goals cases h

/-- A call that stops stops in front of data, and what is left begins with it. -/
theorem parseLoop_ok {ctx c : Chunked} {bytes left : Bytes} (hctx : ctx.Running)
    (h : parseLoop ctx bytes = .ok c left) :
    c.Running ∧ c.state = .chunkData ∧
      ∀ more, dechunk ctx (bytes ++ more) = dechunk c (left ++ more) := by
  induction bytes generalizing ctx with
  | nil => cases h
  | cons ch rest ih =>
      simp only [parseLoop] at h
      split at h
      case h_1 ctx' hstep =>
        obtain ⟨hc, hstate, hrest⟩ := ih (hctx.step hstep) h
        refine ⟨hc, hstate, fun more => ?_⟩
        simp only [List.cons_append, dechunk, hstep, hrest]
      case h_2 hstep =>
        obtain ⟨rfl, rfl⟩ := ChunkParse.ok.inj h
        exact ⟨hctx, chunkByte_data.mp hstep, fun more => rfl⟩
      all_goals cases h

/-- A call that stops leaves something, and has read something unless it was in
front of data already. -/
theorem parseLoop_ok_length {ctx c : Chunked} {bytes left : Bytes}
    (h : parseLoop ctx bytes = .ok c left) :
    0 < left.length ∧ (left.length < bytes.length ∨ (c = ctx ∧ left = bytes ∧ c.state = .chunkData)) := by
  induction bytes generalizing ctx with
  | nil => cases h
  | cons ch rest ih =>
      simp only [parseLoop] at h
      split at h
      case h_1 ctx' hstep =>
        obtain ⟨hpos, hless⟩ := ih h
        refine ⟨hpos, Or.inl ?_⟩
        simp only [List.length_cons]
        rcases hless with hlt | ⟨-, rfl, -⟩ <;> omega
      case h_2 hstep =>
        obtain ⟨rfl, rfl⟩ := ChunkParse.ok.inj h
        exact ⟨Nat.succ_pos _, Or.inr ⟨rfl, rfl, chunkByte_data.mp hstep⟩⟩
      all_goals cases h

/-- A call that has seen the end of the body leaves nothing of it. -/
theorem parseLoop_done {ctx : Chunked} {bytes left : Bytes} (h : parseLoop ctx bytes = .done left)
    (more : Bytes) : dechunk ctx (bytes ++ more) = [] := by
  induction bytes generalizing ctx with
  | nil => cases h
  | cons ch rest ih =>
      simp only [parseLoop] at h
      split at h
      case h_1 ctx' hstep => simp only [List.cons_append, dechunk, hstep, ih h]
      case h_3 hstep => simp only [List.cons_append, dechunk, hstep]
      all_goals cases h

/-- Data is taken in parts as it is at once. -/
theorem Chunked.taken_taken (ctx : Chunked) (m n : Nat) :
    (ctx.taken m).taken n = ctx.taken (m + n) := by
  simp only [Chunked.taken, Chunked.mk.injEq, true_and]
  omega

/-- Data that is taken out of a chunk is body, and the rest is left. -/
theorem dechunk_data {ctx : Chunked} {data : Bytes} (hstate : ctx.state = .chunkData)
    (hdata : data ≠ []) (hsize : data.length ≤ ctx.size) (more : Bytes) :
    dechunk ctx (data ++ more) = data ++ dechunk (ctx.taken data.length).resume more := by
  induction data generalizing ctx with
  | nil => exact absurd rfl hdata
  | cons ch data ih =>
      simp only [List.cons_append, dechunk, chunkByte_data.mpr hstate, List.cons.injEq, true_and]
      by_cases hlast : data = []
      · subst hlast
        rfl
      · -- the chunk goes on, so that there is nothing to resume
        have hpos := List.length_pos_iff.mpr hlast
        rw [List.length_cons] at hsize
        have hgoes : (ctx.taken 1).resume = ctx.taken 1 := by
          unfold Chunked.resume
          rw [if_neg]
          rintro ⟨-, hzero⟩
          simp only [Chunked.taken] at hzero
          omega
        have hrest := @ih (ctx.taken 1) hstate hlast (by simp only [Chunked.taken]; omega)
        rw [hgoes, hrest, Chunked.taken_taken, List.length_cons, Nat.add_comm]

/-- What taking data leaves is in order for the next call. -/
theorem Chunked.Running.taken {ctx : Chunked} (hctx : ctx.Running) (n : Nat) :
    (ctx.taken n).size < 9223372036854775808 := by
  have := hctx.size_lt
  simp only [Chunked.taken]
  omega

/-- A chunk in front of which the parser stopped is in order for the next call. -/
theorem Chunked.running_resume {ctx : Chunked} (hstate : ctx.state = .chunkData)
    (hsize : ctx.size < 9223372036854775808) : ctx.resume.Running := by
  unfold Chunked.resume
  split
  · exact ⟨hsize, by simp [Chunked.to]⟩
  case isFalse hnot => exact ⟨hsize, fun _ hzero => hnot ⟨hstate, hzero⟩⟩

/-- What `NGX_AGAIN` says: something must follow, and the body is left to it. -/
theorem parseChunked_again {ctx c : Chunked} {bytes : Bytes} (hctx : ctx.resume.Running)
    (h : parseChunked ctx bytes = .again c) :
    c.resume.Running ∧ c.atLeast ≠ 0 ∧
      ∀ more, dechunk ctx.resume (bytes ++ more) = dechunk c.resume more := by
  unfold parseChunked at h
  split at h
  case h_2 c' hloop =>
    split at h
    · cases h
    case isFalse hvalid =>
      obtain rfl := ChunkParse.again.inj h
      obtain ⟨hc, hmore⟩ := parseLoop_again hctx hloop
      rw [hc.resume_eq]
      exact ⟨hc, Chunked.atLeast_ne_zero hc fun hneg => hvalid (Or.inl hneg), hmore⟩
  case h_1 => split at h <;> cases h
  all_goals cases h

/-- What `NGX_OK` says: the data in front of the parser is body, as far as the
chunk goes, and the rest is left. -/
theorem parseChunked_ok {ctx c : Chunked} {bytes left : Bytes} (hctx : ctx.resume.Running)
    (h : parseChunked ctx bytes = .ok c left) :
    0 < c.size ∧ left ≠ [] ∧ ∀ n more, 0 < n → n ≤ left.length → (n : Int) ≤ c.size →
      (c.taken n).resume.Running ∧
        dechunk ctx.resume (bytes ++ more)
          = left.take n ++ dechunk (c.taken n).resume (left.drop n ++ more) := by
  unfold parseChunked at h
  split at h
  case h_1 c' left' hloop =>
    split at h
    · cases h
    case isFalse hvalid =>
      obtain ⟨rfl, rfl⟩ := ChunkParse.ok.inj h
      obtain ⟨hc, hstate, hmore⟩ := parseLoop_ok hctx hloop
      have hpos := (parseLoop_ok_length hloop).1
      have hne := hc.nonempty (Or.inr (Or.inr hstate))
      refine ⟨by omega, List.length_pos_iff.mp hpos, fun n more hn hleft hsize => ?_⟩
      have htake : (left'.take n).length = n := List.length_take_of_le hleft
      refine ⟨Chunked.running_resume hstate (hc.taken n), ?_⟩
      rw [hmore]
      conv_lhs => rw [← List.take_append_drop n left', List.append_assoc]
      rw [dechunk_data hstate (by rw [← List.length_pos_iff]; omega) (by omega), htake]
  case h_2 => split at h <;> cases h
  all_goals cases h

/-- What `NGX_DONE` says: there is nothing more of the body. -/
theorem parseChunked_done {ctx : Chunked} {bytes left : Bytes}
    (h : parseChunked ctx bytes = .done left) (more : Bytes) :
    dechunk ctx.resume (bytes ++ more) = [] := by
  unfold parseChunked at h
  split at h
  case h_3 left' hloop => exact parseLoop_done hloop more
  case h_4 => cases h
  all_goals split at h <;> cases h

/-- A call that stops in front of data makes progress: it has read something, or
there is data to take. -/
theorem parseChunked_ok_progress {ctx c : Chunked} {bytes left : Bytes}
    (h : parseChunked ctx bytes = .ok c left) :
    0 < left.length ∧ left.length ≤ bytes.length ∧
      (left.length < bytes.length ∨ 0 < c.size) := by
  unfold parseChunked at h
  split at h
  case h_1 c' left' hloop =>
    split at h
    · cases h
    case isFalse hvalid =>
      obtain ⟨rfl, rfl⟩ := ChunkParse.ok.inj h
      obtain ⟨hpos, hless⟩ := parseLoop_ok_length hloop
      have hsize : 0 ≤ c'.size := by omega
      rcases hless with hlt | ⟨rfl, rfl, hstate⟩
      · exact ⟨hpos, by omega, Or.inl hlt⟩
      · refine ⟨hpos, Nat.le_refl _, Or.inr ?_⟩
        have hne : ctx.resume.size ≠ 0 := by
          intro hzero
          unfold Chunked.resume at hstate hzero
          split at hstate <;> simp_all [Chunked.to]
        omega
  case h_2 => split at h <;> cases h
  all_goals cases h

end Toxic
