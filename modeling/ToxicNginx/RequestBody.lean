import ToxicNginx.ChunkedBody
import ToxicNginx.PostBody
import ToxicNginx.StepSystem

/-!
# How a request body is delivered

`ngx_http_read_client_request_body` takes what was read with the request header
first, then reads into a buffer that is as large as the body, or of the size
`client_body_buffer_size`.  Every part goes through a filter, which puts buffers
of its own into `rb->bufs`; a buffer that is full is written to a temporary file.

* `bodyFilter`, `writeRequestBody`, `recvStep` — the filters and the loop around
  `recv`;
* `deliver` — the chain that the handler of the body gets;
* `sentBody` — the body that the client sent;
* `ReadKept`, `recvStep_kept` — nothing of the body is lost on the way;
* `chainContents_deliver` — the chain holds the body;
* `parsedExactly_iff` — the exact condition under which the script gets it.
-/

namespace Toxic

open StepSystem

/-- The directives for the body: `client_body_buffer_size`,
`client_max_body_size`, `client_body_in_file_only` and
`client_body_in_single_buffer`. -/
structure BodyConf where
  bufferSize : Nat
  maxBodySize : Nat
  inFileOnly : Bool
  inSingleBuf : Bool
  deriving DecidableEq, Repr

/-- What is known of a request when its body is read: `r->discard_body`,
`content_length_n` (`none` is -1), `headers_in.chunked`, and in `header_in` the
bytes of `[pos, last)` and how many there are up to `end`. -/
structure BodyRequest where
  discardBody : Bool
  contentLength : Option Nat
  chunked : Bool
  preread : Bytes
  free : Nat
  deriving DecidableEq, Repr

/-- `ngx_http_request_body_t`, with `content_length_n`, which the chunked filter
counts up, and what the temporary file holds. -/
structure BodyState where
  rest : Int
  ctx : Chunked
  contentLength : Int
  bufs : List BodyBuf
  tempFile : Option Bytes
  deriving DecidableEq, Repr

/-- A buffer that is read into: its size, the bytes of `[pos, last)` and how many
there are up to `end`. -/
structure ReadBuf where
  size : Nat
  data : Bytes
  free : Nat
  deriving DecidableEq, Repr

/-- What the first call of a filter makes of `rb->rest`, which is -1 before. -/
def BodyState.start (req : BodyRequest) : BodyState where
  rest := if req.chunked then 3 else req.contentLength.getD 0
  ctx := Chunked.start
  contentLength := 0
  bufs := []
  tempFile := none

/-- A buffer more in `rb->bufs`, as the save filter adds it. -/
def BodyState.add (s : BodyState) (b : BodyBuf) : BodyState := { s with bufs := s.bufs ++ [b] }

/-- `ngx_http_request_body_length_filter` on the bytes of a buffer with `free`
bytes behind them, and what it leaves of them. -/
def lengthFilter (free : Nat) (s : BodyState) (data : Bytes) : BodyState × Bytes :=
  if s.rest = 0 then (s, data)
  else if data.length < s.rest then
    ({ s with rest := s.rest - data.length }.add ⟨data, free, []⟩, [])
  else
    let n := s.rest.toNat
    ({ s with rest := 0 }.add ⟨data.take n, (data.drop n).length + free, []⟩, data.drop n)

/-- The loop of `ngx_http_request_body_chunked_filter` on the bytes of a buffer
with `free` bytes behind them, and what it leaves of them; `none` is an answer
with an error. -/
def chunkedFilter (conf : BodyConf) (free : Nat) (s : BodyState) (unread : Bytes) :
    Option (BodyState × Bytes) :=
  match _h : parseChunked s.ctx unread with
  | .error => none
  | .done left => some ({ s with rest := 0 }.add ⟨[], 0, []⟩, left)
  | .again c => some ({ s with ctx := c, rest := c.atLeast }, [])
  | .ok c left =>
      if conf.maxBodySize ≠ 0 ∧ conf.maxBodySize - s.contentLength < c.size then none
      else
        let n := min left.length c.size.toNat
        chunkedFilter conf free
          ({ s with ctx := c.taken n, contentLength := s.contentLength + n }.add
            ⟨left.take n, (left.drop n).length + free, []⟩)
          (left.drop n)
termination_by unread.length
decreasing_by
  have := parseChunked_ok_progress _h
  rw [List.length_drop]
  omega

/-- `ngx_http_request_body_filter`. -/
def bodyFilter (conf : BodyConf) (req : BodyRequest) (free : Nat) (s : BodyState) (data : Bytes) :
    Option (BodyState × Bytes) :=
  if req.chunked then chunkedFilter conf free s data else some (lengthFilter free s data)

/-- `ngx_http_write_request_body`. -/
def writeRequestBody (s : BodyState) : BodyState :=
  { s with tempFile := some (s.tempFile.getD [] ++ chainContents s.bufs), bufs := [] }

/-- What is done when all of the body was read: a body in the temporary file is
one buffer in a file, or none when the file is empty. -/
def finishBody (conf : BodyConf) (s : BodyState) : List BodyBuf :=
  if s.tempFile.isSome ∨ conf.inFileOnly then
    let file := s.tempFile.getD [] ++ chainContents s.bufs
    if file = [] then [] else [⟨[], 0, file⟩]
  else s.bufs

/-- `ngx_http_do_read_client_request_body` between two calls of `recv`. -/
structure BodyReader where
  body : BodyState
  buf : ReadBuf
  deriving DecidableEq, Repr

/-- A full buffer goes through the filter and to the file, and is used anew. -/
def BodyReader.flush (conf : BodyConf) (req : BodyRequest) (s : BodyReader) : Option BodyReader :=
  if s.buf.free = 0 then
    (bodyFilter conf req 0 s.body s.buf.data).map fun (body, _) =>
      ⟨writeRequestBody body, { s.buf with data := [], free := s.buf.size }⟩
  else some s

/-- What `recv` put behind `last`; the buffer goes through the filter when this
is all that is missing. -/
def BodyReader.recv (conf : BodyConf) (req : BodyRequest) (s : BodyReader) (piece : Bytes) :
    Option BodyReader :=
  let rest := s.body.rest - s.buf.data.length
  if 0 < piece.length ∧ piece.length ≤ s.buf.free ∧ piece.length ≤ rest then
    let data := s.buf.data ++ piece
    let free := s.buf.free - piece.length
    if piece.length = rest then
      (bodyFilter conf req free s.body data).map fun (body, left) =>
        ⟨body, { s.buf with data := left, free := free }⟩
    else some { s with buf := { s.buf with data := data, free := free } }
  else none

/-- One turn of the loop of `ngx_http_do_read_client_request_body`, for what
`recv` returns. -/
def recvStep (conf : BodyConf) (req : BodyRequest) (s : BodyReader) (piece : Bytes) :
    Option BodyReader :=
  if s.body.rest = 0 then none
  else (s.flush conf req).bind fun flushed => flushed.recv conf req piece

/-- Where `ngx_http_read_client_request_body` gets: the handler is called with
`r->request_body`, `none` for NULL, or there is more to read. -/
inductive BodyEntry
  | ready (requestBody : Option (List BodyBuf))
  | reading (s : BodyReader)
  deriving DecidableEq, Repr

/-- How large the buffer is that is made for the rest of a body. -/
def bodyBufSize (conf : BodyConf) (req : BodyRequest) (rest : Int) : Nat :=
  if !req.chunked ∧ rest < (conf.bufferSize + conf.bufferSize / 4 : Nat) then
    rest.toNat + if conf.inSingleBuf then req.preread.length else 0
  else conf.bufferSize

/-- The second half of `ngx_http_read_client_request_body`. -/
def afterPreread (conf : BodyConf) (req : BodyRequest) (s : BodyState) : Option BodyEntry :=
  if s.rest = 0 then some (.ready (some (finishBody conf s)))
  else if s.rest < 0 then none
  else
    let size := bodyBufSize conf req s.rest
    some (.reading ⟨s, ⟨size, [], size⟩⟩)

/-- `ngx_http_read_client_request_body`. -/
def readClientRequestBody (conf : BodyConf) (req : BodyRequest) : Option BodyEntry :=
  if req.discardBody then some (.ready none)
  else if req.contentLength = none ∧ !req.chunked then some (.ready (some []))
  else if req.preread = [] then afterPreread conf req (.start req)
  else
    (bodyFilter conf req req.free (.start req) req.preread).bind fun (s, left) =>
      if !req.chunked ∧ 0 < s.rest ∧ s.rest ≤ req.free then
        -- the whole body may be placed in `header_in`
        some (.reading ⟨s, ⟨left.length + req.free, left, req.free⟩⟩)
      else afterPreread conf req s

/-- What the handler of the body gets when `recv` returns these pieces. -/
def deliver (conf : BodyConf) (req : BodyRequest) (pieces : List Bytes) :
    Option (Option (List BodyBuf)) :=
  (readClientRequestBody conf req).bind fun
    | .ready requestBody => if pieces = [] then some requestBody else none
    | .reading s => (execute (recvStep conf req) s pieces).bind fun t =>
        if t.body.rest = 0 then some (some (finishBody conf t.body)) else none

/-- The body that the client sent. -/
def sentBody (req : BodyRequest) (pieces : List Bytes) : Bytes :=
  let stream := req.preread ++ pieces.flatten
  if req.chunked then dechunk Chunked.start stream
  else stream.take (req.contentLength.getD 0)

/-! ## Nothing of the body is lost -/

/-- What the filter has passed on so far. -/
def BodyState.passed (s : BodyState) : Bytes := s.tempFile.getD [] ++ chainContents s.bufs

/-- What the filter will pass on of a stream. -/
def BodyState.remaining (req : BodyRequest) (s : BodyState) (stream : Bytes) : Bytes :=
  if s.rest = 0 then []
  else if req.chunked then dechunk s.ctx.resume stream
  else stream.take s.rest.toNat

/-- What is kept between two calls of a filter. -/
def BodyState.Sound (req : BodyRequest) (s : BodyState) : Prop :=
  if req.chunked then s.ctx.resume.Running else 0 ≤ s.rest

/-- A buffer more holds what is passed on with it. -/
@[simp] theorem BodyState.passed_add (s : BodyState) (b : BodyBuf) :
    (s.add b).passed = s.passed ++ b.contents := by
  simp [passed, add, chainContents]

/-- A buffer more changes nothing of what is to come. -/
@[simp] theorem BodyState.remaining_add (req : BodyRequest) (s : BodyState) (b : BodyBuf)
    (stream : Bytes) : (s.add b).remaining req stream = s.remaining req stream := rfl

/-- A buffer more keeps what is kept. -/
@[simp] theorem BodyState.sound_add (req : BodyRequest) (s : BodyState) (b : BodyBuf) :
    (s.add b).Sound req ↔ s.Sound req := Iff.rfl

/-- Writing to the file loses nothing. -/
@[simp] theorem passed_writeRequestBody (s : BodyState) :
    (writeRequestBody s).passed = s.passed := by
  simp [writeRequestBody, BodyState.passed, chainContents]

/-- The last step loses nothing. -/
theorem chainContents_finishBody (conf : BodyConf) (s : BodyState) :
    chainContents (finishBody conf s) = s.passed := by
  unfold finishBody
  split
  case isTrue hfile =>
    simp only
    split
    case isTrue hempty => exact hempty.symm
    case isFalse => simp [chainContents, BodyBuf.contents, BodyState.passed]
  case isFalse hfile =>
    have hnone : s.tempFile = none := by
      cases htemp : s.tempFile with
      | none => rfl
      | some file => exact absurd (Or.inl (by simp [htemp])) hfile
    simp [BodyState.passed, hnone]

/-- What a call of the filter does: what it has passed on and what it will pass
on make the same body, and it leaves nothing of the buffer until the end. -/
structure Filtered (req : BodyRequest) (s t : BodyState) (data left : Bytes) : Prop where
  sound : t.Sound req
  body : ∀ more, t.passed ++ t.remaining req (left ++ more)
    = s.passed ++ s.remaining req (data ++ more)
  used : left = [] ∨ t.rest = 0

/-- The filter for a length. -/
theorem lengthFilter_filtered {req : BodyRequest} (hlength : req.chunked = false) {free : Nat}
    {s : BodyState} (hs : s.Sound req) (data : Bytes) :
    Filtered req s (lengthFilter free s data).1 data (lengthFilter free s data).2 := by
  simp only [BodyState.Sound, hlength] at hs
  unfold lengthFilter
  split
  case isTrue hzero =>
    refine ⟨?_, fun more => ?_, Or.inr hzero⟩
    · simpa [BodyState.Sound, hlength] using hs
    · simp [BodyState.remaining, hzero]
  case isFalse hrest =>
    split
    case isTrue hshort =>
      refine ⟨?_, fun more => ?_, Or.inl rfl⟩
      · have hle : 0 ≤ s.rest - data.length := by omega
        rw [BodyState.sound_add]
        simpa [BodyState.Sound, hlength] using hle
      · have hmore : ¬ s.rest - data.length = 0 := by omega
        have htake : (s.rest - data.length).toNat = s.rest.toNat - data.length := by omega
        have hdata : data.length ≤ s.rest.toNat := by omega
        rw [BodyState.passed_add, BodyState.remaining_add]
        simp only [BodyState.remaining, hrest, hmore, hlength, if_false, Bool.false_eq_true, htake,
          List.take_append, List.take_of_length_le hdata, List.append_assoc, List.nil_append]
        simp [BodyState.passed, BodyBuf.contents]
    case isFalse hlong =>
      refine ⟨?_, fun more => ?_, Or.inr rfl⟩
      · rw [BodyState.sound_add]
        simp [BodyState.Sound, hlength]
      · have hdata : s.rest.toNat ≤ data.length := by omega
        rw [BodyState.passed_add, BodyState.remaining_add]
        simp only [BodyState.remaining, hrest, hlength, if_false, if_true, Bool.false_eq_true,
          List.take_append_of_le_length hdata]
        simp [BodyState.passed, BodyBuf.contents]

/-- The filter for chunks. -/
theorem chunkedFilter_filtered {req : BodyRequest} (hchunked : req.chunked = true)
    {conf : BodyConf} {free : Nat} {s t : BodyState} {data left : Bytes} (hs : s.Sound req)
    (hrest : s.rest ≠ 0) (h : chunkedFilter conf free s data = some (t, left)) :
    Filtered req s t data left := by
  simp only [BodyState.Sound, hchunked, if_true] at hs
  induction hlen : data.length using Nat.strong_induction_on generalizing s data with
  | _ len ih =>
    rw [chunkedFilter] at h
    split at h
    case h_1 => cases h
    case h_2 left' hparse =>
      obtain ⟨rfl, rfl⟩ := Prod.mk.inj (Option.some.inj h)
      refine ⟨?_, fun more => ?_, Or.inr rfl⟩
      · rw [BodyState.sound_add]
        simpa [BodyState.Sound, hchunked] using hs
      · have hnone := parseChunked_done hparse more
        rw [BodyState.passed_add, BodyState.remaining_add]
        simp only [BodyState.remaining, hrest, hchunked, if_false, if_true, hnone]
        simp [BodyState.passed, BodyBuf.contents]
    case h_3 c hparse =>
      obtain ⟨rfl, rfl⟩ := Prod.mk.inj (Option.some.inj h)
      obtain ⟨hc, hmust, hmore⟩ := parseChunked_again hs hparse
      refine ⟨by simpa [BodyState.Sound, hchunked] using hc, fun more => ?_, Or.inl rfl⟩
      simp only [BodyState.remaining, hrest, hmust, hchunked, if_false, if_true, hmore,
        List.nil_append]
      rfl
    case h_4 c left' hparse =>
      split at h
      · cases h
      · obtain ⟨hsize, hne, hok⟩ := parseChunked_ok hs hparse
        have hpos := List.length_pos_iff.mpr hne
        obtain ⟨-, hle, -⟩ := parseChunked_ok_progress hparse
        simp only at h
        generalize hn : min left'.length c.size.toNat = n at h
        have hgoes (more : Bytes) := hok n more (by omega) (by omega) (by omega)
        obtain ⟨hsound, hbody, hused⟩ := ih (left'.drop n).length
          (by rw [List.length_drop]; omega) (by exact hrest) h (hgoes []).1 rfl
        refine ⟨hsound, fun more => ?_, hused⟩
        rw [hbody, BodyState.passed_add, BodyState.remaining_add]
        simp only [BodyState.remaining, hrest, hchunked, if_false, if_true, (hgoes more).2]
        simp [BodyState.passed, BodyBuf.contents]

/-- **The filter loses nothing.** -/
theorem bodyFilter_filtered {req : BodyRequest} {conf : BodyConf} {free : Nat} {s t : BodyState}
    {data left : Bytes} (hs : s.Sound req) (hrest : req.chunked = true → s.rest ≠ 0)
    (h : bodyFilter conf req free s data = some (t, left)) : Filtered req s t data left := by
  unfold bodyFilter at h
  split at h
  case isTrue hchunked => exact chunkedFilter_filtered hchunked hs (hrest hchunked) h
  case isFalse hlength =>
    obtain ⟨rfl, rfl⟩ := Prod.mk.inj (Option.some.inj h)
    exact lengthFilter_filtered (by simpa using hlength) hs data

/-- What has been read and not passed on is kept as well. -/
structure ReadKept (req : BodyRequest) (s t : BodyReader) (piece : Bytes) : Prop where
  sound : t.body.Sound req
  body : ∀ more, t.body.passed ++ t.body.remaining req (t.buf.data ++ more)
    = s.body.passed ++ s.body.remaining req (s.buf.data ++ piece ++ more)

/-- At the end there is nothing to come. -/
theorem BodyState.remaining_end {req : BodyRequest} {s : BodyState} (h : s.rest = 0)
    (stream : Bytes) : s.remaining req stream = [] := by
  simp [remaining, h]

/-- A full buffer is passed on as a whole. -/
theorem BodyReader.flush_kept {conf : BodyConf} {req : BodyRequest} {s t : BodyReader}
    (hs : s.body.Sound req) (hrest : s.body.rest ≠ 0) (h : s.flush conf req = some t) :
    ReadKept req s t [] := by
  unfold flush at h
  split at h
  case isTrue hfull =>
    obtain ⟨⟨body, left⟩, hfilter, rfl⟩ := Option.map_eq_some_iff.mp h
    obtain ⟨hsound, hbody, hused⟩ := bodyFilter_filtered hs (fun _ => hrest) hfilter
    refine ⟨hsound, fun more => ?_⟩
    rw [List.append_nil, ← hbody more, passed_writeRequestBody, List.nil_append]
    congr 1
    rcases hused with rfl | hend
    · rfl
    · rw [BodyState.remaining_end hend, BodyState.remaining_end]
      exact hend
  case isFalse =>
    obtain rfl := Option.some.inj h
    exact ⟨hs, fun more => by rw [List.append_nil]⟩

/-- What `recv` returns is kept. -/
theorem BodyReader.recv_kept {conf : BodyConf} {req : BodyRequest} {s t : BodyReader}
    {piece : Bytes} (hs : s.body.Sound req) (h : s.recv conf req piece = some t) :
    ReadKept req s t piece := by
  simp only [recv] at h
  split at h
  case isFalse => cases h
  case isTrue hfits =>
    obtain ⟨hpos, -, hrest⟩ := hfits
    split at h
    case isTrue hall =>
      obtain ⟨⟨body, left⟩, hfilter, rfl⟩ := Option.map_eq_some_iff.mp h
      obtain ⟨hsound, hbody, -⟩ := bodyFilter_filtered hs (fun _ => by omega) hfilter
      exact ⟨hsound, hbody⟩
    case isFalse =>
      obtain rfl := Option.some.inj h
      exact ⟨hs, fun more => rfl⟩

/-- **Step lemma.**  A turn of the loop loses nothing. -/
theorem recvStep_kept {conf : BodyConf} {req : BodyRequest} {s t : BodyReader} {piece : Bytes}
    (hs : s.body.Sound req) (h : recvStep conf req s piece = some t) : ReadKept req s t piece := by
  unfold recvStep at h
  split at h
  case isTrue => cases h
  case isFalse hrest =>
    obtain ⟨m, hm, ht⟩ := Option.bind_eq_some_iff.mp h
    have hflush := BodyReader.flush_kept hs hrest hm
    have hrecv := BodyReader.recv_kept hflush.sound ht
    refine ⟨hrecv.sound, fun more => ?_⟩
    rw [hrecv.body, List.append_assoc, hflush.body, List.append_nil, List.append_assoc]

/-- **Run lemma.**  The loop loses nothing. -/
theorem run_kept {conf : BodyConf} {req : BodyRequest} {s t : BodyReader} {pieces : List Bytes}
    (hrun : Run (recvStep conf req) s pieces t) (hs : s.body.Sound req) :
    ReadKept req s t pieces.flatten := by
  induction hrun with
  | nil s => exact ⟨hs, fun more => by rw [List.flatten_nil, List.append_nil]⟩
  | cons hstep tail ih =>
      have hhead := recvStep_kept hs hstep
      have htail := ih hhead.sound
      refine ⟨htail.sound, fun more => ?_⟩
      rw [htail.body, List.append_assoc, hhead.body, List.flatten_cons]
      simp only [List.append_assoc]

/-- What a filter leaves of a buffer does not matter for what is to come. -/
theorem Filtered.forget {req : BodyRequest} {s t : BodyState} {data left : Bytes}
    (h : Filtered req s t data left) (more : Bytes) :
    t.passed ++ t.remaining req more = s.passed ++ s.remaining req (data ++ more) := by
  rw [← h.body more]
  rcases h.used with rfl | hend
  · rfl
  · rw [BodyState.remaining_end hend, BodyState.remaining_end hend]

/-- The first call of the filter finds all of the body in front of it. -/
theorem BodyState.remaining_start (req : BodyRequest) (stream : Bytes) :
    (BodyState.start req).remaining req stream
      = if req.chunked then dechunk Chunked.start stream
        else stream.take (req.contentLength.getD 0) := by
  unfold remaining start
  cases req.chunked with
  | true => rfl
  | false =>
      simp only [Bool.false_eq_true, if_false, Int.toNat_natCast]
      split
      case isTrue hzero =>
        rw [Int.natCast_eq_zero.mp hzero, List.take_zero]
      case isFalse => rfl

/-- The state before the first call is sound. -/
theorem BodyState.sound_start (req : BodyRequest) : (BodyState.start req).Sound req := by
  unfold Sound start
  split
  · exact Chunked.running_start
  · simp

/-- What holds where `ngx_http_read_client_request_body` gets: the chain that is
ready holds the body, and nothing is lost of one that is to be read. -/
def BodyEntry.Kept (req : BodyRequest) : BodyEntry → Prop
  | .ready none => True
  | .ready (some chain) => ∀ more, chainContents chain
      = (BodyState.start req).remaining req (req.preread ++ more)
  | .reading s => s.body.Sound req ∧
      ∀ more, s.body.passed ++ s.body.remaining req (s.buf.data ++ more)
        = (BodyState.start req).remaining req (req.preread ++ more)

/-- The second half of `ngx_http_read_client_request_body` loses nothing. -/
theorem afterPreread_kept {conf : BodyConf} {req : BodyRequest} {s : BodyState} {e : BodyEntry}
    (hs : s.Sound req)
    (hbody : ∀ more, s.passed ++ s.remaining req more
      = (BodyState.start req).remaining req (req.preread ++ more))
    (h : afterPreread conf req s = some e) : e.Kept req := by
  unfold afterPreread at h
  split at h
  case isTrue hend =>
    obtain rfl := Option.some.inj h
    intro more
    rw [chainContents_finishBody, ← hbody more, BodyState.remaining_end hend, List.append_nil]
  case isFalse =>
    split at h
    · cases h
    · obtain rfl := Option.some.inj h
      exact ⟨hs, hbody⟩

/-- `ngx_http_read_client_request_body` loses nothing. -/
theorem readClientRequestBody_kept {conf : BodyConf} {req : BodyRequest} {e : BodyEntry}
    (h : readClientRequestBody conf req = some e) : e.Kept req := by
  have hstart := BodyState.sound_start req
  unfold readClientRequestBody at h
  split at h
  case isTrue =>
    obtain rfl := Option.some.inj h
    exact trivial
  case isFalse =>
    split at h
    case isTrue hnone =>
      obtain rfl := Option.some.inj h
      intro more
      rw [BodyState.remaining_start, hnone.1]
      simp [chainContents, (by simpa using hnone.2 : req.chunked = false)]
    case isFalse =>
      split at h
      case isTrue hempty =>
        refine afterPreread_kept hstart (fun more => ?_) h
        rw [hempty]
        rfl
      case isFalse =>
        obtain ⟨⟨s, left⟩, hfilter, hrest⟩ := Option.bind_eq_some_iff.mp h
        have hne : req.chunked = true → (BodyState.start req).rest ≠ 0 := by
          intro hchunked
          simp [BodyState.start, hchunked]
        have hfiltered := bodyFilter_filtered hstart hne hfilter
        simp only at hrest
        split at hrest
        case isTrue =>
          obtain rfl := Option.some.inj hrest
          exact ⟨hfiltered.sound, hfiltered.body⟩
        case isFalse => exact afterPreread_kept hfiltered.sound hfiltered.forget hrest

/-- **The chain holds the body**, however it is delivered. -/
theorem chainContents_deliver {conf : BodyConf} {req : BodyRequest} {pieces : List Bytes}
    {chain : List BodyBuf} (h : deliver conf req pieces = some (some chain)) :
    chainContents chain = sentBody req pieces := by
  have hsent : sentBody req pieces
      = (BodyState.start req).remaining req (req.preread ++ pieces.flatten) := by
    rw [BodyState.remaining_start]
    rfl
  rw [hsent]
  obtain ⟨entry, hentry, hrest⟩ := Option.bind_eq_some_iff.mp h
  have hkept := readClientRequestBody_kept hentry
  cases entry with
  | ready requestBody =>
      simp only at hrest
      split at hrest
      · obtain rfl := Option.some.inj hrest
        exact hkept pieces.flatten
      · cases hrest
  | reading s =>
      obtain ⟨t, ht, hend⟩ := Option.bind_eq_some_iff.mp hrest
      split at hend
      case isTrue hzero =>
        obtain rfl := Option.some.inj (Option.some.inj hend)
        have hbody := (run_kept (run_iff_execute.mpr ht) hkept.1).body []
        rw [BodyState.remaining_end hzero, List.append_nil, List.append_nil] at hbody
        rw [chainContents_finishBody, hbody, hkept.2]
      case isFalse => cases hend

/-- **The exact condition.**  However `ngx_http_read_client_request_body` delivers
a body, `parse_str` gets it as it was sent, and nothing else is read, exactly
when the chain is whole. -/
theorem parsedExactly_iff {conf : BodyConf} {req : BodyRequest} {pieces : List Bytes}
    {chain : Option (List BodyBuf)} (h : deliver conf req pieces = some chain)
    (behind : Nat → Nat → UInt8) :
    ParsedExactly behind chain (sentBody req pieces) ↔ Whole chain (sentBody req pieces) := by
  cases chain with
  | none =>
      refine iff_of_false (fun hparsed => ?_) id
      obtain ⟨s, hs, -⟩ := hparsed fun _ _ => 0
      cases hs
  | some chain =>
      rw [← chainContents_deliver h]
      exact parsedExactly_chain_iff behind chain

/-- A body of three bytes that comes behind the header, in two pieces, is read as
it was sent. -/
theorem parsedExactly_sample :
    deliver ⟨8192, 1048576, false, false⟩ ⟨false, some 3, false, [], 100⟩ [[97, 61], [49]]
        = some (some [⟨[97, 61, 49], 0, []⟩]) ∧
      ParsedExactly (fun _ _ => 0) (some [⟨[97, 61, 49], 0, []⟩]) [97, 61, 49] := by
  have hdeliver : deliver ⟨8192, 1048576, false, false⟩ ⟨false, some 3, false, [], 100⟩
      [[97, 61], [49]] = some (some [⟨[97, 61, 49], 0, []⟩]) := by
    decide +kernel
  exact ⟨hdeliver, (parsedExactly_iff hdeliver _).mpr (by decide +kernel)⟩

/-- The same body, read with the header into a buffer with one byte to spare, is
given to `parse_str` with a byte more. -/
theorem open_preread_not_parsed :
    deliver ⟨8192, 1048576, false, false⟩ ⟨false, some 3, false, [97, 61, 49], 1⟩ []
        = some (some [⟨[97, 61, 49], 1, []⟩]) ∧
      sentBody ⟨false, some 3, false, [97, 61, 49], 1⟩ [] = [97, 61, 49] ∧
      ¬ ParsedExactly (fun _ _ => 38) (some [⟨[97, 61, 49], 1, []⟩]) [97, 61, 49] := by
  refine ⟨by decide +kernel, by decide +kernel, fun hparsed => ?_⟩
  obtain ⟨s, hs, -, hlen, -⟩ := hparsed fun _ _ => 0
  have hrun : toxicParsePost (fun _ _ => 0) (fun _ _ => 38) (some [⟨[97, 61, 49], 1, []⟩])
      = some ⟨[97, 61, 49, 38, 0], 4, true⟩ := by
    decide +kernel
  rw [hrun] at hs
  obtain rfl := Option.some.inj hs
  exact absurd hlen (by decide)

end Toxic
