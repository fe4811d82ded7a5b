import ToxicNginx.ComplexUri
import ToxicNginx.ResponseFilters

/-!
# The request line

`ngx_http_parse_request_line` goes over the bytes of `r->header_in` with one state
and leaves pointers into them in `r`; `ngx_http_process_request_uri` takes the
target apart.  Memory is a function of the address.

* `lineByte`, `lineLoop`, `parseRequestLine` — the parser, over any part of the
  line that has been read;
* `processRequestUri` — the path, its extension and the arguments: read off the
  pointers, or by `ngx_http_parse_complex_uri` when the parser has seen something
  that must be decoded or resolved;
* `Copies` — the pass of `ngx_http_parse_complex_uri` over a part of the target
  changes nothing;
* `LineInv`, `lineByte_inv` — what the parser knows in each of its states, and the
  step lemma: the target is clean, and without a flag the pass only copies it.
-/

namespace Toxic

/-- The states of `ngx_http_parse_request_line`. -/
inductive LineState
  | start
  | method
  | spacesBeforeUri
  | schema
  | schemaSlash
  | schemaSlashSlash
  | hostStart
  | host
  | hostEnd
  | hostIpLiteral
  | port
  | hostHttp09
  | afterSlashInUri
  | checkUri
  | checkUriHttp09
  | uri
  | http09
  | httpH
  | httpHT
  | httpHTT
  | httpHTTP
  | firstMajorDigit
  | majorDigit
  | firstMinorDigit
  | minorDigit
  | spacesAfterDigit
  | almostDone
  deriving DecidableEq, Repr

/-- The fields of `r` that the parser sets.  A pointer that is compared with
`NULL` is an `Option`. -/
structure RequestLine where
  state : LineState
  method : Method
  requestStart : Nat
  requestEnd : Option Nat
  methodEnd : Nat
  schemaStart : Option Nat
  schemaEnd : Nat
  hostStart : Option Nat
  hostEnd : Option Nat
  portEnd : Nat
  uriStart : Nat
  uriEnd : Nat
  uriExt : Option Nat
  argsStart : Option Nat
  httpProtocol : Option Nat
  complexUri : Bool
  quotedUri : Bool
  plusInUri : Bool
  spaceInUri : Bool
  httpMajor : Nat
  httpMinor : Nat
  deriving DecidableEq, Repr

/-- `r` as `ngx_http_create_request` leaves it. -/
def RequestLine.fresh : RequestLine where
  state := .start
  method := .unknown
  requestStart := 0
  requestEnd := none
  methodEnd := 0
  schemaStart := none
  schemaEnd := 0
  hostStart := none
  hostEnd := none
  portEnd := 0
  uriStart := 0
  uriEnd := 0
  uriExt := none
  argsStart := none
  httpProtocol := none
  complexUri := false
  quotedUri := false
  plusInUri := false
  spaceInUri := false
  httpMajor := 0
  httpMinor := 0

/-- `NGX_HTTP_PARSE_INVALID_METHOD`, `_INVALID_REQUEST` and `_INVALID_09_METHOD`. -/
inductive LineError
  | invalidMethod
  | invalidRequest
  | invalid09Method
  deriving DecidableEq, Repr

/-- What one byte does: the loop goes on, ends with `goto done`, or returns an
error. -/
inductive LineStep
  | next (r : RequestLine)
  | done (r : RequestLine)
  | error (e : LineError)
  deriving DecidableEq, Repr

/-- `CR`. -/
abbrev cr : UInt8 := 13

/-- `LF`. -/
abbrev lf : UInt8 := 10

/-- A space. -/
abbrev space : UInt8 := 32

/-- `(ch >= 'A' && ch <= 'Z') || ch == '_'`. -/
def methodChar (ch : UInt8) : Bool := (65 ≤ ch && ch ≤ 90) || ch == 95

/-- `c = ch | 0x20` is a letter. -/
def letter (ch : UInt8) : Bool := 97 ≤ (ch ||| 32) && (ch ||| 32) ≤ 122

/-- A decimal digit. -/
def digit (ch : UInt8) : Bool := 48 ≤ ch && ch ≤ 57

/-- The name of a method. -/
def Method.name : Method → Bytes
  | .unknown => []
  | .get => bytesOf "GET"
  | .head => bytesOf "HEAD"
  | .post => bytesOf "POST"
  | .put => bytesOf "PUT"
  | .delete => bytesOf "DELETE"
  | .mkcol => bytesOf "MKCOL"
  | .copy => bytesOf "COPY"
  | .move => bytesOf "MOVE"
  | .options => bytesOf "OPTIONS"
  | .propfind => bytesOf "PROPFIND"
  | .proppatch => bytesOf "PROPPATCH"
  | .lock => bytesOf "LOCK"
  | .unlock => bytesOf "UNLOCK"
  | .patch => bytesOf "PATCH"
  | .trace => bytesOf "TRACE"

/-- The switch over the length of the method and the comparisons in it. -/
def methodOf (token : Bytes) : Option Method :=
  let among (methods : List Method) : Option Method :=
    methods.find? fun method => method.name == token
  match token.length with
  | 3 => among [.get, .put]
  | 4 => among [.post, .copy, .move, .lock, .head]
  | 5 => among [.mkcol, .patch, .trace]
  | 6 => among [.delete, .unlock]
  | 7 => among [.options]
  | 8 => among [.propfind]
  | 9 => among [.proppatch]
  | _ => none

/-- The bytes from one address up to another. -/
def slice (mem : Nat → UInt8) (first last : Nat) : Bytes :=
  (List.range' first (last - first)).map mem

/-- The next state. -/
def RequestLine.to (r : RequestLine) (state : LineState) : RequestLine := { r with state := state }

/-- The end of a line without a version, as HTTP/0.9. -/
def http09End (r : RequestLine) (ch : UInt8) (other : LineStep) : LineStep :=
  if ch = cr then .next { r with httpMinor := 9, state := .almostDone }
  else if ch = lf then .done { r with httpMinor := 9 }
  else other

/-- Spaces in front of the version: `sw_host_http_09`, `sw_check_uri_http_09` and
`sw_http_09`, which differ in what another character does. -/
def spacesByte (r : RequestLine) (p : Nat) (ch : UInt8) (other : LineStep) : LineStep :=
  if ch = space then .next r
  else if ch = 72 then .next { r with httpProtocol := some p, state := .httpH }
  else http09End r ch other

/-- The characters that end a target, with the state behind a space. -/
def uriEndByte (r : RequestLine) (p : Nat) (ch : UInt8) (behind : LineState) (other : LineStep) :
    LineStep :=
  if ch = space then .next { r with uriEnd := p, state := behind }
  else http09End { r with uriEnd := p } ch other

/-- A character that must come next. -/
def expect (r : RequestLine) (ch expected : UInt8) (state : LineState) : LineStep :=
  if ch = expected then .next (r.to state) else .error .invalidRequest

/-- The end of a host or a port: a slash begins the target, and a space stands for
the target `/`, which is taken from between the schema and the host. -/
def hostEndByte (r : RequestLine) (p : Nat) (ch : UInt8) (other : LineStep) : LineStep :=
  if ch = slash then .next { r with uriStart := p, state := .afterSlashInUri }
  else if ch = space then
    .next { r with
      uriStart := r.schemaEnd + 1, uriEnd := r.schemaEnd + 2, state := .hostHttp09 }
  else other

/-- `sw_host` and `sw_host_end`. -/
def hostByte (r : RequestLine) (p : Nat) (ch : UInt8) (inHost : Bool) : LineStep :=
  if inHost && (letter ch || digit ch || ch == dot || ch == 45) then .next (r.to .host)
  else
    let r := { r with hostEnd := some p }
    if ch = 58 then .next (r.to .port)
    else hostEndByte r p ch (.error .invalidRequest)

/-- The characters of an address in brackets, unreserved ones and `sub-delims`. -/
def ipLiteralChar (ch : UInt8) : Bool :=
  digit ch || letter ch || ch == 58 || ch ∈ bytesOf "-._~!$&'()*+,;="

/-- What `sw_after_slash_in_uri` and `sw_check_uri` have in common. -/
def uriByte (r : RequestLine) (p : Nat) (ch : UInt8) (other : LineStep) : LineStep :=
  uriEndByte r p ch .checkUriHttp09 <|
    if ch = percent then .next { r with quotedUri := true, state := .uri }
    else if ch = question then .next { r with argsStart := some (p + 1), state := .uri }
    else if ch = hash then .next { r with complexUri := true, state := .uri }
    else if ch = plus then .next { r with plusInUri := true }
    else if ch = 0 then .error .invalidRequest
    else other

/-- `sw_after_slash_in_uri`. -/
def afterSlashByte (r : RequestLine) (p : Nat) (ch : UInt8) : LineStep :=
  if usual ch then .next (r.to .checkUri)
  else if ch = dot ∨ ch = slash then .next { r with complexUri := true, state := .uri }
  else uriByte r p ch (.next (r.to .checkUri))

/-- `sw_check_uri`. -/
def checkUriByte (r : RequestLine) (p : Nat) (ch : UInt8) : LineStep :=
  if usual ch then .next (r.to .checkUri)
  else if ch = slash then .next { r with uriExt := none, state := .afterSlashInUri }
  else if ch = dot then .next { r with uriExt := some (p + 1), state := .checkUri }
  else uriByte (r.to .checkUri) p ch (.next (r.to .checkUri))

/-- `sw_uri`. -/
def targetByte (r : RequestLine) (p : Nat) (ch : UInt8) : LineStep :=
  if usual ch then .next (r.to .uri)
  else
    uriEndByte r p ch .http09 <|
      if ch = hash then .next { r with complexUri := true, state := .uri }
      else if ch = 0 then .error .invalidRequest
      else .next (r.to .uri)

/-- The value of an `unsigned` field of 16 bits with another digit. -/
def digits16 (n : Nat) (ch : UInt8) : Nat := (n * 10 + (ch.toNat - 48)) % 65536

/-- The switch of `ngx_http_parse_request_line`, for the byte at `p`. -/
def lineByte (mem : Nat → UInt8) (r : RequestLine) (p : Nat) : LineStep :=
  let ch := mem p
  match r.state with
  | .start =>
      let r := { r with requestStart := p }
      if ch = cr ∨ ch = lf then .next r
      else if methodChar ch then .next (r.to .method)
      else .error .invalidMethod
  | .method =>
      if ch = space then
        .next { r with
          methodEnd := p - 1
          method := (methodOf (slice mem r.requestStart p)).getD r.method
          state := .spacesBeforeUri }
      else if methodChar ch then .next r
      else .error .invalidMethod
  | .spacesBeforeUri =>
      if ch = slash then .next { r with uriStart := p, state := .afterSlashInUri }
      else if letter ch then .next { r with schemaStart := some p, state := .schema }
      else if ch = space then .next r
      else .error .invalidRequest
  | .schema =>
      if letter ch then .next r
      else if ch = 58 then .next { r with schemaEnd := p, state := .schemaSlash }
      else .error .invalidRequest
  | .schemaSlash => expect r ch slash .schemaSlashSlash
  | .schemaSlashSlash => expect r ch slash .hostStart
  | .hostStart =>
      let r := { r with hostStart := some p }
      if ch = 91 then .next (r.to .hostIpLiteral) else hostByte r p ch true
  | .host => hostByte r p ch true
  | .hostEnd => hostByte r p ch false
  | .hostIpLiteral =>
      if ipLiteralChar ch then .next r
      else if ch = 93 then .next (r.to .hostEnd)
      else .error .invalidRequest
  | .port =>
      if digit ch then .next r
      else hostEndByte { r with portEnd := p } p ch (.error .invalidRequest)
  | .hostHttp09 => spacesByte r p ch (.error .invalidRequest)
  | .afterSlashInUri => afterSlashByte r p ch
  | .checkUri => checkUriByte r p ch
  -- another character belongs to the target, and is looked at again
  | .checkUriHttp09 => spacesByte r p ch (checkUriByte { r with spaceInUri := true } p ch)
  | .uri => targetByte r p ch
  | .http09 => spacesByte r p ch (targetByte { r with spaceInUri := true } p ch)
  | .httpH => expect r ch 84 .httpHT
  | .httpHT => expect r ch 84 .httpHTT
  | .httpHTT => expect r ch 80 .httpHTTP
  | .httpHTTP => expect r ch slash .firstMajorDigit
  | .firstMajorDigit =>
      if ch < 49 ∨ 57 < ch then .error .invalidRequest
      else .next { r with httpMajor := ch.toNat - 48, state := .majorDigit }
  | .majorDigit =>
      if ch = dot then .next (r.to .firstMinorDigit)
      else if digit ch then .next { r with httpMajor := digits16 r.httpMajor ch }
      else .error .invalidRequest
  | .firstMinorDigit =>
      if digit ch then .next { r with httpMinor := ch.toNat - 48, state := .minorDigit }
      else .error .invalidRequest
  | .minorDigit =>
      if ch = cr then .next (r.to .almostDone)
      else if ch = lf then .done r
      else if ch = space then .next (r.to .spacesAfterDigit)
      else if digit ch then .next { r with httpMinor := digits16 r.httpMinor ch }
      else .error .invalidRequest
  | .spacesAfterDigit =>
      if ch = space then .next r
      else if ch = cr then .next (r.to .almostDone)
      else if ch = lf then .done r
      else .error .invalidRequest
  | .almostDone =>
      let r := { r with requestEnd := some (p - 1) }
      if ch = lf then .done r else .error .invalidRequest

/-- `r->http_version`. -/
def RequestLine.httpVersion (r : RequestLine) : Nat := r.httpMajor * 1000 + r.httpMinor

/-- What a call returns, with `b->pos`. -/
inductive LineParse
  | ok (r : RequestLine) (pos : Nat)
  | again (r : RequestLine) (pos : Nat)
  | error (e : LineError)
  deriving DecidableEq, Repr

/-- What stands behind `done`, for a line feed at `p`. -/
def lineDone (r : RequestLine) (p : Nat) : LineParse :=
  let r := { r with requestEnd := some (r.requestEnd.getD p), state := .start }
  if r.httpVersion = 9 ∧ r.method ≠ .get then .error .invalid09Method else .ok r (p + 1)

/-- The loop over the bytes from `p` on. -/
def lineLoop (mem : Nat → UInt8) (r : RequestLine) (p : Nat) : Nat → LineParse
  | 0 => .again r p
  | n + 1 =>
      match lineByte mem r p with
      | .next r' => lineLoop mem r' (p + 1) n
      | .done r' => lineDone r' p
      | .error e => .error e

/-- `ngx_http_parse_request_line` on the bytes from `pos` to `last`. -/
def parseRequestLine (mem : Nat → UInt8) (r : RequestLine) (pos last : Nat) : LineParse :=
  lineLoop mem r pos (last - pos)

/-- The calls of `ngx_http_process_request_line`, each on the bytes that were read
since the last one. -/
def lineCalls (mem : Nat → UInt8) (r : RequestLine) (pos : Nat) : List Nat → LineParse
  | [] => .again r pos
  | n :: reads =>
      match parseRequestLine mem r pos (pos + n) with
      | .again r' pos' => lineCalls mem r' pos' reads
      | result => result

/-- The end of the path, by `r->args_start` and `r->uri_end`. -/
def RequestLine.pathEnd (r : RequestLine) : Nat := r.argsStart.elim r.uriEnd (· - 1)

/-- `ngx_http_process_request_uri`: the fields of `r`, or `none` when it answers
with 400. -/
def processRequestUri (mem : Nat → UInt8) (mergeSlashes : Bool) (r : RequestLine) :
    Option RequestUri :=
  if r.complexUri || r.quotedUri then
    parseComplexUri mergeSlashes r.quotedUri r.plusInUri (slice mem r.uriStart r.uriEnd)
  else
    some {
      uri := slice mem r.uriStart r.pathEnd
      exten := r.uriExt.elim [] (slice mem · r.pathEnd)
      args := r.argsStart.elim [] (slice mem · r.uriEnd)
      quotedUri := r.quotedUri
      plusInUri := r.plusInUri }

/-! ## Parts of memory -/

@[simp] theorem slice_self (mem : Nat → UInt8) (a : Nat) : slice mem a a = [] := by
  simp [slice]

theorem slice_succ (mem : Nat → UInt8) {a b : Nat} (h : a ≤ b) :
    slice mem a (b + 1) = slice mem a b ++ [mem b] := by
  unfold slice
  rw [show b + 1 - a = (b - a) + 1 by omega, List.range'_1_concat, List.map_append, List.map_singleton,
    show a + (b - a) = b by omega]

theorem slice_append (mem : Nat → UInt8) {a b c : Nat} (hab : a ≤ b) (hbc : b ≤ c) :
    slice mem a b ++ slice mem b c = slice mem a c := by
  unfold slice
  rw [← List.map_append, show c - a = (b - a) + (c - b) by omega, ← List.range'_append_1,
    show a + (b - a) = b by omega]

theorem slice_cons (mem : Nat → UInt8) {a b : Nat} (h : a < b) :
    slice mem a b = mem a :: slice mem (a + 1) b := by
  unfold slice
  rw [show b - a = (b - (a + 1)) + 1 by omega, List.range'_succ, List.map_cons]

@[simp] theorem slice_length (mem : Nat → UInt8) (a b : Nat) : (slice mem a b).length = b - a := by
  simp [slice]

theorem slice_drop (mem : Nat → UInt8) (a b n : Nat) :
    (slice mem a b).drop n = slice mem (a + n) b := by
  unfold slice
  rw [← List.map_drop, List.drop_range', show b - (a + n) = b - a - n by omega, Nat.mul_one]

theorem mem_slice {mem : Nat → UInt8} {a b : Nat} {ch : UInt8} :
    ch ∈ slice mem a b ↔ ∃ k, a ≤ k ∧ k < b ∧ mem k = ch := by
  unfold slice
  constructor
  · intro h
    obtain ⟨k, hk, rfl⟩ := List.mem_map.mp h
    obtain ⟨hlow, hhigh⟩ := List.mem_range'_1.mp hk
    exact ⟨k, hlow, by omega, rfl⟩
  · rintro ⟨k, hlow, hhigh, rfl⟩
    exact List.mem_map.mpr ⟨k, List.mem_range'_1.mpr ⟨hlow, by omega⟩, rfl⟩

/-! ## The pass over a target that needs none -/

/-- The loop of the pass over characters that do not end it. -/
def complexNext (mergeSlashes : Bool) (s : ComplexUri) : Bytes → Option ComplexUri
  | [] => some s
  | ch :: rest =>
      match complexByte mergeSlashes s ch with
      | .next s' => complexNext mergeSlashes s' rest
      | _ => none

theorem complexLoop_append {mergeSlashes : Bool} {s t : ComplexUri} {front : Bytes}
    (h : complexNext mergeSlashes s front = some t) (rest : Bytes) :
    complexLoop mergeSlashes s (front ++ rest) = complexLoop mergeSlashes t rest := by
  induction front generalizing s with
  | nil =>
      obtain rfl := Option.some.inj h
      rfl
  | cons ch front ih =>
      rw [complexNext] at h
      rw [List.cons_append, complexLoop]
      split at h
      case h_1 s' hbyte =>
        rw [hbyte]
        exact ih h
      case h_2 => cases h

theorem complexNext_concat {mergeSlashes : Bool} {s t u : ComplexUri} {front : Bytes} {ch : UInt8}
    (h : complexNext mergeSlashes s front = some t)
    (hbyte : complexByte mergeSlashes t ch = .next u) :
    complexNext mergeSlashes s (front ++ [ch]) = some u := by
  induction front generalizing s with
  | nil =>
      obtain rfl := Option.some.inj h
      simp [complexNext, hbyte]
  | cons c front ih =>
      rw [List.cons_append, complexNext]
      rw [complexNext] at h
      split at h
      case h_1 => exact ih h
      case h_2 => cases h

/-- A character that the parser passes over in a path. -/
def Ordinary (ch : UInt8) : Prop :=
  ch ≠ slash ∧ ch ≠ dot ∧ ch ≠ percent ∧ ch ≠ question ∧ ch ≠ hash

instance (ch : UInt8) : Decidable (Ordinary ch) := by
  unfold Ordinary
  infer_instance

/-- The pass copies an ordinary character. -/
theorem complexByte_ordinary (mergeSlashes : Bool) {s : ComplexUri} {ch : UInt8} (h : Ordinary ch)
    (hstate : s.state = .slash ∨ s.state = .usual) :
    ∃ t, complexByte mergeSlashes s ch = .next t ∧ t.state = .usual ∧ t.out = s.out ++ [ch] ∧
      t.uriExt = s.uriExt ∧ t.quotedUri = s.quotedUri ∧
      t.plusInUri = (s.plusInUri || decide (ch = plus)) := by
  obtain ⟨hslash, hdot, hpercent, hquestion, hhash⟩ := h
  have hplain : complexByte mergeSlashes s ch
      = if usual ch then .next (s.put ch .usual) else otherByte s ch := by
    rcases hstate with hs | hs <;> simp [complexByte, plainByte, hs, hslash, hdot]
  rw [hplain]
  by_cases husual : usual ch = true
  · have hplus : ch ≠ plus := by
      rintro rfl
      exact absurd husual (by decide)
    rw [if_pos husual]
    exact ⟨_, rfl, rfl, rfl, rfl, rfl, by simp [ComplexUri.put, hplus]⟩
  · rw [if_neg husual, otherByte, if_neg hpercent, if_neg hquestion, if_neg hhash]
    by_cases hplus : ch = plus
    · rw [if_pos hplus]
      exact ⟨_, rfl, rfl, rfl, rfl, rfl, by simp [hplus]⟩
    · rw [if_neg hplus]
      exact ⟨_, rfl, rfl, rfl, rfl, rfl, by simp [ComplexUri.put, hplus]⟩

/-- The pass over the target as far as `q` copies it, and comes to the same flags
and extension as the parser. -/
def Copies (mem : Nat → UInt8) (r : RequestLine) (q : Nat) (P : UriState → Prop) : Prop :=
  ∀ mergeSlashes plusInUri, ∃ s,
    complexNext mergeSlashes (.start false plusInUri) (slice mem r.uriStart q) = some s ∧
    P s.state ∧ s.out = slice mem r.uriStart q ∧ r.uriExt = s.uriExt.map (r.uriStart + ·) ∧
    s.quotedUri = false ∧ s.plusInUri = (plusInUri || r.plusInUri)

/-- Nothing of a target has been read. -/
def NoTarget (r : RequestLine) : Prop :=
  r.complexUri = false ∧ r.quotedUri = false ∧ r.plusInUri = false ∧ r.uriExt = none ∧
    r.argsStart = none

/-- The method is a name that lies in front of `x`. -/
def Named (r : RequestLine) (x : Nat) : Prop := r.requestStart ≤ r.methodEnd ∧ r.methodEnd < x

/-- The bytes from a slash up to `e` can be a target. -/
structure CleanTarget (mem : Nat → UInt8) (r : RequestLine) (e : Nat) : Prop where
  start : mem r.uriStart = slash
  lt : r.uriStart < e
  clean : ∀ k, r.uriStart ≤ k → k < e → mem k ≠ 0 ∧ mem k ≠ cr ∧ mem k ≠ lf

/-- A path as far as `e` in which nothing must be decoded or resolved. -/
structure OpenPath (mem : Nat → UInt8) (r : RequestLine) (e : Nat) (P : UriState → Prop) : Prop
    extends CleanTarget mem r e where
  complexUri : r.complexUri = false
  quotedUri : r.quotedUri = false
  argsStart : r.argsStart = none
  inPath : ∀ k, r.uriStart ≤ k → k < e → inPath (mem k) = true
  copies : Copies mem r e P

/-- The states of the pass between two segments or in one. -/
def InSegment (state : UriState) : Prop := state = .slash ∨ state = .usual

/-- A target as far as `e`.  In front of its arguments lies a path in which
nothing must be resolved, and without a flag the pass only copies. -/
structure Target (mem : Nat → UInt8) (r : RequestLine) (e : Nat) : Prop extends CleanTarget mem r e where
  args : ∀ a ∈ r.argsStart, r.uriStart + 1 < a ∧ a ≤ e ∧ mem (a - 1) = question ∧
    ∀ k, r.uriStart ≤ k → k < a - 1 → Toxic.inPath (mem k) = true
  plain : r.complexUri = false → r.quotedUri = false →
    Copies mem r (r.argsStart.elim e (· - 1)) InSegment ∧
    ∀ a ∈ r.argsStart, ∀ k, a ≤ k → k < e → mem k ≠ hash

/-- The fields that the two speak of. -/
def RequestLine.target (r : RequestLine) : Nat × Bool × Bool × Bool × Option Nat × Option Nat :=
  (r.uriStart, r.complexUri, r.quotedUri, r.plusInUri, r.uriExt, r.argsStart)

theorem OpenPath.of_eq {mem : Nat → UInt8} {r r' : RequestLine} {e : Nat} {P : UriState → Prop}
    (h : OpenPath mem r e P) (heq : r'.target = r.target) : OpenPath mem r' e P := by
  simp only [RequestLine.target, Prod.mk.injEq] at heq
  obtain ⟨hstart, hcomplex, hquoted, hplus, hext, hargs⟩ := heq
  refine ⟨⟨?_, ?_, ?_⟩, ?_, ?_, ?_, ?_, ?_⟩
  · rw [hstart]
    exact h.start
  · rw [hstart]
    exact h.lt
  · rw [hstart]
    exact h.clean
  · rw [hcomplex]
    exact h.complexUri
  · rw [hquoted]
    exact h.quotedUri
  · rw [hargs]
    exact h.argsStart
  · rw [hstart]
    exact h.inPath
  · unfold Copies
    rw [hstart, hext, hplus]
    exact h.copies

theorem Target.of_eq {mem : Nat → UInt8} {r r' : RequestLine} {e : Nat}
    (h : Target mem r e) (heq : r'.target = r.target) : Target mem r' e := by
  simp only [RequestLine.target, Prod.mk.injEq] at heq
  obtain ⟨hstart, hcomplex, hquoted, hplus, hext, hargs⟩ := heq
  refine ⟨⟨?_, ?_, ?_⟩, ?_, ?_⟩
  · rw [hstart]
    exact h.start
  · rw [hstart]
    exact h.lt
  · rw [hstart]
    exact h.clean
  · rw [hstart, hargs]
    exact h.args
  · unfold Copies
    rw [hstart, hcomplex, hquoted, hplus, hext, hargs]
    exact h.plain

theorem OpenPath.mono {mem : Nat → UInt8} {r : RequestLine} {e : Nat} {P Q : UriState → Prop}
    (h : OpenPath mem r e P) (hPQ : ∀ state, P state → Q state) : OpenPath mem r e Q := by
  refine ⟨h.toCleanTarget, h.complexUri, h.quotedUri, h.argsStart, h.inPath, fun mergeSlashes plusInUri => ?_⟩
  obtain ⟨s, hnext, hstate, hrest⟩ := h.copies mergeSlashes plusInUri
  exact ⟨s, hnext, hPQ _ hstate, hrest⟩

/-- A byte that a target may hold. -/
def UriByte (ch : UInt8) : Prop := ch ≠ 0 ∧ ch ≠ cr ∧ ch ≠ lf

instance (ch : UInt8) : Decidable (UriByte ch) := by
  unfold UriByte
  infer_instance

theorem CleanTarget.succ {mem : Nat → UInt8} {r r' : RequestLine} {p : Nat} (h : CleanTarget mem r p)
    (hbyte : UriByte (mem p)) (hstart : r'.uriStart = r.uriStart) : CleanTarget mem r' (p + 1) := by
  refine ⟨by rw [hstart]; exact h.start, by rw [hstart]; exact Nat.lt_succ_of_lt h.lt, ?_⟩
  intro k hlow hhigh
  rw [hstart] at hlow
  rcases Nat.lt_succ_iff_lt_or_eq.mp hhigh with hlt | rfl
  · exact h.clean k hlow hlt
  · exact hbyte

theorem inPath_succ {mem : Nat → UInt8} {a p : Nat}
    (h : ∀ k, a ≤ k → k < p → inPath (mem k) = true) (hp : inPath (mem p) = true) :
    ∀ k, a ≤ k → k < p + 1 → inPath (mem k) = true := by
  intro k hlow hhigh
  rcases Nat.lt_succ_iff_lt_or_eq.mp hhigh with hlt | rfl
  · exact h k hlow hlt
  · exact hp

/-- The slash that begins a target. -/
theorem NoTarget.openPath {mem : Nat → UInt8} {r : RequestLine} (h : NoTarget r) {q : Nat}
    (hslash : mem q = slash) {t : RequestLine}
    (heq : t.target = { r with uriStart := q }.target) : OpenPath mem t (q + 1) InSegment := by
  refine OpenPath.of_eq (r := { r with uriStart := q }) ?_ heq
  have hall : ∀ k, q ≤ k → k < q + 1 → mem k = slash := by
    intro k hlow hhigh
    rw [show k = q by omega, hslash]
  obtain ⟨hcomplex, hquoted, hplus, hext, hargs⟩ := h
  refine ⟨⟨hslash, Nat.lt_succ_self q, fun k hlow hhigh => ?_⟩, hcomplex, hquoted, hargs,
    fun k hlow hhigh => ?_, ?_⟩
  · rw [hall k hlow hhigh]
    decide
  · rw [hall k hlow hhigh]
    decide
  intro mergeSlashes plusInUri
  rw [slice_succ mem (le_refl q), slice_self, hslash]
  exact ⟨_, rfl, Or.inl rfl, rfl, hext, rfl, by simp [ComplexUri.start, ComplexUri.put, hplus]⟩

/-- An ordinary character of a path. -/
theorem OpenPath.ordinary {mem : Nat → UInt8} {r : RequestLine} {p : Nat} {P : UriState → Prop}
    (h : OpenPath mem r p P) (hP : ∀ state, P state → InSegment state) (hch : Ordinary (mem p))
    (hbyte : UriByte (mem p)) {r' : RequestLine}
    (heq : r'.target = { r with plusInUri := r.plusInUri || decide (mem p = plus) }.target) :
    OpenPath mem r' (p + 1) (· = .usual) := by
  refine OpenPath.of_eq (r := { r with plusInUri := r.plusInUri || decide (mem p = plus) }) ?_ heq
  refine ⟨h.toCleanTarget.succ hbyte rfl, h.complexUri, h.quotedUri, h.argsStart,
    inPath_succ h.inPath ?_, ?_⟩
  · simp [Toxic.inPath, hch.2.2.2.1, hch.2.2.2.2]
  · intro mergeSlashes plusInUri
    obtain ⟨s, hnext, hstate, hout, hext, hquoted, hplus⟩ := h.copies mergeSlashes plusInUri
    obtain ⟨t, hbyte, htstate, htout, htext, htquoted, htplus⟩ :=
      complexByte_ordinary mergeSlashes hch (hP _ hstate)
    rw [slice_succ mem (Nat.le_of_lt h.lt)]
    refine ⟨t, complexNext_concat hnext hbyte, htstate, by rw [htout, hout], by rw [htext, hext],
      by rw [htquoted, hquoted], ?_⟩
    rw [htplus, hplus, Bool.or_assoc]

/-- A slash behind a segment. -/
theorem OpenPath.slash {mem : Nat → UInt8} {r : RequestLine} {p : Nat}
    (h : OpenPath mem r p (· = .usual)) (hch : mem p = slash) {r' : RequestLine}
    (heq : r'.target = { r with uriExt := none }.target) : OpenPath mem r' (p + 1) InSegment := by
  refine OpenPath.of_eq (r := { r with uriExt := none }) ?_ heq
  refine ⟨h.toCleanTarget.succ (by rw [hch]; decide) rfl, h.complexUri, h.quotedUri, h.argsStart,
    inPath_succ h.inPath (by rw [hch]; decide), ?_⟩
  intro mergeSlashes plusInUri
  obtain ⟨s, hnext, hstate, hout, hext, hquoted, hplus⟩ := h.copies mergeSlashes plusInUri
  have husual : usual Toxic.slash = false := by decide
  have hbyte : complexByte mergeSlashes s Toxic.slash
      = .next { s.put Toxic.slash .slash with uriExt := none } := by
    simp [complexByte, plainByte, hstate, husual]
  rw [slice_succ mem (Nat.le_of_lt h.lt), hch]
  exact ⟨_, complexNext_concat hnext hbyte, Or.inl rfl, by simp [ComplexUri.put, hout], rfl, hquoted,
    hplus⟩

/-- A dot in a segment. -/
theorem OpenPath.dot {mem : Nat → UInt8} {r : RequestLine} {p : Nat}
    (h : OpenPath mem r p (· = .usual)) (hch : mem p = dot) {r' : RequestLine}
    (heq : r'.target = { r with uriExt := some (p + 1) }.target) :
    OpenPath mem r' (p + 1) (· = .usual) := by
  refine OpenPath.of_eq (r := { r with uriExt := some (p + 1) }) ?_ heq
  refine ⟨h.toCleanTarget.succ (by rw [hch]; decide) rfl, h.complexUri, h.quotedUri, h.argsStart,
    inPath_succ h.inPath (by rw [hch]; decide), ?_⟩
  intro mergeSlashes plusInUri
  obtain ⟨s, hnext, hstate, hout, hext, hquoted, hplus⟩ := h.copies mergeSlashes plusInUri
  have husual : usual Toxic.dot = false := by decide
  have hbyte : complexByte mergeSlashes s Toxic.dot
      = .next { s.put Toxic.dot .usual with uriExt := some (s.out.length + 1) } := by
    simp [complexByte, plainByte, hstate, husual, show Toxic.dot ≠ Toxic.slash by decide]
  rw [slice_succ mem (Nat.le_of_lt h.lt), hch]
  refine ⟨_, complexNext_concat hnext hbyte, rfl, by simp [ComplexUri.put, hout], ?_, hquoted, hplus⟩
  have := h.lt
  simp only [hout, slice, List.length_map, List.length_range', Option.map_some, Option.some.injEq]
  omega

/-- A path that ends here is a target. -/
theorem OpenPath.target {mem : Nat → UInt8} {r : RequestLine} {e : Nat} {P : UriState → Prop}
    (h : OpenPath mem r e P) (hP : ∀ state, P state → InSegment state) : Target mem r e := by
  refine ⟨h.toCleanTarget, ?_, fun _ _ => ?_⟩
  · rw [h.argsStart]
    exact fun a ha => by cases ha
  · rw [h.argsStart]
    refine ⟨fun mergeSlashes plusInUri => ?_, fun a ha => by cases ha⟩
    obtain ⟨s, hnext, hstate, hrest⟩ := h.copies mergeSlashes plusInUri
    exact ⟨s, hnext, hP _ hstate, hrest⟩

/-- Something that must be decoded or resolved. -/
theorem OpenPath.marked {mem : Nat → UInt8} {r r' : RequestLine} {p : Nat} {P : UriState → Prop}
    (h : OpenPath mem r p P) (hbyte : UriByte (mem p)) (hstart : r'.uriStart = r.uriStart)
    (hargs : r'.argsStart = r.argsStart) (hmark : r'.complexUri = true ∨ r'.quotedUri = true) :
    Target mem r' (p + 1) := by
  refine ⟨h.toCleanTarget.succ hbyte hstart, ?_, fun hcomplex hquoted => ?_⟩
  · rw [hargs, h.argsStart]
    exact fun a ha => by cases ha
  · rw [hcomplex, hquoted] at hmark
    exact absurd hmark (by decide)

/-- The question mark in front of the arguments. -/
theorem OpenPath.args {mem : Nat → UInt8} {r : RequestLine} {p : Nat} {P : UriState → Prop}
    (h : OpenPath mem r p P) (hP : ∀ state, P state → InSegment state) (hch : mem p = question)
    {r' : RequestLine} (heq : r'.target = { r with argsStart := some (p + 1) }.target) :
    Target mem r' (p + 1) := by
  refine Target.of_eq (r := { r with argsStart := some (p + 1) }) ?_ heq
  refine ⟨h.toCleanTarget.succ (by rw [hch]; decide) rfl, ?_, fun _ _ => ⟨?_, ?_⟩⟩
  · intro a ha
    obtain rfl := Option.some.inj ha
    have := h.lt
    exact ⟨by simp only; omega, le_refl _, by rw [Nat.add_sub_cancel]; exact hch, h.inPath⟩
  · intro mergeSlashes plusInUri
    obtain ⟨s, hnext, hstate, hrest⟩ := h.copies mergeSlashes plusInUri
    exact ⟨s, hnext, hP _ hstate, hrest⟩
  · intro a ha k hlow hhigh
    obtain rfl := Option.some.inj ha
    omega

/-- The parser has left the path. -/
def Marked (r : RequestLine) : Prop :=
  r.complexUri = true ∨ r.quotedUri = true ∨ r.argsStart.isSome = true

/-- Another character behind the path. -/
theorem Target.more {mem : Nat → UInt8} {r r' : RequestLine} {p : Nat} (h : Target mem r p)
    (hmarked : Marked r) (hbyte : UriByte (mem p))
    (heq : { r' with complexUri := r.complexUri }.target = r.target)
    (hcomplex : r'.complexUri = false → r.complexUri = false ∧ mem p ≠ hash) :
    Target mem r' (p + 1) := by
  simp only [RequestLine.target, Prod.mk.injEq, true_and] at heq
  obtain ⟨hstart, hquoted, hplus, hext, hargs⟩ := heq
  refine ⟨h.toCleanTarget.succ hbyte hstart, ?_, fun hcomplex' hquoted' => ?_⟩
  · rw [hargs, hstart]
    intro a ha
    obtain ⟨hlow, hhigh, hrest⟩ := h.args a ha
    exact ⟨hlow, Nat.le_succ_of_le hhigh, hrest⟩
  · obtain ⟨hnot, hhash⟩ := hcomplex hcomplex'
    rw [hquoted] at hquoted'
    obtain ⟨hcopies, hargsHash⟩ := h.plain hnot hquoted'
    rcases hmarked with hm | hm | hm
    · exact absurd hm (by rw [hnot]; decide)
    · exact absurd hm (by rw [hquoted']; decide)
    · obtain ⟨a, ha⟩ := Option.isSome_iff_exists.mp hm
      unfold Copies at hcopies ⊢
      rw [ha] at hcopies
      rw [hstart, hext, hplus, hargs, ha]
      refine ⟨hcopies, fun b hb k hlow hhigh => ?_⟩
      rcases Nat.lt_succ_iff_lt_or_eq.mp hhigh with hlt | rfl
      · exact hargsHash b (ha ▸ hb) k hlow hlt
      · exact hhash

/-- What the parser knows in front of the byte at `p`. -/
def LineInv (mem : Nat → UInt8) (r : RequestLine) (p : Nat) : Prop :=
  r.requestEnd = none ∧
  match r.state with
  | .start => NoTarget r
  | .method => NoTarget r ∧ r.requestStart < p
  | .spacesBeforeUri | .schema => NoTarget r ∧ Named r p
  | .schemaSlash => NoTarget r ∧ Named r r.schemaEnd ∧ p = r.schemaEnd + 1
  | .schemaSlashSlash =>
      NoTarget r ∧ Named r r.schemaEnd ∧ p = r.schemaEnd + 2 ∧ mem (r.schemaEnd + 1) = slash
  | .hostStart | .host | .hostEnd | .hostIpLiteral | .port =>
      NoTarget r ∧ Named r r.schemaEnd ∧ r.schemaEnd + 2 < p ∧ mem (r.schemaEnd + 1) = slash
  | .afterSlashInUri => Named r r.uriStart ∧ r.uriExt = none ∧ OpenPath mem r p InSegment
  | .checkUri => Named r r.uriStart ∧ OpenPath mem r p (· = .usual)
  | .checkUriHttp09 =>
      Named r r.uriStart ∧ OpenPath mem r p (· = .usual) ∧ OpenPath mem r r.uriEnd InSegment ∧
        r.uriEnd < p
  | .uri => Named r r.uriStart ∧ Target mem r p ∧ Marked r
  | .http09 =>
      Named r r.uriStart ∧ Target mem r p ∧ Target mem r r.uriEnd ∧ r.uriEnd < p ∧ Marked r
  | .hostHttp09 | .httpH | .httpHT | .httpHTT | .httpHTTP | .firstMajorDigit | .majorDigit
  | .firstMinorDigit | .minorDigit | .spacesAfterDigit | .almostDone =>
      Named r r.uriStart ∧ Target mem r r.uriEnd ∧ r.uriEnd < p

/-- What it knows when the line feed at `p` ends the line. -/
structure LineEnds (mem : Nat → UInt8) (r : RequestLine) (p : Nat) : Prop where
  named : Named r r.uriStart
  target : Target mem r r.uriEnd
  before : r.uriEnd ≤ r.requestEnd.getD p
  lineFeed : r.requestEnd.getD p ≤ p

/-- What one step must leave. -/
def StepInv (mem : Nat → UInt8) (p : Nat) : LineStep → Prop
  | .next r => LineInv mem r (p + 1)
  | .done r => LineEnds mem r p
  | .error _ => True

/-! ## The steps of the parser -/

/-- A target that has ended, in front of `p`. -/
structure Closed (mem : Nat → UInt8) (r : RequestLine) (p : Nat) : Prop where
  requestEnd : r.requestEnd = none
  named : Named r r.uriStart
  target : Target mem r r.uriEnd
  before : r.uriEnd < p

/-- The states behind a target. -/
def LineState.closed : LineState → Bool
  | .hostHttp09 | .httpH | .httpHT | .httpHTT | .httpHTTP | .firstMajorDigit | .majorDigit
  | .firstMinorDigit | .minorDigit | .spacesAfterDigit | .almostDone => true
  | _ => false

/-- A target that has ended is all that matters behind it. -/
theorem Closed.lineInv {mem : Nat → UInt8} {r : RequestLine} {p : Nat} (h : Closed mem r p)
    (hstate : r.state.closed = true) : LineInv mem r p := by
  refine ⟨h.requestEnd, ?_⟩
  cases hs : r.state <;> rw [hs] at hstate <;> first
    | exact ⟨h.named, h.target, h.before⟩
    | cases hstate

/-- The same for another record. -/
theorem Closed.of_eq {mem : Nat → UInt8} {r t : RequestLine} {p : Nat} (h : Closed mem r p)
    (heq : t.target = r.target) (hend : t.requestEnd = r.requestEnd)
    (hstart : t.requestStart = r.requestStart) (hmethod : t.methodEnd = r.methodEnd)
    (huri : t.uriEnd = r.uriEnd) : Closed mem t p := by
  have hname : t.uriStart = r.uriStart := congrArg Prod.fst heq
  refine ⟨hend.trans h.requestEnd, ⟨?_, ?_⟩, ?_, ?_⟩
  · rw [hstart, hmethod]
    exact h.named.1
  · rw [hmethod, hname]
    exact h.named.2
  · rw [huri]
    exact h.target.of_eq heq
  · rw [huri]
    exact h.before

theorem Closed.succ {mem : Nat → UInt8} {r : RequestLine} {p : Nat} (h : Closed mem r p) :
    Closed mem r (p + 1) := ⟨h.requestEnd, h.named, h.target, Nat.lt_succ_of_lt h.before⟩

/-- A line feed behind a target. -/
theorem Closed.lineEnds {mem : Nat → UInt8} {r : RequestLine} {p : Nat} (h : Closed mem r (p + 1)) :
    LineEnds mem r p := by
  refine ⟨h.named, h.target, ?_, ?_⟩
  · rw [h.requestEnd]
    exact Nat.lt_succ_iff.mp h.before
  · rw [h.requestEnd]
    exact le_refl p

/-- The state that follows behind a target. -/
theorem Closed.to {mem : Nat → UInt8} {r : RequestLine} {p : Nat} (h : Closed mem r p)
    {state : LineState} (hstate : state.closed = true) : StepInv mem p (.next (r.to state)) :=
  (h.succ.of_eq (t := r.to state) rfl rfl rfl rfl rfl).lineInv hstate

/-- Another digit of the version. -/
theorem Closed.version {mem : Nat → UInt8} {r : RequestLine} {p : Nat} (h : Closed mem r p)
    (major minor : Nat) {state : LineState} (hstate : state.closed = true) :
    StepInv mem p (.next { r with httpMajor := major, httpMinor := minor, state := state }) :=
  (h.succ.of_eq (t := { r with httpMajor := major, httpMinor := minor, state := state }) rfl rfl rfl
    rfl rfl).lineInv hstate

theorem Closed.expect {mem : Nat → UInt8} {r : RequestLine} {p : Nat} (h : Closed mem r p)
    (ch expected : UInt8) {state : LineState} (hstate : state.closed = true) :
    StepInv mem p (expect r ch expected state) := by
  unfold Toxic.expect
  split
  · exact h.to hstate
  · trivial

theorem Closed.http09End {mem : Nat → UInt8} {r : RequestLine} {p : Nat} (h : Closed mem r (p + 1))
    {ch : UInt8} {other : LineStep} (hother : ch ≠ cr → ch ≠ lf → StepInv mem p other) :
    StepInv mem p (http09End r ch other) := by
  unfold Toxic.http09End
  split_ifs with hcr hlf
  · exact (h.of_eq (t := { r with httpMinor := 9, state := .almostDone }) rfl rfl rfl rfl rfl).lineInv
      rfl
  · exact (h.of_eq (t := { r with httpMinor := 9 }) rfl rfl rfl rfl rfl).lineEnds
  · exact hother hcr hlf

theorem Closed.spacesByte {mem : Nat → UInt8} {r : RequestLine} {p : Nat} (h : Closed mem r p)
    {ch : UInt8} {other : LineStep} (hspace : ch = space → LineInv mem r (p + 1))
    (hother : ch ≠ space → ch ≠ cr → ch ≠ lf → StepInv mem p other) :
    StepInv mem p (spacesByte r p ch other) := by
  unfold Toxic.spacesByte
  split_ifs with hs hH
  · exact hspace hs
  · exact (h.succ.of_eq (t := { r with httpProtocol := some p, state := .httpH }) rfl rfl rfl rfl
      rfl).lineInv rfl
  · exact h.succ.http09End (hother hs)

/-- What may follow the target that a character ends. -/
theorem uriEndByte_inv {mem : Nat → UInt8} {r : RequestLine} {p : Nat} {behind : LineState}
    {other : LineStep} (hend : r.requestEnd = none) (hnamed : Named r r.uriStart)
    (htarget : Target mem r p)
    (hspace : mem p = space → LineInv mem { r with uriEnd := p, state := behind } (p + 1))
    (hother : mem p ≠ space → mem p ≠ cr → mem p ≠ lf → StepInv mem p other) :
    StepInv mem p (uriEndByte r p (mem p) behind other) := by
  unfold uriEndByte
  split_ifs with hs
  · exact hspace hs
  · have hclosed : Closed mem { r with uriEnd := p } (p + 1) :=
      ⟨hend, hnamed, htarget.of_eq rfl, Nat.lt_succ_self p⟩
    exact hclosed.http09End (hother hs)

/-- A `usual` character is an ordinary one of a target. -/
theorem usual_ordinary {ch : UInt8} (h : usual ch = true) :
    Ordinary ch ∧ UriByte ch ∧ ch ≠ plus := by
  have hnot : ch ∉ ([0, 10, 13, 32, hash, percent, plus, dot, slash, question] : Bytes) := by
    intro hmem
    rw [(usual_eq_false_iff ch).mpr hmem] at h
    cases h
  simp only [List.mem_cons, List.not_mem_nil, or_false, not_or] at hnot
  obtain ⟨hnul, hlf, hcr, -, hhash, hpercent, hplus, hdot, hslash, hquestion⟩ := hnot
  exact ⟨⟨hslash, hdot, hpercent, hquestion, hhash⟩, ⟨hnul, hcr, hlf⟩, hplus⟩

/-- The path goes on in its segment. -/
theorem OpenPath.goesOn {mem : Nat → UInt8} {r t : RequestLine} {p : Nat} {P : UriState → Prop}
    (h : OpenPath mem r p P) (hP : ∀ state, P state → InSegment state)
    (hend : t.requestEnd = none) (hnamed : Named t t.uriStart) (hstate : t.state = .checkUri)
    (hch : Ordinary (mem p)) (hbyte : UriByte (mem p))
    (heq : t.target = { r with plusInUri := r.plusInUri || decide (mem p = plus) }.target) :
    LineInv mem t (p + 1) := by
  refine ⟨hend, ?_⟩
  rw [hstate]
  exact ⟨hnamed, h.ordinary hP hch hbyte heq⟩

/-- What `sw_after_slash_in_uri` and `sw_check_uri` have in common. -/
theorem uriByte_inv {mem : Nat → UInt8} {r : RequestLine} {p : Nat} {P : UriState → Prop}
    {other : LineStep} (hend : r.requestEnd = none) (hnamed : Named r r.uriStart)
    (h : OpenPath mem r p P) (hP : ∀ state, P state → InSegment state)
    (hplus : mem p = plus → LineInv mem { r with plusInUri := true } (p + 1))
    (hother : mem p ≠ plus → mem p ≠ percent → mem p ≠ question → mem p ≠ hash →
      UriByte (mem p) → StepInv mem p other) :
    StepInv mem p (uriByte r p (mem p) other) := by
  unfold uriByte
  refine uriEndByte_inv hend hnamed (h.target hP) (fun hspace => ?_) fun hspace hcr hlf => ?_
  · -- the space may end the target, or belong to it
    refine ⟨hend, hnamed, h.ordinary hP (by rw [hspace]; decide) (by rw [hspace]; decide) ?_,
      (h.mono hP).of_eq rfl, Nat.lt_succ_self p⟩
    simp [RequestLine.target, show mem p ≠ plus by rw [hspace]; decide]
  · split_ifs with hpercent hquestion hhash hpl hnul
    · exact ⟨hend, hnamed, h.marked (by rw [hpercent]; decide) rfl rfl (Or.inr rfl),
        Or.inr (Or.inl rfl)⟩
    · exact ⟨hend, hnamed, h.args hP hquestion rfl, Or.inr (Or.inr rfl)⟩
    · exact ⟨hend, hnamed, h.marked (by rw [hhash]; decide) rfl rfl (Or.inl rfl), Or.inl rfl⟩
    · exact hplus hpl
    · trivial
    · exact hother hpl hpercent hquestion hhash ⟨hnul, hcr, hlf⟩

/-- Between two segments. -/
theorem afterSlashByte_inv {mem : Nat → UInt8} {r : RequestLine} {p : Nat}
    (hstate : r.state = .afterSlashInUri) (hend : r.requestEnd = none)
    (hnamed : Named r r.uriStart) (hext : r.uriExt = none) (h : OpenPath mem r p InSegment) :
    StepInv mem p (afterSlashByte r p (mem p)) := by
  have hP : ∀ state, InSegment state → InSegment state := fun _ hs => hs
  unfold afterSlashByte
  split_ifs with husual hcomplex
  · obtain ⟨hch, hbyte, hplus⟩ := usual_ordinary husual
    exact h.goesOn hP hend hnamed rfl hch hbyte (by simp [RequestLine.target, RequestLine.to, hplus])
  · have hbyte : UriByte (mem p) := by rcases hcomplex with hc | hc <;> rw [hc] <;> decide
    exact ⟨hend, hnamed, h.marked hbyte rfl rfl (Or.inl rfl), Or.inl rfl⟩
  · obtain ⟨hdot, hslash⟩ := not_or.mp hcomplex
    refine uriByte_inv hend hnamed h hP (fun hplus => ?_) ?_
    · refine ⟨hend, ?_⟩
      simp only [hstate]
      refine ⟨hnamed, hext, (h.ordinary hP ?_ ?_ ?_).mono fun _ hs => Or.inr hs⟩
      · rw [hplus]
        decide
      · rw [hplus]
        decide
      · simp [RequestLine.target, hplus]
    · intro hplus hpercent hquestion hhash hbyte
      exact h.goesOn hP hend hnamed rfl ⟨hslash, hdot, hpercent, hquestion, hhash⟩ hbyte
        (by simp [RequestLine.target, RequestLine.to, hplus])

/-- In a segment. -/
theorem checkUriByte_inv {mem : Nat → UInt8} {r : RequestLine} {p : Nat}
    (hend : r.requestEnd = none) (hnamed : Named r r.uriStart)
    (h : OpenPath mem r p (· = .usual)) : StepInv mem p (checkUriByte r p (mem p)) := by
  have hP : ∀ state, state = .usual → InSegment state := fun _ hs => Or.inr hs
  unfold checkUriByte
  split_ifs with husual hslash hdot
  · obtain ⟨hch, hbyte, hplus⟩ := usual_ordinary husual
    exact h.goesOn hP hend hnamed rfl hch hbyte (by simp [RequestLine.target, RequestLine.to, hplus])
  · exact ⟨hend, hnamed, rfl, h.slash hslash rfl⟩
  · exact ⟨hend, hnamed, h.dot hdot rfl⟩
  · refine uriByte_inv hend hnamed (h.of_eq rfl) hP (fun hplus => ?_) ?_
    · exact h.goesOn hP hend hnamed rfl (by rw [hplus]; decide) (by rw [hplus]; decide)
        (by simp [RequestLine.target, RequestLine.to, hplus])
    · intro hplus hpercent hquestion hhash hbyte
      exact h.goesOn hP hend hnamed rfl ⟨hslash, hdot, hpercent, hquestion, hhash⟩ hbyte
        (by simp [RequestLine.target, RequestLine.to, hplus])

/-- Behind the path. -/
theorem targetByte_inv {mem : Nat → UInt8} {r : RequestLine} {p : Nat}
    (hend : r.requestEnd = none) (hnamed : Named r r.uriStart) (h : Target mem r p)
    (hmarked : Marked r) : StepInv mem p (targetByte r p (mem p)) := by
  unfold targetByte
  by_cases husual : usual (mem p) = true
  · obtain ⟨hch, hbyte, -⟩ := usual_ordinary husual
    rw [if_pos husual]
    exact ⟨hend, hnamed, h.more hmarked hbyte rfl fun hc => ⟨hc, hch.2.2.2.2⟩, hmarked⟩
  · rw [if_neg husual]
    refine uriEndByte_inv hend hnamed h (fun hspace => ?_) fun hspace hcr hlf => ?_
    · have hmore := h.more hmarked (by rw [hspace]; decide) rfl fun hc =>
        ⟨hc, by rw [hspace]; decide⟩
      exact ⟨hend, hnamed, hmore.of_eq rfl, h.of_eq rfl, Nat.lt_succ_self p, hmarked⟩
    · split_ifs with hhash hnul
      · exact ⟨hend, hnamed, h.more hmarked (by rw [hhash]; decide) rfl (fun hc => by cases hc),
          Or.inl rfl⟩
      · trivial
      · exact ⟨hend, hnamed, h.more hmarked ⟨hnul, hcr, hlf⟩ rfl fun hc => ⟨hc, hhash⟩, hmarked⟩

/-- The end of a host or a port begins a target. -/
theorem hostEndByte_inv {mem : Nat → UInt8} {r : RequestLine} {p : Nat} {other : LineStep}
    (hend : r.requestEnd = none) (hnone : NoTarget r) (hnamed : Named r r.schemaEnd)
    (hp : r.schemaEnd + 2 < p) (hslash : mem (r.schemaEnd + 1) = slash)
    (hother : StepInv mem p other) : StepInv mem p (hostEndByte r p (mem p) other) := by
  obtain ⟨hstart, hbefore⟩ := hnamed
  unfold hostEndByte
  split_ifs with hs hspace
  · exact ⟨hend, ⟨hstart, by simp only; omega⟩, hnone.2.2.2.1, hnone.openPath hs rfl⟩
  · have hopen := hnone.openPath hslash (t := { r with
      uriStart := r.schemaEnd + 1, uriEnd := r.schemaEnd + 2, state := .hostHttp09 }) rfl
    exact ⟨hend, ⟨hstart, by simp only; omega⟩, hopen.target fun _ hs => hs, by simp only; omega⟩
  · exact hother

/-- In a host, or behind it. -/
theorem hostByte_inv {mem : Nat → UInt8} {r : RequestLine} {p : Nat} (inHost : Bool)
    (hend : r.requestEnd = none) (hnone : NoTarget r) (hnamed : Named r r.schemaEnd)
    (hp : r.schemaEnd + 2 < p) (hslash : mem (r.schemaEnd + 1) = slash) :
    StepInv mem p (hostByte r p (mem p) inHost) := by
  unfold hostByte
  split
  · exact ⟨hend, hnone, hnamed, Nat.lt_succ_of_lt hp, hslash⟩
  · dsimp only
    split
    · exact ⟨hend, hnone, hnamed, Nat.lt_succ_of_lt hp, hslash⟩
    · exact hostEndByte_inv hend hnone hnamed hp hslash trivial

/-- **Step lemma.**  A byte keeps what the parser knows. -/
theorem lineByte_inv {mem : Nat → UInt8} {r : RequestLine} {p : Nat} (h : LineInv mem r p) :
    StepInv mem p (lineByte mem r p) := by
  obtain ⟨hend, h⟩ := h
  have hclosed : r.state.closed = true → Closed mem r p := by
    intro hstate
    cases hs : r.state <;> rw [hs] at hstate h <;> first
      | exact ⟨hend, h.1, h.2.1, h.2.2⟩
      | cases hstate
  cases hs : r.state <;> simp only [hs] at h hclosed <;> simp only [lineByte, hs]
  case start =>
    split_ifs
    · exact ⟨hend, h⟩
    · exact ⟨hend, h, Nat.lt_succ_self p⟩
    · trivial
  case method =>
    obtain ⟨hnone, hlt⟩ := h
    split_ifs
    · exact ⟨hend, hnone, by simp only; omega, by simp only; omega⟩
    · exact ⟨hend, by simp only [hs]; exact ⟨hnone, Nat.lt_succ_of_lt hlt⟩⟩
    · trivial
  case spacesBeforeUri =>
    obtain ⟨hnone, hnamed⟩ := h
    split_ifs with hslash
    · exact ⟨hend, hnamed, hnone.2.2.2.1, hnone.openPath hslash rfl⟩
    · exact ⟨hend, hnone, hnamed.1, Nat.lt_succ_of_lt hnamed.2⟩
    · exact ⟨hend, by simp only [hs]; exact ⟨hnone, hnamed.1, Nat.lt_succ_of_lt hnamed.2⟩⟩
    · trivial
  case schema =>
    obtain ⟨hnone, hnamed⟩ := h
    split_ifs
    · exact ⟨hend, by simp only [hs]; exact ⟨hnone, hnamed.1, Nat.lt_succ_of_lt hnamed.2⟩⟩
    · exact ⟨hend, hnone, hnamed, rfl⟩
    · trivial
  case schemaSlash =>
    obtain ⟨hnone, hnamed, rfl⟩ := h
    unfold expect
    split_ifs with hslash
    · exact ⟨hend, hnone, hnamed, rfl, hslash⟩
    · trivial
  case schemaSlashSlash =>
    obtain ⟨hnone, hnamed, rfl, hslash⟩ := h
    unfold expect
    split_ifs
    · exact ⟨hend, hnone, hnamed, Nat.lt_succ_self _, hslash⟩
    · trivial
  case hostStart =>
    obtain ⟨hnone, hnamed, hp, hslash⟩ := h
    split_ifs
    · exact ⟨hend, hnone, hnamed, Nat.lt_succ_of_lt hp, hslash⟩
    · exact hostByte_inv true hend hnone hnamed hp hslash
  case host => exact hostByte_inv true hend h.1 h.2.1 h.2.2.1 h.2.2.2
  case hostEnd => exact hostByte_inv false hend h.1 h.2.1 h.2.2.1 h.2.2.2
  case hostIpLiteral =>
    obtain ⟨hnone, hnamed, hp, hslash⟩ := h
    split_ifs
    · exact ⟨hend, by simp only [hs]; exact ⟨hnone, hnamed, Nat.lt_succ_of_lt hp, hslash⟩⟩
    · exact ⟨hend, hnone, hnamed, Nat.lt_succ_of_lt hp, hslash⟩
    · trivial
  case port =>
    obtain ⟨hnone, hnamed, hp, hslash⟩ := h
    split_ifs
    · exact ⟨hend, by simp only [hs]; exact ⟨hnone, hnamed, Nat.lt_succ_of_lt hp, hslash⟩⟩
    · exact hostEndByte_inv (r := { r with portEnd := p }) hend hnone hnamed hp hslash trivial
  case afterSlashInUri => exact afterSlashByte_inv hs hend h.1 h.2.1 h.2.2
  case checkUri => exact checkUriByte_inv hend h.1 h.2
  case checkUriHttp09 =>
    obtain ⟨hnamed, hopen, hended, hbefore⟩ := h
    have hclosed : Closed mem r p := ⟨hend, hnamed, hended.target fun _ hs => hs, hbefore⟩
    refine hclosed.spacesByte (fun hspace => ?_) fun _ _ _ => ?_
    · refine ⟨hend, ?_⟩
      rw [hs]
      refine ⟨hnamed, hopen.ordinary (fun _ hs => Or.inr hs) ?_ ?_ ?_, hended,
        Nat.lt_succ_of_lt hbefore⟩
      · rw [hspace]
        decide
      · rw [hspace]
        decide
      · simp [RequestLine.target, show mem p ≠ plus by rw [hspace]; decide]
    · exact checkUriByte_inv hend hnamed (hopen.of_eq rfl)
  case uri => exact targetByte_inv hend h.1 h.2.1 h.2.2
  case http09 =>
    obtain ⟨hnamed, htarget, hended, hbefore, hmarked⟩ := h
    have hclosed : Closed mem r p := ⟨hend, hnamed, hended, hbefore⟩
    refine hclosed.spacesByte (fun hspace => ?_) fun _ _ _ => ?_
    · refine ⟨hend, ?_⟩
      rw [hs]
      exact ⟨hnamed, htarget.more hmarked (by rw [hspace]; decide) rfl
        fun hc => ⟨hc, by rw [hspace]; decide⟩, hended, Nat.lt_succ_of_lt hbefore, hmarked⟩
    · exact targetByte_inv hend hnamed (htarget.of_eq rfl) hmarked
  case hostHttp09 =>
    have hc := hclosed rfl
    exact hc.spacesByte (fun _ => hc.succ.lineInv (by rw [hs]; rfl)) fun _ _ _ => trivial
  case httpH | httpHT | httpHTT | httpHTTP => exact (hclosed rfl).expect _ _ rfl
  case firstMajorDigit =>
    split_ifs
    · trivial
    · exact (hclosed rfl).version _ _ rfl
  case majorDigit =>
    split_ifs
    · exact (hclosed rfl).to rfl
    · exact (hclosed rfl).version _ _ rfl
    · trivial
  case firstMinorDigit =>
    split_ifs
    · exact (hclosed rfl).version _ _ rfl
    · trivial
  case minorDigit =>
    split_ifs
    · exact (hclosed rfl).to rfl
    · exact (hclosed rfl).succ.lineEnds
    · exact (hclosed rfl).to rfl
    · exact (hclosed rfl).version _ _ rfl
    · trivial
  case spacesAfterDigit =>
    split_ifs
    · exact (hclosed rfl).succ.lineInv (by rw [hs]; rfl)
    · exact (hclosed rfl).to rfl
    · exact (hclosed rfl).succ.lineEnds
    · trivial
  case almostDone =>
    split_ifs
    · have hc := hclosed rfl
      have hbefore := hc.before
      exact ⟨hc.named, hc.target.of_eq rfl, by simp only [Option.getD_some]; omega,
        by simp only [Option.getD_some]; omega⟩
    · trivial

end Toxic
