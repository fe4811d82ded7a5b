import ToxicNginx.RequestHeader

/-!
# A header that lies somewhere else

The two parsers keep pointers into the buffer they read, and the line in progress
may be moved to another buffer between two bytes.  Here a line that lies at `a` in
one memory is parsed beside the same line at `b` in another.

* `Moved`, `SameBytes` — a pointer into the line, and its bytes;
* `LineMoved`, `FieldMoved`, `HeadMoved` — the parsers are in the same state, and
  every pointer that they still need points to the same place of the line;
* `lineByte_moved`, `fieldByte_moved`, `headByte_moved` — the step lemmas;
* `headLoop_moved` — what a parser makes of a line depends on its bytes only, and on
  no byte outside of what has been read.
-/

namespace Toxic

/-! ## Pointers into a line -/

/-- A pointer into a line that lies at `a` and at `b`, as far as `p`. -/
def Moved (a b p x x' : Nat) : Prop := a ≤ x ∧ x ≤ p ∧ x + b = x' + a

/-- The same for a pointer that may be `NULL`. -/
def OptMoved (a b p : Nat) : Option Nat → Option Nat → Prop
  | none, none => True
  | some x, some x' => Moved a b p x x'
  | _, _ => False

/-- The bytes of the line in front of `p`. -/
def SameBytes (mem mem' : Nat → UInt8) (a b p : Nat) : Prop :=
  ∀ k, a + k < p → mem' (b + k) = mem (a + k)

theorem Moved.mono {a b p q x x' : Nat} (h : Moved a b p x x') (hpq : p ≤ q) :
    Moved a b q x x' := ⟨h.1, le_trans h.2.1 hpq, h.2.2⟩

theorem OptMoved.mono {a b p q : Nat} {x x' : Option Nat} (h : OptMoved a b p x x') (hpq : p ≤ q) :
    OptMoved a b q x x' := by
  cases x <;> cases x' <;> first
    | exact h
    | exact Moved.mono h hpq

theorem SameBytes.mono {mem mem' : Nat → UInt8} {a b p q : Nat} (h : SameBytes mem mem' a b q)
    (hpq : p ≤ q) : SameBytes mem mem' a b p := fun k hk => h k (lt_of_lt_of_le hk hpq)

/-- The byte at a pointer. -/
theorem SameBytes.byte {mem mem' : Nat → UInt8} {a b q p p' : Nat} (h : SameBytes mem mem' a b q)
    (hp : Moved a b q p p') (hlt : p < q) : mem' p' = mem p := by
  obtain ⟨hlow, -, heq⟩ := hp
  have hk := h (p - a) (by omega)
  rwa [show b + (p - a) = p' by omega, show a + (p - a) = p by omega] at hk

/-- The bytes between two pointers. -/
theorem SameBytes.slice {mem mem' : Nat → UInt8} {a b q x x' y y' : Nat}
    (h : SameBytes mem mem' a b q) (hx : Moved a b q x x') (hy : Moved a b q y y') :
    slice mem' x' y' = slice mem x y := by
  obtain ⟨hxlow, hxhigh, hxeq⟩ := hx
  obtain ⟨hylow, hyhigh, hyeq⟩ := hy
  unfold Toxic.slice
  rw [show y' - x' = y - x by omega]
  apply List.ext_getElem (by simp)
  intro k hk _
  simp only [List.length_map, List.length_range'] at hk
  simp only [List.getElem_map, List.getElem_range', Nat.one_mul]
  exact h.byte ⟨by omega, by omega, by omega⟩ (by omega)

/-! ## The request line -/

/-- The fields that are no pointers. -/
def RequestLine.words (r : RequestLine) :
    LineState × Method × Bool × Bool × Bool × Bool × Nat × Nat :=
  (r.state, r.method, r.complexUri, r.quotedUri, r.plusInUri, r.spaceInUri, r.httpMajor,
    r.httpMinor)

/-- The method has ended. -/
def LineState.named : LineState → Bool
  | .start | .method => false
  | _ => true

/-- The schema has ended, and the target has not begun. -/
def LineState.inHost : LineState → Bool
  | .schemaSlash | .schemaSlashSlash | .hostStart | .host | .hostEnd | .hostIpLiteral
  | .port => true
  | _ => false

/-- The schema has begun, and the target has not. -/
def LineState.inSchema : LineState → Bool
  | .schema => true
  | state => state.inHost

/-- A target has ended, and may go on. -/
def LineState.hasEnd : LineState → Bool
  | .checkUriHttp09 | .http09 => true
  | state => state.closed

/-- The target has begun. -/
def LineState.hasUri : LineState → Bool
  | .afterSlashInUri | .checkUri | .uri => true
  | state => state.hasEnd

/-- The method has begun. -/
def LineState.started : LineState → Bool
  | .start => false
  | _ => true

/-- A pointer that is not set in a state. -/
theorem unset {P : Prop} (h : false = true) : P := absurd h Bool.false_ne_true

/-- The parser is in the same state on a line that lies at `a` and at `b`.  Only
the pointers that have been set matter. -/
structure LineMoved (a b p : Nat) (r r' : RequestLine) : Prop where
  words : r'.words = r.words
  requestStart : r.state.started = true → Moved a b p r.requestStart r'.requestStart
  requestEnd : OptMoved a b p r.requestEnd r'.requestEnd
  methodEnd : r.state.named = true → Moved a b p r.methodEnd r'.methodEnd
  schemaStart : OptMoved a b p r.schemaStart r'.schemaStart
  schema : r.state.inSchema = true → r.schemaStart.isSome = true
  schemaEnd : r.state.inHost = true → Moved a b p r.schemaEnd r'.schemaEnd
  hostStart : OptMoved a b p r.hostStart r'.hostStart
  hostEnd : OptMoved a b p r.hostEnd r'.hostEnd
  uriStart : r.state.hasUri = true → Moved a b p r.uriStart r'.uriStart
  uriEnd : r.state.hasEnd = true → Moved a b p r.uriEnd r'.uriEnd
  uriExt : OptMoved a b p r.uriExt r'.uriExt
  argsStart : OptMoved a b p r.argsStart r'.argsStart
  httpProtocol : OptMoved a b p r.httpProtocol r'.httpProtocol

/-- A line that has ended on both sides: all of the pointers are set. -/
def LineSame (a b p : Nat) (r r' : RequestLine) : Prop :=
  r'.words = r.words ∧ LineMoved a b p (r.to .almostDone) (r'.to .almostDone)

/-- What a byte does on both sides. -/
def StepMoved (a b p : Nat) : LineStep → LineStep → Prop
  | .next r, .next r' => LineMoved a b p r r'
  | .done r, .done r' => LineSame a b p r r'
  | .error e, .error e' => e = e'
  | _, _ => False

theorem LineMoved.state {a b p : Nat} {r r' : RequestLine} (h : LineMoved a b p r r') :
    r'.state = r.state := congrArg Prod.fst h.words

theorem LineMoved.mono {a b p q : Nat} {r r' : RequestLine} (h : LineMoved a b p r r')
    (hpq : p ≤ q) :
    LineMoved a b q r r' where
  words := h.words
  requestStart hs := (h.requestStart hs).mono hpq
  requestEnd := h.requestEnd.mono hpq
  methodEnd hs := (h.methodEnd hs).mono hpq
  schemaStart := h.schemaStart.mono hpq
  schema := h.schema
  schemaEnd hs := (h.schemaEnd hs).mono hpq
  hostStart := h.hostStart.mono hpq
  hostEnd := h.hostEnd.mono hpq
  uriStart hs := (h.uriStart hs).mono hpq
  uriEnd hs := (h.uriEnd hs).mono hpq
  uriExt := h.uriExt.mono hpq
  argsStart := h.argsStart.mono hpq
  httpProtocol := h.httpProtocol.mono hpq

/-- The parser comes to a state in which no more is set than before. -/
def LineState.Keeps (state state' : LineState) : Prop :=
  (state'.started = true → state.started = true) ∧ (state'.named = true → state.named = true) ∧
    (state'.inSchema = true → state.inSchema = true) ∧
    (state'.inHost = true → state.inHost = true) ∧ (state'.hasUri = true → state.hasUri = true) ∧
    (state'.hasEnd = true → state.hasEnd = true)

instance (state state' : LineState) : Decidable (state.Keeps state') := by
  unfold LineState.Keeps
  infer_instance

/-- The pointers of a request line. -/
structure LinePointers where
  requestStart : Nat
  requestEnd : Option Nat
  methodEnd : Nat
  schemaStart : Option Nat
  schemaEnd : Nat
  hostStart : Option Nat
  hostEnd : Option Nat
  portEnd : Nat
  uriStart : Nat
  uriEnd : Nat
  uriExt : Option Nat
  argsStart : Option Nat
  httpProtocol : Option Nat

/-- The same state with other pointers. -/
def RequestLine.located (r : RequestLine) (x : LinePointers) : RequestLine :=
  { r with
    requestStart := x.requestStart
    requestEnd := x.requestEnd
    methodEnd := x.methodEnd
    schemaStart := x.schemaStart
    schemaEnd := x.schemaEnd
    hostStart := x.hostStart
    hostEnd := x.hostEnd
    portEnd := x.portEnd
    uriStart := x.uriStart
    uriEnd := x.uriEnd
    uriExt := x.uriExt
    argsStart := x.argsStart
    httpProtocol := x.httpProtocol }

theorem RequestLine.located_of_words {r r' : RequestLine} (h : r'.words = r.words) :
    ∃ x, r' = r.located x := by
  simp only [RequestLine.words, Prod.mk.injEq] at h
  obtain ⟨h1, h2, h3, h4, h5, h6, h7, h8⟩ := h
  refine ⟨⟨r'.requestStart, r'.requestEnd, r'.methodEnd, r'.schemaStart, r'.schemaEnd,
    r'.hostStart, r'.hostEnd, r'.portEnd, r'.uriStart, r'.uriEnd, r'.uriExt, r'.argsStart,
    r'.httpProtocol⟩, ?_⟩
  rw [RequestLine.located, ← h1, ← h2, ← h3, ← h4, ← h5, ← h6, ← h7, ← h8]

theorem LineMoved.located {a b p : Nat} {r r' : RequestLine} (h : LineMoved a b p r r') :
    ∃ x, r' = r.located x := RequestLine.located_of_words h.words

/-- A step that sets no pointer. -/
theorem LineMoved.keep {a b p : Nat} {r r' : RequestLine} (h : LineMoved a b p r r')
    {state : LineState} {method : Method} {complexUri quotedUri plusInUri spaceInUri : Bool}
    {httpMajor httpMinor portEnd portEnd' : Nat} (hkeeps : r.state.Keeps state) :
    LineMoved a b p
      { r with
        state := state, method := method, complexUri := complexUri, quotedUri := quotedUri
        plusInUri := plusInUri, spaceInUri := spaceInUri, httpMajor := httpMajor
        httpMinor := httpMinor, portEnd := portEnd }
      { r' with
        state := state, method := method, complexUri := complexUri, quotedUri := quotedUri
        plusInUri := plusInUri, spaceInUri := spaceInUri, httpMajor := httpMajor
        httpMinor := httpMinor, portEnd := portEnd' } :=
  have ⟨hstarted, hnamed, hschema, hhost, huri, hend⟩ := hkeeps
  { h with
    words := rfl
    requestStart := fun hs => h.requestStart (hstarted hs)
    methodEnd := fun hs => h.methodEnd (hnamed hs)
    schema := fun hs => h.schema (hschema hs)
    schemaEnd := fun hs => h.schemaEnd (hhost hs)
    uriStart := fun hs => h.uriStart (huri hs)
    uriEnd := fun hs => h.uriEnd (hend hs) }

theorem LineMoved.to {a b p : Nat} {r r' : RequestLine} (h : LineMoved a b p r r')
    {state : LineState} (hkeeps : r.state.Keeps state) :
    LineMoved a b p (r.to state) (r'.to state) := by
  obtain ⟨x, rfl⟩ := h.located
  exact LineMoved.keep h hkeeps

/-- A target has begun behind the method, and in front of it is nothing more. -/
theorem LineState.named_of_hasUri {state : LineState} (h : state.hasUri = true) :
    state.started = true ∧ state.named = true ∧ state.inSchema = false ∧ state.inHost = false := by
  cases state <;> revert h <;> decide

theorem LineState.hasUri_of_hasEnd {state : LineState} (h : state.hasEnd = true) :
    state.hasUri = true := by
  cases state <;> revert h <;> decide

/-- The end of a target. -/
theorem LineMoved.ends {a b p : Nat} {r r' : RequestLine} (h : LineMoved a b p r r')
    (huri : r.state.hasUri = true) {x x' : Nat} (hx : Moved a b p x x') {state : LineState}
    (hstate : state.hasEnd = true) :
    LineMoved a b p { r with uriEnd := x, state := state }
      { r' with uriEnd := x', state := state } := by
  obtain ⟨hstarted, hnamed, -⟩ := LineState.named_of_hasUri huri
  obtain ⟨-, -, hschema, hhost⟩ := LineState.named_of_hasUri (LineState.hasUri_of_hasEnd hstate)
  obtain ⟨y, rfl⟩ := h.located
  exact { h with
    words := rfl
    requestStart := fun _ => h.requestStart hstarted
    methodEnd := fun _ => h.methodEnd hnamed
    schema := fun hs => absurd (hschema.symm.trans hs) (by decide)
    schemaEnd := fun hs => absurd (hhost.symm.trans hs) (by decide)
    uriStart := fun _ => h.uriStart huri
    uriEnd := fun _ => hx }

theorem LineState.started_of_named {state : LineState} (h : state.named = true) :
    state.started = true := by
  cases state <;> revert h <;> decide

/-- The beginning of a target, behind the method or a host. -/
theorem LineMoved.begins {a b p : Nat} {r r' : RequestLine} (h : LineMoved a b p r r')
    (hnamed : r.state.named = true) {x x' : Nat} (hx : Moved a b p x x') :
    LineMoved a b p { r with uriStart := x, state := .afterSlashInUri }
      { r' with uriStart := x', state := .afterSlashInUri } := by
  obtain ⟨y, rfl⟩ := h.located
  exact { h with
    words := rfl
    requestStart := fun _ => h.requestStart (LineState.started_of_named hnamed)
    methodEnd := fun _ => h.methodEnd hnamed
    schema := unset
    schemaEnd := unset
    uriStart := fun _ => hx
    uriEnd := unset }

variable {mem mem' : Nat → UInt8} {a b p p' : Nat} {r r' : RequestLine}

/-- A pointer to the next byte. -/
theorem Moved.here (h : Moved a b p p p') : Moved a b (p + 1) p p' := h.mono (Nat.le_succ p)

theorem Moved.succ (h : Moved a b p p p') : Moved a b (p + 1) (p + 1) (p' + 1) := by
  obtain ⟨hlow, -, heq⟩ := h
  exact ⟨by omega, le_refl _, by omega⟩

/-- The end of a line without a version. -/
theorem http09End_moved (h : LineSame a b (p + 1) r r') (ch : UInt8) {other other' : LineStep}
    (hother : StepMoved a b (p + 1) other other') :
    StepMoved a b (p + 1) (http09End r ch other) (http09End r' ch other') := by
  obtain ⟨hwords, h⟩ := h
  obtain ⟨x, rfl⟩ := RequestLine.located_of_words hwords
  unfold http09End
  split_ifs
  · exact LineMoved.keep h (show LineState.Keeps .almostDone .almostDone by decide)
  · exact ⟨rfl, LineMoved.keep h (show LineState.Keeps .almostDone .almostDone by decide)⟩
  · exact hother

/-- In front of the version. -/
theorem spacesByte_moved (h : LineMoved a b p r r') (hp : Moved a b p p p')
    (hend : r.state.hasEnd = true) (ch : UInt8) {other other' : LineStep}
    (hother : StepMoved a b (p + 1) other other') :
    StepMoved a b (p + 1) (spacesByte r p ch other) (spacesByte r' p' ch other') := by
  have hh : r.state.Keeps .httpH ∧ r.state.Keeps .almostDone := by
    cases hs : r.state <;> rw [hs] at hend <;> revert hend <;> decide
  have hnext := h.mono (Nat.le_succ p)
  obtain ⟨x, rfl⟩ := h.located
  unfold spacesByte
  split_ifs
  · exact hnext
  · exact { hnext.to hh.1 with httpProtocol := hp.here }
  · exact http09End_moved ⟨by rfl, hnext.to hh.2⟩ ch hother

/-- The end of a target. -/
theorem uriEndByte_moved (h : LineMoved a b p r r') (hp : Moved a b p p p')
    (huri : r.state.hasUri = true) (ch : UInt8) {behind : LineState}
    (hbehind : behind.hasEnd = true)
    {other other' : LineStep} (hother : StepMoved a b (p + 1) other other') :
    StepMoved a b (p + 1) (uriEndByte r p ch behind other) (uriEndByte r' p' ch behind other') := by
  have hnext := h.mono (Nat.le_succ p)
  obtain ⟨x, rfl⟩ := h.located
  unfold uriEndByte
  split_ifs
  · exact hnext.ends huri hp.here hbehind
  · exact http09End_moved ⟨by rfl, hnext.ends huri hp.here rfl⟩ ch hother

/-- What ends a path, or is noted of it. -/
theorem uriByte_moved (h : LineMoved a b p r r') (hp : Moved a b p p p')
    (hstate : r.state = .afterSlashInUri ∨ r.state = .checkUri) (ch : UInt8)
    {other other' : LineStep} (hother : StepMoved a b (p + 1) other other') :
    StepMoved a b (p + 1) (uriByte r p ch other) (uriByte r' p' ch other') := by
  have hkeeps : r.state.hasUri = true ∧ r.state.Keeps .uri ∧ r.state.Keeps r.state := by
    rcases hstate with hs | hs <;> rw [hs] <;> decide
  obtain ⟨huri, hkeeps, hself⟩ := hkeeps
  have hnext := h.mono (Nat.le_succ p)
  obtain ⟨x, rfl⟩ := h.located
  unfold uriByte
  apply uriEndByte_moved h hp huri ch rfl
  split_ifs
  · exact LineMoved.keep hnext hkeeps
  · exact { hnext.to hkeeps with argsStart := hp.succ }
  · exact LineMoved.keep hnext hkeeps
  · exact LineMoved.keep hnext hself
  · rfl
  · exact hother

theorem afterSlashByte_moved (h : LineMoved a b p r r') (hp : Moved a b p p p')
    (hs : r.state = .afterSlashInUri) (ch : UInt8) :
    StepMoved a b (p + 1) (afterSlashByte r p ch) (afterSlashByte r' p' ch) := by
  have hkeeps : r.state.Keeps .checkUri ∧ r.state.Keeps .uri := by
    rw [hs]
    decide
  have hnext := h.mono (Nat.le_succ p)
  have hcheck := hnext.to hkeeps.1
  obtain ⟨x, rfl⟩ := h.located
  unfold afterSlashByte
  split_ifs
  · exact hcheck
  · exact LineMoved.keep hnext hkeeps.2
  · exact uriByte_moved h hp (Or.inl hs) ch hcheck

theorem checkUriByte_moved (h : LineMoved a b p r r') (hp : Moved a b p p p')
    (hkeeps : r.state.Keeps .checkUri) (ch : UInt8) :
    StepMoved a b (p + 1) (checkUriByte r p ch) (checkUriByte r' p' ch) := by
  have hcheck := h.to hkeeps
  have hnext := hcheck.mono (Nat.le_succ p)
  obtain ⟨x, rfl⟩ := h.located
  have hafter : LineState.Keeps .checkUri .afterSlashInUri := by decide
  unfold checkUriByte
  split_ifs
  · exact hnext
  · exact { hnext.to hafter with uriExt := trivial }
  · exact { hnext with uriExt := hp.succ }
  · exact uriByte_moved hcheck hp (Or.inr rfl) ch hnext

theorem targetByte_moved (h : LineMoved a b p r r') (hp : Moved a b p p p')
    (huri : r.state.hasUri = true) (ch : UInt8) :
    StepMoved a b (p + 1) (targetByte r p ch) (targetByte r' p' ch) := by
  have hkeeps : r.state.Keeps .uri := by
    cases hs : r.state <;> rw [hs] at huri <;> revert huri <;> decide
  have hnext := h.mono (Nat.le_succ p)
  have hgo := hnext.to hkeeps
  obtain ⟨x, rfl⟩ := h.located
  unfold targetByte
  split_ifs
  · exact hgo
  · exact uriEndByte_moved h hp huri ch rfl (LineMoved.keep hnext hkeeps)
  · exact uriEndByte_moved h hp huri ch rfl rfl
  · exact uriEndByte_moved h hp huri ch rfl hgo

theorem expect_moved (h : LineMoved a b p r r') (ch expected : UInt8) {state : LineState}
    (hkeeps : r.state.Keeps state) :
    StepMoved a b (p + 1) (expect r ch expected state) (expect r' ch expected state) := by
  unfold expect
  split_ifs
  · exact (h.mono (Nat.le_succ p)).to hkeeps
  · rfl

/-- The end of a host or a port. -/
theorem hostEndByte_moved (h : LineMoved a b p r r') (hp : Moved a b p p p')
    (hhost : r.state.inHost = true) (hschema : r.schemaEnd + 2 < p) (ch : UInt8)
    {other other' : LineStep} (hother : StepMoved a b (p + 1) other other') :
    StepMoved a b (p + 1) (hostEndByte r p ch other) (hostEndByte r' p' ch other') := by
  have hnamed : r.state.named = true := by
    cases hs : r.state <;> rw [hs] at hhost <;> revert hhost <;> decide
  have hnext := h.mono (Nat.le_succ p)
  have hbetween : ∀ k, k ≤ 2 → Moved a b (p + 1) (r.schemaEnd + k) (r'.schemaEnd + k) := by
    intro k hk
    obtain ⟨hlow, -, heq⟩ := h.schemaEnd hhost
    exact ⟨by omega, by omega, by omega⟩
  unfold hostEndByte
  split_ifs
  · exact hnext.begins hnamed hp.here
  · -- the slash between the schema and the host is the target
    have hbegins := hnext.begins hnamed (hbetween 1 (by decide))
    exact hbegins.ends rfl (hbetween 2 (by decide)) rfl
  · exact hother

/-- In a host, or behind it. -/
theorem hostByte_moved (h : LineMoved a b p r r') (hp : Moved a b p p p')
    (hhost : r.state.inHost = true) (hschema : r.schemaEnd + 2 < p) (ch : UInt8) (inHost : Bool) :
    StepMoved a b (p + 1) (hostByte r p ch inHost) (hostByte r' p' ch inHost) := by
  have hkeeps : r.state.Keeps .host ∧ r.state.Keeps .port := by
    cases hs : r.state <;> rw [hs] at hhost <;> revert hhost <;> decide
  have hnext := h.mono (Nat.le_succ p)
  obtain ⟨x, rfl⟩ := h.located
  unfold hostByte
  split
  · exact hnext.to hkeeps.1
  · dsimp only
    split
    · exact { hnext.to hkeeps.2 with hostEnd := hp.here }
    · have hended : LineMoved a b p { r with hostEnd := some p }
          { r.located x with hostEnd := some p' } := { h with hostEnd := hp }
      exact hostEndByte_moved hended hp hhost hschema ch rfl

/-- **Step lemma.**  A byte does the same on both sides. -/
theorem lineByte_moved (h : LineMoved a b p r r') (hinv : LineInv mem r p)
    (hbytes : SameBytes mem mem' a b (p + 1)) (hp : Moved a b p p p') :
    StepMoved a b (p + 1) (lineByte mem r p) (lineByte mem' r' p') := by
  have hch : mem' p' = mem p := hbytes.byte hp.here (Nat.lt_succ_self p)
  have hnext := h.mono (Nat.le_succ p)
  obtain ⟨hrequestEnd, hinv⟩ := hinv
  obtain ⟨x, rfl⟩ := h.located
  have hkeep : ∀ state, r.state.Keeps state →
      LineMoved a b (p + 1) (r.to state) ((r.located x).to state) := fun state hk => hnext.to hk
  cases hs : r.state
  all_goals
    rw [hs] at hinv hkeep
    have hs' : (r.located x).state = r.state := rfl
    rw [hs] at hs'
    simp only [lineByte, hs, hs', hch]
  case start =>
    split_ifs
    · exact { hnext with
        words := rfl
        requestStart := unset
        methodEnd := unset
        schema := unset
        schemaEnd := unset
        uriStart := unset
        uriEnd := unset }
    · exact { hnext with
        words := rfl
        requestStart := fun _ => hp.here
        methodEnd := unset
        schema := unset
        schemaEnd := unset
        uriStart := unset
        uriEnd := unset }
    · rfl
  case method =>
    obtain ⟨-, hlt⟩ := hinv
    have hstart := hnext.requestStart (by rw [hs]; rfl)
    have htoken : slice mem' (r.located x).requestStart p' = slice mem r.requestStart p :=
      hbytes.slice hstart hp.here
    rw [htoken]
    split_ifs
    · obtain ⟨hlow, -, -⟩ := hstart
      obtain ⟨-, -, heq⟩ := hp
      exact { hnext with
        words := rfl
        requestStart := fun _ => hnext.requestStart (by rw [hs]; rfl)
        methodEnd := fun _ => ⟨by simp only; omega, by simp only; omega, by simp only; omega⟩
        schema := unset
        schemaEnd := unset
        uriStart := unset
        uriEnd := unset }
    · exact hnext
    · rfl
  case spacesBeforeUri =>
    split_ifs
    · exact hnext.begins (by rw [hs]; rfl) hp.here
    · exact { hnext with
        words := rfl
        requestStart := fun _ => hnext.requestStart (by rw [hs]; rfl)
        methodEnd := fun _ => hnext.methodEnd (by rw [hs]; rfl)
        schemaStart := hp.here
        schema := fun _ => rfl
        schemaEnd := unset
        uriStart := unset
        uriEnd := unset }
    · exact hnext
    · rfl
  case schema =>
    split_ifs
    · exact hnext
    · exact { hnext with
        words := rfl
        requestStart := fun _ => hnext.requestStart (by rw [hs]; rfl)
        methodEnd := fun _ => hnext.methodEnd (by rw [hs]; rfl)
        schema := fun _ => hnext.schema (by rw [hs]; rfl)
        schemaEnd := fun _ => hp.here
        uriStart := unset
        uriEnd := unset }
    · rfl
  case schemaSlash => exact expect_moved h _ _ (by rw [hs]; decide)
  case schemaSlashSlash => exact expect_moved h _ _ (by rw [hs]; decide)
  case hostStart =>
    obtain ⟨-, -, hlt, -⟩ := hinv
    have hstarted : LineMoved a b p { r with hostStart := some p }
        { r.located x with hostStart := some p' } := { h with hostStart := hp }
    have hhost : r.state.inHost = true := by rw [hs]; rfl
    split_ifs
    · have hkeeps : ({ r with hostStart := some p } : RequestLine).state.Keeps .hostIpLiteral := by
        simp only [hs]
        decide
      exact (hstarted.mono (Nat.le_succ p)).to hkeeps
    · exact hostByte_moved hstarted hp hhost hlt _ true
  case host =>
    obtain ⟨-, -, hlt, -⟩ := hinv
    exact hostByte_moved h hp (by rw [hs]; rfl) hlt _ true
  case hostEnd =>
    obtain ⟨-, -, hlt, -⟩ := hinv
    exact hostByte_moved h hp (by rw [hs]; rfl) hlt _ false
  case hostIpLiteral =>
    split_ifs
    · exact hnext
    · exact hkeep _ (by decide)
    · rfl
  case port =>
    obtain ⟨-, -, hlt, -⟩ := hinv
    have hended : LineMoved a b p { r with portEnd := p } { r.located x with portEnd := p' } :=
      { h with words := rfl }
    have hhost : r.state.inHost = true := by rw [hs]; rfl
    have hother : StepMoved a b (p + 1) (hostEndByte { r with portEnd := p } p (mem p)
        (.error .invalidRequest)) (hostEndByte { r.located x with portEnd := p' } p' (mem p)
        (.error .invalidRequest)) := hostEndByte_moved hended hp hhost hlt _ rfl
    rw [hs] at hother
    split_ifs
    · exact hnext
    · exact hother
  case hostHttp09 => exact spacesByte_moved h hp (by rw [hs]; rfl) _ rfl
  case afterSlashInUri => exact afterSlashByte_moved h hp hs _
  case checkUri => exact checkUriByte_moved h hp (by rw [hs]; decide) _
  case checkUriHttp09 =>
    have hspace : LineMoved a b p { r with spaceInUri := true }
        { r.located x with spaceInUri := true } := { h with words := rfl }
    have hother := checkUriByte_moved hspace hp (by simp only [hs]; decide) (mem p)
    simp only [hs] at hother
    exact spacesByte_moved h hp (by rw [hs]; rfl) _ hother
  case uri => exact targetByte_moved h hp (by rw [hs]; rfl) _
  case http09 =>
    have hspace : LineMoved a b p { r with spaceInUri := true }
        { r.located x with spaceInUri := true } := { h with words := rfl }
    have hother := targetByte_moved hspace hp (by simp only [hs]; rfl) (mem p)
    rw [← hs]
    exact spacesByte_moved h hp (by rw [hs]; rfl) _ hother
  case httpH => exact expect_moved h _ _ (by rw [hs]; decide)
  case httpHT => exact expect_moved h _ _ (by rw [hs]; decide)
  case httpHTT => exact expect_moved h _ _ (by rw [hs]; decide)
  case httpHTTP => exact expect_moved h _ _ (by rw [hs]; decide)
  all_goals
    have hminor : ∀ major minor state, r.state.Keeps state → LineMoved a b (p + 1)
        { r with httpMajor := major, httpMinor := minor, state := state }
        { r.located x with httpMajor := major, httpMinor := minor, state := state } :=
      fun _ _ _ hk => LineMoved.keep hnext hk
    rw [hs] at hminor
  case firstMajorDigit =>
    split_ifs
    · rfl
    · exact hminor _ _ _ (by decide)
  case majorDigit =>
    split_ifs
    · exact hkeep _ (by decide)
    · exact hminor _ _ _ (by decide)
    · rfl
  case firstMinorDigit =>
    split_ifs
    · exact hminor _ _ _ (by decide)
    · rfl
  case minorDigit =>
    split_ifs
    · exact hkeep _ (by decide)
    · exact ⟨rfl, hkeep _ (by decide)⟩
    · exact hkeep _ (by decide)
    · exact hminor _ _ _ (by decide)
    · rfl
  case spacesAfterDigit =>
    split_ifs
    · exact hnext
    · exact hkeep _ (by decide)
    · exact ⟨rfl, hkeep _ (by decide)⟩
    · rfl
  case almostDone =>
    obtain ⟨-, -, hlt⟩ := hinv
    obtain ⟨hlow, -, -⟩ := h.uriEnd (by rw [hs]; rfl)
    obtain ⟨-, -, heq⟩ := hp
    split_ifs
    · exact ⟨rfl, { hkeep .almostDone (by decide) with
        words := rfl
        requestEnd := ⟨by omega, by omega, by omega⟩ }⟩
    · rfl

/-- The end of the line at `p`. -/
def ParseMoved (a b p p' : Nat) : LineParse → LineParse → Prop
  | .ok t q, .ok t' q' => q = p + 1 ∧ q' = p' + 1 ∧ LineSame a b (p + 1) t t'
  | .error e, .error e' => e = e'
  | _, _ => False

theorem lineDone_moved (h : LineSame a b (p + 1) r r') (hp : Moved a b p p p') :
    ParseMoved a b p p' (lineDone r p) (lineDone r' p') := by
  obtain ⟨hwords, h⟩ := h
  obtain ⟨x, rfl⟩ := RequestLine.located_of_words hwords
  have hend : OptMoved a b (p + 1) (some (r.requestEnd.getD p)) (some (x.requestEnd.getD p')) := by
    have hold : OptMoved a b (p + 1) r.requestEnd x.requestEnd := h.requestEnd
    cases hr : r.requestEnd <;> cases hx : x.requestEnd <;> rw [hr, hx] at hold
    · exact hp.here
    · exact hold.elim
    · exact hold.elim
    · exact hold
  by_cases hversion : r.httpVersion = 9 ∧ r.method ≠ .get
  · have hdone : lineDone r p = .error .invalid09Method := if_pos hversion
    have hdone' : lineDone (r.located x) p' = .error .invalid09Method := if_pos hversion
    rw [hdone, hdone']
    rfl
  · have hdone : lineDone r p
        = .ok { r with requestEnd := some (r.requestEnd.getD p), state := .start } (p + 1) :=
      if_neg hversion
    have hdone' : lineDone (r.located x) p'
        = .ok { r.located x with requestEnd := some (x.requestEnd.getD p'), state := .start }
          (p' + 1) := if_neg hversion
    rw [hdone, hdone']
    exact ⟨rfl, rfl, rfl, { h with words := rfl, requestEnd := hend }⟩

/-- What is made of the target. -/
theorem processRequestUri_moved {q : Nat} (h : LineSame a b q r r')
    (haccepted : LineAccepted mem r q) (hbytes : SameBytes mem mem' a b q) (mergeSlashes : Bool) :
    processRequestUri mem' mergeSlashes r' = processRequestUri mem mergeSlashes r := by
  obtain ⟨hwords, h⟩ := h
  obtain ⟨x, rfl⟩ := RequestLine.located_of_words hwords
  have hstart : Moved a b q r.uriStart (r.located x).uriStart := h.uriStart rfl
  have hend : Moved a b q r.uriEnd (r.located x).uriEnd := h.uriEnd rfl
  have hargs : OptMoved a b q r.argsStart (r.located x).argsStart := h.argsStart
  have hext : OptMoved a b q r.uriExt (r.located x).uriExt := h.uriExt
  have hpath : Moved a b q r.pathEnd (r.located x).pathEnd := by
    unfold RequestLine.pathEnd
    cases hr : r.argsStart <;> cases hx : (r.located x).argsStart <;> rw [hr, hx] at hargs
    · exact hend
    · exact hargs.elim
    · exact hargs.elim
    · obtain ⟨hlow, -, -, -⟩ := haccepted.target.args _ hr
      obtain ⟨hstartLow, -, -⟩ := hstart
      obtain ⟨-, hargsHigh, heq⟩ := hargs
      exact ⟨by simp only [Option.elim_some]; omega, by simp only [Option.elim_some]; omega,
        by simp only [Option.elim_some]; omega⟩
  have hopt : ∀ {y y' : Option Nat} {z z' : Nat}, OptMoved a b q y y' → Moved a b q z z' →
      y'.elim [] (slice mem' · z') = y.elim [] (slice mem · z) := by
    intro y y' z z' hy hz
    cases y <;> cases y' <;> first
      | exact hy.elim
      | rfl
      | exact hbytes.slice hy hz
  simp only [processRequestUri, hbytes.slice hstart hend, hbytes.slice hstart hpath,
    hopt hext hpath, hopt hargs hend]
  rfl

/-- What is made of the host of a request line. -/
theorem lineHost_moved {q : Nat} (h : LineSame a b q r r') (hbytes : SameBytes mem mem' a b q) :
    lineHost mem' r' = lineHost mem r := by
  have hstart : OptMoved a b q r.hostStart r'.hostStart := h.2.hostStart
  have hend : OptMoved a b q r.hostEnd r'.hostEnd := h.2.hostEnd
  unfold lineHost
  cases hr : r.hostStart <;> cases hx : r'.hostStart <;> rw [hr, hx] at hstart <;>
    cases hs : r.hostEnd <;> cases hy : r'.hostEnd <;> rw [hs, hy] at hend <;> first
    | exact hstart.elim
    | exact hend.elim
    | rfl
    | exact congrArg validateHost (hbytes.slice hstart hend)

/-! ## The fields -/

/-- A line has begun. -/
def FieldState.started : FieldState → Bool
  | .start => false
  | _ => true

/-- The name has ended. -/
def FieldState.hasName : FieldState → Bool
  | .spaceBeforeValue | .value | .spaceAfterValue | .almostDone => true
  | _ => false

/-- The value has begun. -/
def FieldState.hasValue : FieldState → Bool
  | .value | .spaceAfterValue | .almostDone => true
  | _ => false

/-- The value has ended, and may go on. -/
def FieldState.hasEnd : FieldState → Bool
  | .spaceAfterValue | .almostDone => true
  | _ => false

/-- The parser of a field is in the same state on both sides. -/
structure FieldMoved (a b p : Nat) (f f' : FieldLine) : Prop where
  state : f'.state = f.state
  invalid : f'.invalid = f.invalid
  nameStart : f.state.started = true → Moved a b p f.nameStart f'.nameStart
  nameEnd : f.state.hasName = true → Moved a b p f.nameEnd f'.nameEnd
  valueStart : f.state.hasValue = true → Moved a b p f.valueStart f'.valueStart
  valueEnd : f.state.hasEnd = true → Moved a b p f.valueEnd f'.valueEnd

theorem FieldMoved.mono {a b p q : Nat} {f f' : FieldLine} (h : FieldMoved a b p f f')
    (hpq : p ≤ q) : FieldMoved a b q f f' where
  state := h.state
  invalid := h.invalid
  nameStart hs := (h.nameStart hs).mono hpq
  nameEnd hs := (h.nameEnd hs).mono hpq
  valueStart hs := (h.valueStart hs).mono hpq
  valueEnd hs := (h.valueEnd hs).mono hpq

/-- A field that has ended on both sides: all of the pointers are set. -/
def FieldSame (a b p : Nat) (f f' : FieldLine) : Prop :=
  f'.state = f.state ∧ FieldMoved a b p (f.to .almostDone) (f'.to .almostDone)

/-- What a byte does on both sides. -/
def FieldStepMoved (a b p : Nat) : FieldStep → FieldStep → Prop
  | .next f, .next f' => FieldMoved a b p f f'
  | .done f, .done f' => FieldSame a b p f f'
  | .headerDone, .headerDone => True
  | .error, .error => True
  | _, _ => False

variable {f f' : FieldLine}

/-- **Step lemma.**  A byte of a field does the same on both sides. -/
theorem fieldByte_moved (h : FieldMoved a b p f f') (hp : Moved a b p p p') (underscores : Bool)
    (ch : UInt8) :
    FieldStepMoved a b (p + 1) (fieldByte underscores f p ch) (fieldByte underscores f' p' ch) := by
  have hnext := h.mono (Nat.le_succ p)
  obtain ⟨state', nameStart', nameEnd', valueStart', valueEnd', invalid'⟩ := f'
  obtain ⟨state, nameStart, nameEnd, valueStart, valueEnd, invalid⟩ := f
  obtain rfl : state' = state := h.state
  obtain rfl : invalid' = invalid := h.invalid
  cases state' <;> simp only [fieldByte, nameByte, lineEndByte, FieldLine.to] <;> split_ifs
  all_goals first
    | trivial
    | refine ⟨rfl, rfl, ?_, ?_, ?_, ?_⟩
    | refine ⟨rfl, rfl, rfl, ?_, ?_, ?_, ?_⟩
  -- a pointer is this place, or as before, or is not set
  all_goals first
    | exact fun _ => hp.here
    | exact fun _ => hnext.nameStart rfl
    | exact fun _ => hnext.nameEnd rfl
    | exact fun _ => hnext.valueStart rfl
    | exact fun _ => hnext.valueEnd rfl
    | exact unset

/-- Nothing of a field has been read. -/
theorem FieldMoved.start (a b p : Nat) {f f' : FieldLine} (hs : f.state = .start)
    (hs' : f'.state = .start) (hinvalid : f'.invalid = f.invalid) : FieldMoved a b p f f' where
  state := hs'.trans hs.symm
  invalid := hinvalid
  nameStart h := by rw [hs] at h; cases h
  nameEnd h := by rw [hs] at h; cases h
  valueStart h := by rw [hs] at h; cases h
  valueEnd h := by rw [hs] at h; cases h

/-! ## The header -/

/-- A line that lies at `first` and at `first'`, as far as `last` on the first
side. -/
structure LineWindow where
  first : Nat
  first' : Nat
  last : Nat

/-- The parsing is in the same state on both sides.  The request line, when it has
been read, lies in the window `w`, and the line in progress at `a` and `b`. -/
def HeadMoved (w : LineWindow) (a b p : Nat) : HeadState → HeadState → Prop
  | .line r, .line r' => LineMoved a b p r r'
  | .fields r uri f h, .fields r' uri' f' h' =>
      LineSame w.first w.first' w.last r r' ∧ uri' = uri ∧ FieldMoved a b p f f' ∧ h' = h
  | _, _ => False

/-- The same header, for a request line in the window `w`. -/
structure HeaderSame (w : LineWindow) (h h' : ParsedHeader) : Prop where
  line : LineSame w.first w.first' w.last h.line h'.line
  uri : h'.uri = h.uri
  headersIn : h'.headersIn = h.headersIn
  contentLengthN : h'.contentLengthN = h.contentLengthN
  chunked : h'.chunked = h.chunked

/-- What a byte does on both sides. -/
def HeadStepMoved (w : LineWindow) (a b p : Nat) : HeadStep → HeadStep → Prop
  | .next s, .next s' => HeadMoved w a b p s s'
  | .done h, .done h' => HeaderSame w h h'
  | .refused status, .refused status' => status = status'
  | _, _ => False

/-- The window of the request line behind a byte. -/
def HeadState.window (s : HeadState) (w line : LineWindow) : LineWindow :=
  match s with
  | .line _ => line
  | .fields _ _ _ _ => w

/-- What the parsing knows in front of `p`. -/
def HeadInv (mem : Nat → UInt8) (p : Nat) : HeadState → Prop
  | .line r => LineInv mem r p
  | .fields _ _ _ _ => True

variable {conf : HeaderConf} {base base' : Nat}

/-- Behind a request line. -/
theorem requestLineEnd_moved {q q' : Nat} (h : LineSame a b q r r')
    (haccepted : LineAccepted mem r q) (hbytes : SameBytes mem mem' a b q)
    (w : LineWindow) (hw : w = ⟨a, b, q⟩) (c d p : Nat) :
    HeadStepMoved w c d p (requestLineEnd conf mem base r q)
      (requestLineEnd conf mem' base' r' q') := by
  subst hw
  have huri := processRequestUri_moved h haccepted hbytes conf.mergeSlashes
  have hhost := lineHost_moved h hbytes
  have hversion : r'.httpVersion = r.httpVersion := by
    obtain ⟨x, rfl⟩ := RequestLine.located_of_words h.1
    rfl
  unfold requestLineEnd
  rw [huri, hhost, hversion]
  cases processRequestUri mem conf.mergeSlashes r <;> cases lineHost mem r <;> simp only
  case some.some uri server =>
    by_cases hold : r.httpVersion < 1000
    · rw [if_pos hold, if_pos hold]
      exact ⟨h, rfl, rfl, rfl, rfl⟩
    · rw [if_neg hold, if_neg hold]
      exact ⟨h, rfl, FieldMoved.start _ _ _ rfl rfl rfl, rfl⟩
  all_goals rfl

/-- Behind a field. -/
theorem fieldLineEnd_moved {q : Nat} {w : LineWindow} {uri : RequestUri} {h : HeadersIn}
    (hline : LineSame w.first w.first' w.last r r') (hf : FieldSame a b q f f')
    (hbytes : SameBytes mem mem' a b q) (c d p : Nat) :
    HeadStepMoved w c d p (fieldLineEnd conf mem r uri f h)
      (fieldLineEnd conf mem' r' uri f' h) := by
  obtain ⟨hstate, hf⟩ := hf
  have hinvalid : f'.invalid = f.invalid := hf.invalid
  have hname : slice mem' f'.nameStart f'.nameEnd = slice mem f.nameStart f.nameEnd :=
    hbytes.slice (hf.nameStart rfl) (hf.nameEnd rfl)
  have hvalue : slice mem' f'.valueStart f'.valueEnd = slice mem f.valueStart f.valueEnd :=
    hbytes.slice (hf.valueStart rfl) (hf.valueEnd rfl)
  have hfresh : FieldMoved c d p (f.to .start) (f'.to .start) := .start _ _ _ rfl rfl hinvalid
  unfold fieldLineEnd
  rw [hinvalid, hname, hvalue]
  split_ifs
  · exact ⟨hline, rfl, hfresh, rfl⟩
  · cases processField h (slice mem f.nameStart f.nameEnd, slice mem f.valueStart f.valueEnd) with
    | none => rfl
    | some h' => exact ⟨hline, rfl, hfresh, rfl⟩

/-- **Step lemma.**  A byte of a header does the same on both sides. -/
theorem headByte_moved {w : LineWindow} {s s' : HeadState} (h : HeadMoved w a b p s s')
    (hinv : HeadInv mem p s) (hbytes : SameBytes mem mem' a b (p + 1)) (hp : Moved a b p p p') :
    HeadStepMoved (s.window w ⟨a, b, p + 1⟩) a b (p + 1) (headByte conf mem base s p)
      (headByte conf mem' base' s' p') := by
  have hch : mem' p' = mem p := hbytes.byte hp.here (Nat.lt_succ_self p)
  cases s with
  | line r =>
      cases s' with
      | fields => exact h.elim
      | line r' =>
          have hstep := lineByte_moved h hinv hbytes hp
          have hknown := lineLoop_inv hinv 1
          rw [lineLoop] at hknown
          simp only [headByte]
          cases hbyte : lineByte mem r p <;> cases hbyte' : lineByte mem' r' p' <;>
            rw [hbyte, hbyte'] at hstep <;> rw [hbyte] at hknown
          case next.next => exact hstep
          case error.error => rfl
          case done.done t t' =>
            have hdone := lineDone_moved hstep hp
            simp only at hknown ⊢
            cases hend : lineDone t p <;> cases hend' : lineDone t' p' <;>
              rw [hend, hend'] at hdone <;> rw [hend] at hknown
            case ok.ok u q u' q' =>
              obtain ⟨rfl, rfl, hsame⟩ := hdone
              exact requestLineEnd_moved hsame hknown.1 hbytes _ rfl _ _ _
            case error.error => rfl
            all_goals exact hdone.elim
          all_goals exact hstep.elim
  | fields r uri f hs =>
      cases s' with
      | line => exact h.elim
      | fields r' uri' f' hs' =>
          obtain ⟨hline, rfl, hf, rfl⟩ := h
          have hstep := fieldByte_moved hf hp conf.underscores (mem p)
          simp only [headByte, hch]
          cases hbyte : fieldByte conf.underscores f p (mem p) <;>
            cases hbyte' : fieldByte conf.underscores f' p' (mem p) <;>
            rw [hbyte, hbyte'] at hstep
          case next.next => exact ⟨hline, rfl, hstep, rfl⟩
          case done.done => exact fieldLineEnd_moved hline hstep hbytes _ _ _
          case headerDone.headerDone =>
            have hend : processRequestHeader r' hs' = processRequestHeader r hs' := by
              obtain ⟨x, rfl⟩ := RequestLine.located_of_words hline.1
              rfl
            simp only [hend]
            cases processRequestHeader r hs' with
            | ok n chunked => exact ⟨hline, rfl, rfl, rfl, rfl⟩
            | refused status => rfl
          case error.error => rfl
          all_goals exact hstep.elim

/-- What the parsing knows stays known. -/
theorem headByte_inv {s t : HeadState} (hinv : HeadInv mem p s)
    (hstep : headByte conf mem base s p = .next t) : HeadInv mem (p + 1) t := by
  cases s with
  | line r =>
      have hknown := lineByte_inv hinv
      simp only [headByte] at hstep
      cases hbyte : lineByte mem r p with
      | next r' =>
          rw [hbyte] at hstep hknown
          obtain rfl := HeadStep.next.inj hstep
          exact hknown
      | done r' =>
          rw [hbyte] at hstep
          simp only [requestLineEnd] at hstep
          split at hstep
          · split at hstep
            · split_ifs at hstep
              obtain rfl := HeadStep.next.inj hstep
              trivial
            · cases hstep
          · cases hstep
      | error e =>
          rw [hbyte] at hstep
          cases hstep
  | fields r uri f h =>
      simp only [headByte, fieldLineEnd] at hstep
      split at hstep
      · obtain rfl := HeadStep.next.inj hstep
        trivial
      · split at hstep
        · obtain rfl := HeadStep.next.inj hstep
          trivial
        · split at hstep
          · cases hstep
          · obtain rfl := HeadStep.next.inj hstep
            trivial
      · split at hstep <;> cases hstep
      · cases hstep

/-- The header ends behind the byte that completes it. -/
theorem headByte_length {s : HeadState} {h : ParsedHeader}
    (hstep : headByte conf mem base s p = .done h) : h.length = p + 1 - base := by
  cases s with
  | line r =>
      simp only [headByte] at hstep
      cases hbyte : lineByte mem r p with
      | next r' =>
          rw [hbyte] at hstep
          cases hstep
      | done r' =>
          rw [hbyte] at hstep
          simp only [lineDone] at hstep
          split at hstep
          case h_1 hdone =>
            split at hdone
            · cases hdone
            · obtain ⟨-, rfl⟩ := LineParse.ok.inj hdone
              simp only [requestLineEnd] at hstep
              split at hstep
              · split_ifs at hstep
                obtain rfl := HeadStep.done.inj hstep
                rfl
              · cases hstep
          case h_2 => cases hstep
      | error e =>
          rw [hbyte] at hstep
          cases hstep
  | fields r uri f hs =>
      simp only [headByte, fieldLineEnd] at hstep
      split at hstep
      · cases hstep
      · split at hstep
        · cases hstep
        · split at hstep <;> cases hstep
      · split at hstep
        · obtain rfl := HeadStep.done.inj hstep
          rfl
        · cases hstep
      · cases hstep

/-- What has been read comes to the same on both sides. -/
def HeadResultMoved (a b p p' base base' n : Nat) : HeadResult → HeadResult → Prop
  | .again t q, .again t' q' => q = p + n ∧ q' = p' + n ∧ ∃ w, HeadMoved w a b (p + n) t t'
  | .done h, .done h' => (∃ w, HeaderSame w h h') ∧
      ∃ k, k < n ∧ h.length = p + k + 1 - base ∧ h'.length = p' + k + 1 - base'
  | .refused status, .refused status' => status = status'
  | _, _ => False

/-- **Run lemma.**  The parsing of a line reads nothing in front of the line and
nothing behind the bytes that it is given. -/
theorem headLoop_moved {w : LineWindow} {s s' : HeadState} (h : HeadMoved w a b p s s')
    (hinv : HeadInv mem p s) {n : Nat} (hbytes : SameBytes mem mem' a b (p + n))
    (hp : Moved a b p p p') :
    HeadResultMoved a b p p' base base' n (headLoop conf mem base s p n)
      (headLoop conf mem' base' s' p' n) := by
  induction n generalizing w s s' p p' with
  | zero => exact ⟨rfl, rfl, w, h⟩
  | succ n ih =>
      have hstep : HeadStepMoved _ a b (p + 1) (headByte conf mem base s p)
          (headByte conf mem' base' s' p') := headByte_moved h hinv (hbytes.mono (by omega)) hp
      rw [headLoop, headLoop]
      cases hbyte : headByte conf mem base s p <;> cases hbyte' : headByte conf mem' base' s' p' <;>
        rw [hbyte, hbyte'] at hstep
      case next.next t t' =>
        have hrest := ih hstep (headByte_inv hinv hbyte)
          (show SameBytes mem mem' a b (p + 1 + n) by rwa [show p + 1 + n = p + (n + 1) by omega])
          hp.succ
        simp only
        cases hloop : headLoop conf mem base t (p + 1) n <;>
          cases hloop' : headLoop conf mem' base' t' (p' + 1) n <;> rw [hloop, hloop'] at hrest
        case again.again =>
          obtain ⟨rfl, rfl, w', hw⟩ := hrest
          refine ⟨by omega, by omega, w', ?_⟩
          rwa [show p + (n + 1) = p + 1 + n by omega]
        case done.done =>
          obtain ⟨hsame, k, hk, hlength, hlength'⟩ := hrest
          exact ⟨hsame, k + 1, by omega, by omega, by omega⟩
        case refused.refused => exact hrest
        all_goals exact hrest.elim
      case done.done =>
        exact ⟨⟨_, hstep⟩, 0, by omega, headByte_length hbyte, headByte_length hbyte'⟩
      case refused.refused => exact hstep
      all_goals exact hstep.elim

/-- Nothing has been read. -/
theorem lineMoved_fresh (a b p : Nat) : LineMoved a b p .fresh .fresh where
  words := rfl
  requestStart := unset
  requestEnd := trivial
  methodEnd := unset
  schemaStart := trivial
  schema := unset
  schemaEnd := unset
  hostStart := trivial
  hostEnd := trivial
  uriStart := unset
  uriEnd := unset
  uriExt := trivial
  argsStart := trivial
  httpProtocol := trivial

/-- A header is parsed the same wherever it lies, whatever is behind the bytes that
have been read. -/
theorem headLoop_fresh (conf : HeaderConf) (base base' : Nat) {n : Nat}
    (hbytes : SameBytes mem mem' a b (a + n)) :
    HeadResultMoved a b a b base base' n (headLoop conf mem base (.line .fresh) a n)
      (headLoop conf mem' base' (.line .fresh) b n) := by
  have hmoved : HeadMoved ⟨0, 0, 0⟩ a b a (.line .fresh) (.line .fresh) := lineMoved_fresh a b a
  have hinv : HeadInv mem a (.line .fresh) := lineInv_fresh mem a
  exact headLoop_moved hmoved hinv hbytes ⟨le_refl a, le_refl a, Nat.add_comm a b⟩

end Toxic
