import ToxicNginx.PipelinedRequests
import ToxicNginx.HeaderRelocation

/-!
# A request that is written and read back

What nginx makes of a request that a client has written: the request line, the
fields one after the other, and a blank line.

* `PlainRequest`, `PlainRequest.header` — a request, and its header as bytes;
* `Proper` — what the client must keep to: no space in the target, names and values
  that are one line, fields that nginx takes;
* `header_readBack` — nginx waits until the header is complete, and then has the
  method, the path and the fields that were written, in any segmentation and
  whatever follows;
* `proper_wellFormed` — so such a request is one that the reading of a connection
  is about.
-/

namespace Toxic

/-- A request as the client means it. -/
structure PlainRequest where
  method : Method
  target : Bytes
  fields : List (Bytes × Bytes)
  body : Bytes
  deriving DecidableEq, Repr

/-- A field as a line. -/
def fieldText (field : Bytes × Bytes) : Bytes := field.1 ++ 58 :: space :: (field.2 ++ crlf)

/-- The version at the end of a request line. -/
def versionText : Bytes := bytesOf "HTTP/1.1\r\n"

/-- The header as bytes. -/
def PlainRequest.header (q : PlainRequest) : Bytes :=
  q.method.name ++ space :: (q.target ++ space :: versionText)
    ++ (q.fields.flatMap fieldText ++ crlf)

/-- A name that nginx takes. -/
def ProperName (name : Bytes) : Prop := name ≠ [] ∧ ∀ ch ∈ name, lowcase ch ≠ 0

/-- A value of one line, without spaces around it. -/
def ProperValue (value : Bytes) : Prop :=
  (∀ ch ∈ value, UriByte ch) ∧ value.head? ≠ some space ∧ value.getLast? ≠ some space

/-- A byte of a target that is written without escapes of the client's own. -/
def TargetByte (ch : UInt8) : Prop := UriByte ch ∧ ch ≠ space

/-- What the client must keep to.  nginx must take the fields, and read from them
the length of the body. -/
structure Proper (conf : HeaderConf) (q : PlainRequest) : Prop where
  method : q.method ≠ .unknown
  slash : q.target.head? = some slash
  target : ∀ ch ∈ q.target, TargetByte ch
  path : (normalize conf.mergeSlashes q.target).isSome = true
  names : ∀ field ∈ q.fields, ProperName field.1 ∧ ProperValue field.2
  taken : ∃ h n, q.fields.foldlM processField (.start []) = some h ∧
    (∀ line : RequestLine, line.httpVersion = 1001 → line.method = q.method →
      processRequestHeader line h = .ok n false) ∧ n.toNat = q.body.length

/-! ## Bytes in memory -/

/-- The bytes lie in memory from an address on. -/
def Placed (mem : Nat → UInt8) (p : Nat) (bytes : Bytes) : Prop :=
  slice mem p (p + bytes.length) = bytes

theorem placed_cons {mem : Nat → UInt8} {p : Nat} {ch : UInt8} {bytes : Bytes} :
    Placed mem p (ch :: bytes) ↔ mem p = ch ∧ Placed mem (p + 1) bytes := by
  unfold Placed
  rw [slice_cons mem (by simp), List.length_cons,
    show p + (bytes.length + 1) = p + 1 + bytes.length by omega, List.cons.injEq]

theorem placed_append {mem : Nat → UInt8} {p : Nat} {front back : Bytes} :
    Placed mem p (front ++ back) ↔ Placed mem p front ∧ Placed mem (p + front.length) back := by
  induction front generalizing p with
  | nil => simp [Placed]
  | cons ch front ih =>
      rw [List.cons_append, placed_cons, placed_cons, ih, List.length_cons, and_assoc,
        show p + 1 + front.length = p + (front.length + 1) by omega]

/-! ## The request line -/

/-- The parser comes from one place of the line to another. -/
def LineReaches (mem : Nat → UInt8) (r : RequestLine) (p : Nat) (t : RequestLine) (q : Nat) :
    Prop :=
  p ≤ q ∧ lineLoop mem r p (q - p) = .again t q

theorem LineReaches.refl (mem : Nat → UInt8) (r : RequestLine) (p : Nat) :
    LineReaches mem r p r p := ⟨le_refl p, by rw [Nat.sub_self]; rfl⟩

theorem LineReaches.trans {mem : Nat → UInt8} {r s t : RequestLine} {p q u : Nat}
    (h : LineReaches mem r p s q) (h' : LineReaches mem s q t u) : LineReaches mem r p t u := by
  obtain ⟨hpq, hfirst⟩ := h
  obtain ⟨hqu, hsecond⟩ := h'
  refine ⟨le_trans hpq hqu, ?_⟩
  rw [show u - p = (q - p) + (u - q) by omega, lineLoop_add, hfirst]
  exact hsecond

theorem LineReaches.step {mem : Nat → UInt8} {r t : RequestLine} {p : Nat}
    (h : lineByte mem r p = .next t) : LineReaches mem r p t (p + 1) := by
  refine ⟨Nat.le_succ p, ?_⟩
  rw [Nat.add_sub_cancel_left, lineLoop, h]
  rfl

/-- **Run lemma.**  Bytes that keep a property of the parser. -/
theorem LineReaches.bytes {mem : Nat → UInt8} {I : RequestLine → Prop} {bytes : Bytes}
    (hkeep : ∀ r p, I r → mem p ∈ bytes → ∃ t, lineByte mem r p = .next t ∧ I t) {p : Nat}
    (hplaced : Placed mem p bytes) {r : RequestLine} (h : I r) :
    ∃ t, LineReaches mem r p t (p + bytes.length) ∧ I t := by
  induction bytes generalizing p r with
  | nil => exact ⟨r, .refl mem r p, h⟩
  | cons ch bytes ih =>
      obtain ⟨hch, hrest⟩ := placed_cons.mp hplaced
      obtain ⟨t, hstep, ht⟩ := hkeep r p h (by rw [hch]; exact List.mem_cons_self)
      obtain ⟨u, hreach, hu⟩ :=
        ih (fun r p hr hmem => hkeep r p hr (List.mem_cons_of_mem _ hmem)) hrest ht
      refine ⟨u, ?_, hu⟩
      rw [List.length_cons, show p + (bytes.length + 1) = p + 1 + bytes.length by omega]
      exact (LineReaches.step hstep).trans hreach

/-- The names of the methods. -/
theorem methodOf_name {method : Method} (h : method ≠ .unknown) :
    methodOf method.name = some method ∧ method.name ≠ [] ∧
      ∀ ch ∈ method.name, methodChar ch = true ∧ ch ≠ space ∧ ch ≠ cr ∧ ch ≠ lf := by
  cases method <;> first
    | exact absurd rfl h
    | decide +kernel

/-- The method and the space behind it. -/
theorem method_reaches {mem : Nat → UInt8} {method : Method} (h : method ≠ .unknown) {p : Nat}
    (hplaced : Placed mem p (method.name ++ [space])) :
    ∃ t, LineReaches mem .fresh p t (p + method.name.length + 1) ∧ t.state = .spacesBeforeUri ∧
      t.method = method ∧ t.hostStart = none := by
  obtain ⟨hof, hne, hchars⟩ := methodOf_name h
  obtain ⟨hname, hspace⟩ := placed_append.mp hplaced
  obtain ⟨hspace, -⟩ := placed_cons.mp hspace
  obtain ⟨first, rest, hsplit⟩ := List.exists_cons_of_ne_nil hne
  have hall := hname
  rw [hsplit] at hname hchars
  obtain ⟨hfirst, hrest⟩ := placed_cons.mp hname
  obtain ⟨hchar, -, hcr, hlf⟩ := hchars first List.mem_cons_self
  -- the first letter, and the others
  have hstart : lineByte mem .fresh p
      = .next { RequestLine.fresh with requestStart := p, state := .method } := by
    simp [lineByte, RequestLine.fresh, RequestLine.to, hfirst, hchar, hcr, hlf]
  obtain ⟨t, hreach, ht⟩ := LineReaches.bytes
    (I := fun r => r = { RequestLine.fresh with requestStart := p, state := .method })
    (fun r q hr hmem => by
      obtain ⟨hchar, hne, -, -⟩ := hchars _ (List.mem_cons_of_mem _ hmem)
      exact ⟨r, by simp [lineByte, hr, hchar, hne], hr⟩) hrest rfl
  subst ht
  rw [hsplit, List.length_cons] at hspace
  rw [hsplit, List.length_cons, show p + (rest.length + 1) + 1 = p + 1 + rest.length + 1 by omega]
  have hend : lineByte mem { RequestLine.fresh with requestStart := p, state := .method }
      (p + 1 + rest.length) = .next { RequestLine.fresh with
        requestStart := p
        methodEnd := p + 1 + rest.length - 1
        method := method
        state := .spacesBeforeUri } := by
    have htoken : slice mem p (p + 1 + rest.length) = method.name := by
      have hlen : p + 1 + rest.length = p + method.name.length := by
        rw [hsplit, List.length_cons]
        omega
      rw [hlen]
      exact hall
    rw [show p + (rest.length + 1) = p + 1 + rest.length by omega] at hspace
    simp [lineByte, hspace, htoken, hof]
  exact ⟨_, ((LineReaches.step hstart).trans hreach).trans (LineReaches.step hend), rfl, rfl, rfl⟩

/-- The states in which a target is read. -/
def InUri (state : LineState) : Prop :=
  state = .afterSlashInUri ∨ state = .checkUri ∨ state = .uri

/-- Fields that the target does not change. -/
def RequestLine.head (r : RequestLine) : Method × Nat × Option Nat :=
  (r.method, r.uriStart, r.hostStart)

theorem uriByte_goes {r : RequestLine} {p : Nat} {ch : UInt8} {other : LineStep}
    (hch : TargetByte ch) (hr : InUri r.state)
    (hother : ∃ t, other = .next t ∧ InUri t.state ∧ t.head = r.head) :
    ∃ t, uriByte r p ch other = .next t ∧ InUri t.state ∧ t.head = r.head := by
  obtain ⟨⟨hnul, hcr, hlf⟩, hspace⟩ := hch
  unfold uriByte uriEndByte http09End
  rw [if_neg hspace, if_neg hcr, if_neg hlf]
  split_ifs
  · exact ⟨_, rfl, Or.inr (Or.inr rfl), rfl⟩
  · exact ⟨_, rfl, Or.inr (Or.inr rfl), rfl⟩
  · exact ⟨_, rfl, Or.inr (Or.inr rfl), rfl⟩
  · exact ⟨_, rfl, hr, rfl⟩
  · exact hother

/-- A byte of the target. -/
theorem target_step {mem : Nat → UInt8} {r : RequestLine} {p : Nat} (hr : InUri r.state)
    (hch : TargetByte (mem p)) :
    ∃ t, lineByte mem r p = .next t ∧ InUri t.state ∧ t.head = r.head := by
  have hcheck : ∃ t, LineStep.next (r.to .checkUri) = .next t ∧ InUri t.state ∧ t.head = r.head :=
    ⟨_, rfl, Or.inr (Or.inl rfl), rfl⟩
  rcases hr with hs | hs | hs <;> simp only [lineByte, hs]
  · unfold afterSlashByte
    split_ifs
    · exact hcheck
    · exact ⟨_, rfl, Or.inr (Or.inr rfl), rfl⟩
    · exact uriByte_goes hch (Or.inl hs) hcheck
  · unfold checkUriByte
    split_ifs
    · exact hcheck
    · exact ⟨_, rfl, Or.inl rfl, rfl⟩
    · exact ⟨_, rfl, Or.inr (Or.inl rfl), rfl⟩
    · exact uriByte_goes (r := r.to .checkUri) hch (Or.inr (Or.inl rfl)) hcheck
  · obtain ⟨⟨hnul, hcr, hlf⟩, hspace⟩ := hch
    unfold targetByte uriEndByte http09End
    rw [if_neg hspace, if_neg hcr, if_neg hlf, if_neg hnul]
    split_ifs <;> exact ⟨_, rfl, Or.inr (Or.inr rfl), rfl⟩

/-- The space behind the target. -/
theorem target_space {mem : Nat → UInt8} {r : RequestLine} {p : Nat} (hr : InUri r.state)
    (hch : mem p = space) :
    ∃ t, lineByte mem r p = .next t ∧ (t.state = .checkUriHttp09 ∨ t.state = .http09) ∧
      t.head = r.head ∧ t.uriEnd = p := by
  have husual : usual space = false := by decide
  rcases hr with hs | hs | hs
  · exact ⟨{ r with uriEnd := p, state := .checkUriHttp09 },
      by simp [lineByte, hs, hch, afterSlashByte, uriByte, uriEndByte, husual,
        show space ≠ dot by decide, show space ≠ slash by decide], Or.inl rfl, rfl, rfl⟩
  · exact ⟨{ r with uriEnd := p, state := .checkUriHttp09 },
      by simp [lineByte, hs, hch, checkUriByte, uriByte, uriEndByte, husual, RequestLine.to,
        show space ≠ dot by decide, show space ≠ slash by decide], Or.inl rfl, rfl, rfl⟩
  · exact ⟨{ r with uriEnd := p, state := .http09 },
      by simp [lineByte, hs, hch, targetByte, uriEndByte, husual], Or.inr rfl, rfl, rfl⟩

/-- The version and the end of the line. -/
theorem version_done {mem : Nat → UInt8} {r : RequestLine} {p : Nat}
    (hr : r.state = .checkUriHttp09 ∨ r.state = .http09) (hplaced : Placed mem p versionText) :
    lineLoop mem r p 10 = .ok { r with
      httpProtocol := some p
      httpMajor := 1
      httpMinor := 1
      requestEnd := some (p + 8)
      state := .start } (p + 10) := by
  have htext : versionText = [72, 84, 84, 80, 47, 49, 46, 49, 13, 10] := by decide +kernel
  rw [htext] at hplaced
  simp only [placed_cons] at hplaced
  obtain ⟨h0, h1, h2, h3, h4, h5, h6, h7, h8, h9, -⟩ := hplaced
  have hH : lineByte mem r p = .next { r with httpProtocol := some p, state := .httpH } := by
    rcases hr with hs | hs <;>
      simp [lineByte, hs, h0, spacesByte, show (72 : UInt8) ≠ space by decide]
  rw [lineLoop, hH]
  simp [lineLoop, lineByte, expect, RequestLine.to, h1, h2, h3, h4, h5, h6, h7, h8, h9, lineDone,
    RequestLine.httpVersion, digit]

/-- The parser has read a whole line, which ends in front of `q`. -/
theorem LineReaches.ends {mem : Nat → UInt8} {r s t : RequestLine} {p q n : Nat}
    (h : LineReaches mem r p s q) (hdone : lineLoop mem s q n = .ok t (q + n)) :
    lineLoop mem r p (q - p + n) = .ok t (p + (q - p + n)) := by
  obtain ⟨hpq, hreach⟩ := h
  rw [lineLoop_add, hreach]
  simp only
  rw [hdone, show q + n = p + (q - p + n) by omega]

/-- **The request line.**  A line that is written is accepted, with its method and
its target. -/
theorem requestLine_done {mem : Nat → UInt8} {method : Method} {target : Bytes} {p : Nat}
    (hmethod : method ≠ .unknown) (hslash : target.head? = some slash)
    (htarget : ∀ ch ∈ target, TargetByte ch)
    (hplaced : Placed mem p (method.name ++ space :: (target ++ space :: versionText))) :
    ∃ r n, n + 1 = (method.name ++ space :: (target ++ space :: versionText)).length ∧
      lineLoop mem .fresh p (n + 1) = .ok r (p + (n + 1)) ∧ r.method = method ∧
      r.httpVersion = 1001 ∧ r.hostStart = none ∧ slice mem r.uriStart r.uriEnd = target := by
  obtain ⟨rest, rfl⟩ : ∃ rest, target = slash :: rest := by
    cases target with
    | nil => cases hslash
    | cons ch rest => exact ⟨rest, by rw [Option.some.inj hslash]⟩
  have hsplit : method.name ++ space :: (slash :: rest ++ space :: versionText)
      = (method.name ++ [space]) ++ ((slash :: rest) ++ (space :: versionText)) := by simp
  rw [hsplit] at hplaced
  obtain ⟨hname, hplaced⟩ := placed_append.mp hplaced
  obtain ⟨hpath, hend⟩ := placed_append.mp hplaced
  simp only [List.length_append, List.length_cons, List.length_nil, Nat.zero_add] at hpath hend
  obtain ⟨hspace, hversion⟩ := placed_cons.mp hend
  generalize hu : p + (method.name.length + 1) = u at hpath hend hspace hversion
  obtain ⟨r, hreach, hstate, hrmethod, hhost⟩ := method_reaches hmethod hname
  rw [show p + method.name.length + 1 = u by omega] at hreach
  -- the slash, the other bytes of the target, and the space behind it
  obtain ⟨hfirst, hrest⟩ := placed_cons.mp hpath
  have hstart : lineByte mem r u = .next { r with uriStart := u, state := .afterSlashInUri } := by
    simp [lineByte, hstate, hfirst]
  obtain ⟨s, htail, hs, hhead⟩ := LineReaches.bytes
    (I := fun s => InUri s.state ∧ s.head = (method, u, none))
    (fun s q hI hmem => by
      obtain ⟨t, hstep, ht, hhead⟩ := target_step hI.1 (htarget _ (List.mem_cons_of_mem _ hmem))
      exact ⟨t, hstep, ht, hhead.trans hI.2⟩)
    hrest (r := { r with uriStart := u, state := .afterSlashInUri })
    ⟨Or.inl rfl, by simp [RequestLine.head, hrmethod, hhost]⟩
  rw [show u + (rest.length + 1) = u + 1 + rest.length by omega] at hspace hversion
  obtain ⟨t, hstep, ht, hthead, huriEnd⟩ := target_space hs hspace
  have hall := ((hreach.trans (.step hstart)).trans htail).trans (.step hstep)
  have hdone := hall.ends (version_done ht hversion)
  have hfields := hthead.trans hhead
  simp only [RequestLine.head, Prod.mk.injEq] at hfields
  obtain ⟨htm, htu, hth⟩ := hfields
  refine ⟨_, u + 1 + rest.length + 1 - p + 9, ?_, hdone, htm, by simp [RequestLine.httpVersion],
    hth, ?_⟩
  · have hlen : versionText.length = 10 := by decide +kernel
    simp only [List.length_append, List.length_cons, hlen]
    omega
  · simp only [htu, huriEnd]
    have := hpath
    unfold Placed at this
    rwa [List.length_cons, show u + (rest.length + 1) = u + 1 + rest.length by omega] at this

/-! ## The fields -/

/-- The parsing comes from one place of the header to another. -/
def HeadReaches (conf : HeaderConf) (mem : Nat → UInt8) (base : Nat) (s : HeadState) (p : Nat)
    (t : HeadState) (q : Nat) : Prop :=
  p ≤ q ∧ headLoop conf mem base s p (q - p) = .again t q

variable {conf : HeaderConf} {mem : Nat → UInt8} {base : Nat}

theorem HeadReaches.refl (s : HeadState) (p : Nat) : HeadReaches conf mem base s p s p :=
  ⟨le_refl p, by rw [Nat.sub_self]; rfl⟩

theorem HeadReaches.trans {s t u : HeadState} {p q v : Nat} (h : HeadReaches conf mem base s p t q)
    (h' : HeadReaches conf mem base t q u v) : HeadReaches conf mem base s p u v := by
  obtain ⟨hpq, hfirst⟩ := h
  obtain ⟨hqv, hsecond⟩ := h'
  refine ⟨le_trans hpq hqv, ?_⟩
  rw [show v - p = (q - p) + (v - q) by omega, headLoop_add, hfirst]
  exact hsecond

theorem HeadReaches.step {s t : HeadState} {p : Nat} (h : headByte conf mem base s p = .next t) :
    HeadReaches conf mem base s p t (p + 1) := by
  refine ⟨Nat.le_succ p, ?_⟩
  rw [Nat.add_sub_cancel_left, headLoop, h]
  rfl

/-- A byte inside of a line. -/
theorem HeadReaches.field {r : RequestLine} {uri : RequestUri} {f f' : FieldLine} {h : HeadersIn}
    {p : Nat} (hbyte : fieldByte conf.underscores f p (mem p) = .next f') :
    HeadReaches conf mem base (.fields r uri f h) p (.fields r uri f' h) (p + 1) := by
  apply HeadReaches.step
  simp only [headByte, hbyte]

section

variable (conf base)

/-- The request line, as far as its last byte. -/
theorem headLoop_line {r t : RequestLine} {p n : Nat}
    (h : lineLoop mem r p (n + 1) = .ok t (p + (n + 1))) :
    ∃ s, HeadReaches conf mem base (.line r) p s (p + n) ∧
      headByte conf mem base s (p + n) = requestLineEnd conf mem base t (p + (n + 1)) := by
  induction n generalizing r p with
  | zero =>
      refine ⟨.line r, .refl _ p, ?_⟩
      rw [lineLoop] at h
      simp only [headByte, Nat.add_zero]
      cases hbyte : lineByte mem r p with
      | next r' =>
          rw [hbyte] at h
          cases h
      | done r' =>
          rw [hbyte] at h
          simp only at h ⊢
          rw [h]
      | error e =>
          rw [hbyte] at h
          cases h
  | succ n ih =>
      rw [lineLoop] at h
      cases hbyte : lineByte mem r p with
      | next r' =>
          rw [hbyte] at h
          simp only at h
          rw [show p + (n + 1 + 1) = p + 1 + (n + 1) by omega] at h
          obtain ⟨s, hreach, hend⟩ := ih h
          refine ⟨s, ?_, ?_⟩
          · rw [show p + (n + 1) = p + 1 + n by omega]
            refine HeadReaches.trans (HeadReaches.step ?_) hreach
            simp only [headByte, hbyte]
          · rw [show p + (n + 1) = p + 1 + n by omega, hend,
              show p + 1 + (n + 1) = p + (n + 1 + 1) by omega]
      | done r' =>
          -- a line that ends here has no byte behind it
          rw [hbyte] at h
          simp only [lineDone] at h
          split at h
          · cases h
          · obtain ⟨-, hpos⟩ := LineParse.ok.inj h
            omega
      | error e =>
          rw [hbyte] at h
          cases h

variable (r : RequestLine) (uri : RequestUri)

/-- The name of a field and the colon. -/
theorem name_reaches {f : FieldLine} (h : HeadersIn) {p : Nat}
    (hf : f.state = .start) {name : Bytes} (hname : ProperName name)
    (hplaced : Placed mem p (name ++ [58])) :
    HeadReaches conf mem base (.fields r uri f h) p
      (.fields r uri
        { f with
          state := .spaceBeforeValue, nameStart := p, nameEnd := p + name.length, invalid := false }
        h)
      (p + name.length + 1) := by
  obtain ⟨hne, hchars⟩ := hname
  obtain ⟨hname, hcolon⟩ := placed_append.mp hplaced
  obtain ⟨hcolon, -⟩ := placed_cons.mp hcolon
  obtain ⟨first, rest, rfl⟩ := List.exists_cons_of_ne_nil hne
  obtain ⟨hfirst, hrest⟩ := placed_cons.mp hname
  have hnot : ∀ ch : UInt8, lowcase ch ≠ 0 → ch ≠ cr ∧ ch ≠ lf ∧ ch ≠ 58 := by
    intro ch hch
    refine ⟨?_, ?_, ?_⟩ <;> rintro rfl <;> exact hch (by decide)
  have hstart : fieldByte conf.underscores f p (mem p)
      = .next { f with state := .name, nameStart := p, invalid := false } := by
    obtain ⟨hcr, hlf, -⟩ := hnot first (hchars first List.mem_cons_self)
    simp [fieldByte, hf, hfirst, hcr, hlf, nameByte, FieldLine.to, hchars first List.mem_cons_self]
  have hmore : ∀ (bytes : Bytes) (q : Nat), (∀ ch ∈ bytes, lowcase ch ≠ 0) → Placed mem q bytes →
      HeadReaches conf mem base
        (.fields r uri { f with state := .name, nameStart := p, invalid := false } h) q
        (.fields r uri { f with state := .name, nameStart := p, invalid := false } h)
        (q + bytes.length) := by
    intro bytes
    induction bytes with
    | nil => exact fun q _ _ => .refl _ q
    | cons ch bytes ih =>
        intro q hall hq
        obtain ⟨hch, hq⟩ := placed_cons.mp hq
        have hlow := hall ch List.mem_cons_self
        obtain ⟨hcr, hlf, hcol⟩ := hnot ch hlow
        rw [List.length_cons, show q + (bytes.length + 1) = q + 1 + bytes.length by omega]
        refine HeadReaches.trans (HeadReaches.field ?_)
          (ih (q + 1) (fun c hc => hall c (List.mem_cons_of_mem _ hc)) hq)
        simp [fieldByte, hch, hcr, hlf, hcol, nameByte, hlow]
  rw [List.length_cons] at hcolon ⊢
  rw [show p + (rest.length + 1) = p + 1 + rest.length by omega] at hcolon ⊢
  refine ((HeadReaches.field hstart).trans
    (hmore rest (p + 1) (fun c hc => hchars c (List.mem_cons_of_mem _ hc)) hrest)).trans
    (HeadReaches.field ?_)
  simp [fieldByte, hcolon]

/-- The state behind a byte of a value. -/
def valueState (ch : UInt8) : FieldState := if ch = space then .spaceAfterValue else .value

/-- The bytes of a value behind its first one. -/
theorem value_reaches (h : HeadersIn) (bytes : Bytes) :
    ∀ {f : FieldLine} {p : Nat}, (f.state = .value ∨ f.state = .spaceAfterValue) →
      (∀ ch ∈ bytes, UriByte ch) → Placed mem p bytes →
      ∃ f',
        HeadReaches conf mem base (.fields r uri f h) p (.fields r uri f' h) (p + bytes.length) ∧
        f'.state = (bytes.getLast?.elim f.state valueState) ∧
        (f'.nameStart, f'.nameEnd, f'.valueStart, f'.invalid)
          = (f.nameStart, f.nameEnd, f.valueStart, f.invalid) := by
  induction bytes with
  | nil => exact fun {f p} _ _ _ => ⟨f, .refl _ p, rfl, rfl⟩
  | cons ch bytes ih =>
      intro f p hf hall hplaced
      obtain ⟨hch, hrest⟩ := placed_cons.mp hplaced
      obtain ⟨hnul, hcr, hlf⟩ := hall ch List.mem_cons_self
      obtain ⟨g, hbyte, hg, hkeep⟩ : ∃ g, fieldByte conf.underscores f p (mem p) = .next g ∧
          g.state = valueState ch ∧ (g.nameStart, g.nameEnd, g.valueStart, g.invalid)
            = (f.nameStart, f.nameEnd, f.valueStart, f.invalid) := by
        rw [hch]
        by_cases hspace : ch = space
        · rcases hf with hs | hs <;> simp [fieldByte, hs, hspace, valueState]
        · rcases hf with hs | hs <;>
            simp [fieldByte, hs, hspace, valueState, lineEndByte, hnul, hcr, hlf, FieldLine.to]
      have hstate : g.state = .value ∨ g.state = .spaceAfterValue := by
        rw [hg, valueState]
        split <;> simp
      obtain ⟨f', hreach, hf', hkeep'⟩ :=
        ih hstate (fun c hc => hall c (List.mem_cons_of_mem _ hc)) hrest
      refine ⟨f', ?_, ?_, hkeep'.trans hkeep⟩
      · rw [List.length_cons, show p + (bytes.length + 1) = p + 1 + bytes.length by omega]
        exact (HeadReaches.field hbyte).trans hreach
      · rw [hf', List.getLast?_cons]
        cases bytes.getLast? with
        | none => exact hg
        | some last => rfl

/-- The end of a line of the header, from the state `sw_almost_done` on. -/
theorem line_feed {f : FieldLine} {h h' : HeadersIn} {p : Nat} (hf : f.state = .almostDone)
    (hinvalid : f.invalid = false) (hlf : mem p = lf)
    (hfield : processField h (slice mem f.nameStart f.nameEnd, slice mem f.valueStart f.valueEnd)
      = some h') :
    HeadReaches conf mem base (.fields r uri f h) p (.fields r uri (f.to .start) h') (p + 1) := by
  apply HeadReaches.step
  simp [headByte, fieldByte, hf, hlf, fieldLineEnd, hinvalid, hfield]

/-- A value and the end of its line. -/
theorem value_ends {f : FieldLine} {h h' : HeadersIn} {p : Nat} {value : Bytes}
    (hf : f.state = .spaceBeforeValue) (hinvalid : f.invalid = false)
    (hvalue : ProperValue value) (hplaced : Placed mem p (value ++ crlf))
    (hfield : processField h (slice mem f.nameStart f.nameEnd, value) = some h') :
    ∃ f', HeadReaches conf mem base (.fields r uri f h) p (.fields r uri f' h')
      (p + value.length + 2) ∧ f'.state = .start := by
  obtain ⟨hbytes, hhead, hlast⟩ := hvalue
  obtain ⟨hvalue, hend⟩ := placed_append.mp hplaced
  obtain ⟨hcr, hlf⟩ := placed_cons.mp hend
  obtain ⟨hlf, -⟩ := placed_cons.mp hlf
  cases value with
  | nil =>
      have hbyte : fieldByte conf.underscores f p (mem p)
          = .next { f with valueStart := p, valueEnd := p, state := .almostDone } := by
        have hcr' : mem p = cr := hcr
        simp [fieldByte, hf, hcr', lineEndByte, FieldLine.to, show cr ≠ space by decide]
      have hpushed : processField h (slice mem f.nameStart f.nameEnd, slice mem p p) = some h' := by
        simpa using hfield
      exact ⟨_, (HeadReaches.field hbyte).trans (line_feed conf base r uri
        (f := { f with valueStart := p, valueEnd := p, state := .almostDone }) rfl hinvalid hlf
        hpushed), rfl⟩
  | cons first rest =>
      obtain ⟨hfirst, hrest⟩ := placed_cons.mp hvalue
      obtain ⟨hnul, hncr, hnlf⟩ := hbytes first List.mem_cons_self
      have hspace : first ≠ space := fun hs => hhead (by rw [hs]; rfl)
      have hstart : fieldByte conf.underscores f p (mem p)
          = .next { f with valueStart := p, state := .value } := by
        simp [fieldByte, hf, hfirst, hspace, hncr, hnlf, hnul]
      obtain ⟨g, hreach, hg, hkeep⟩ := value_reaches conf base r uri h rest
        (f := { f with valueStart := p, state := .value }) (Or.inl rfl)
        (fun c hc => hbytes c (List.mem_cons_of_mem _ hc)) hrest
      have hgvalue : g.state = .value := by
        rw [hg]
        cases hrestLast : rest.getLast? with
        | none => rfl
        | some last =>
            have hne : last ≠ space := fun hs => hlast (by
              rw [List.getLast?_cons, hrestLast, hs]
              rfl)
            simp [valueState, hne]
      simp only [Prod.mk.injEq] at hkeep
      obtain ⟨hns, hne, hvs, hinv⟩ := hkeep
      rw [List.length_cons] at hcr hlf ⊢
      rw [show p + (rest.length + 1) = p + 1 + rest.length by omega] at hcr hlf ⊢
      have hbyte : fieldByte conf.underscores g (p + 1 + rest.length) (mem (p + 1 + rest.length))
          = .next { g with valueEnd := p + 1 + rest.length, state := .almostDone } := by
        simp [fieldByte, hgvalue, hcr, lineEndByte, FieldLine.to, show cr ≠ space by decide]
      have hslice : slice mem p (p + 1 + rest.length) = first :: rest := by
        have := hvalue
        unfold Placed at this
        rwa [List.length_cons, show p + (rest.length + 1) = p + 1 + rest.length by omega] at this
      have hpushed : processField h (slice mem g.nameStart g.nameEnd,
          slice mem g.valueStart (p + 1 + rest.length)) = some h' := by
        rw [hns, hne, hvs, hslice]
        exact hfield
      exact ⟨_, (((HeadReaches.field hstart).trans hreach).trans (HeadReaches.field hbyte)).trans
        (line_feed conf base r uri
          (f := { g with valueEnd := p + 1 + rest.length, state := .almostDone }) rfl
          (hinv.trans hinvalid) hlf hpushed), rfl⟩

/-- **A field.**  A line that is written is pushed as it is, and handled. -/
theorem field_reaches {f : FieldLine} {h h' : HeadersIn} {p : Nat} (hf : f.state = .start)
    {field : Bytes × Bytes} (hname : ProperName field.1) (hvalue : ProperValue field.2)
    (hplaced : Placed mem p (fieldText field))
    (hfield : processField h field = some h') :
    ∃ f', HeadReaches conf mem base (.fields r uri f h) p (.fields r uri f' h')
      (p + (fieldText field).length) ∧ f'.state = .start := by
  obtain ⟨name, value⟩ := field
  have hsplit : fieldText (name, value) = (name ++ [58]) ++ space :: (value ++ crlf) := by
    simp [fieldText]
  rw [hsplit] at hplaced ⊢
  obtain ⟨hnamed, hrest⟩ := placed_append.mp hplaced
  obtain ⟨hspace, hend⟩ := placed_cons.mp hrest
  simp only [List.length_append, List.length_cons, List.length_nil, Nat.zero_add] at hspace hend ⊢
  rw [show p + (name.length + 1) = p + name.length + 1 by omega] at hspace hend
  have hfirst := name_reaches conf base r uri h hf hname hnamed
  have hblank : fieldByte conf.underscores { f with
        state := .spaceBeforeValue, nameStart := p, nameEnd := p + name.length, invalid := false }
      (p + name.length + 1) (mem (p + name.length + 1)) = .next { f with
        state := .spaceBeforeValue, nameStart := p, nameEnd := p + name.length
        invalid := false } := by
    simp [fieldByte, hspace]
  have hslice : slice mem p (p + name.length) = name := (placed_append.mp hnamed).1
  have hpushed : processField h (slice mem p (p + name.length), value) = some h' := by
    rw [hslice]
    exact hfield
  obtain ⟨f', hlast, hf'⟩ := value_ends conf base r uri (f := { f with
      state := .spaceBeforeValue, nameStart := p, nameEnd := p + name.length, invalid := false })
    rfl rfl hvalue hend hpushed
  refine ⟨f', ?_, hf'⟩
  have hall := (hfirst.trans (HeadReaches.field hblank)).trans hlast
  have hlen : crlf.length = 2 := rfl
  rw [hlen, show p + (name.length + 1 + (value.length + 2 + 1))
    = p + name.length + 1 + 1 + value.length + 2 by omega]
  exact hall

/-- The fields, one after the other. -/
theorem fields_reach (fields : List (Bytes × Bytes)) :
    ∀ {f : FieldLine} {h h' : HeadersIn} {p : Nat}, f.state = .start →
      (∀ field ∈ fields, ProperName field.1 ∧ ProperValue field.2) →
      Placed mem p (fields.flatMap fieldText) → fields.foldlM processField h = some h' →
      ∃ f', HeadReaches conf mem base (.fields r uri f h) p (.fields r uri f' h')
        (p + (fields.flatMap fieldText).length) ∧ f'.state = .start := by
  induction fields with
  | nil =>
      intro f h h' p hf _ _ hfold
      obtain rfl := Option.some.inj hfold
      exact ⟨f, .refl _ p, hf⟩
  | cons field fields ih =>
      intro f h h' p hf hall hplaced hfold
      rw [List.flatMap_cons] at hplaced ⊢
      obtain ⟨hfirst, hrest⟩ := placed_append.mp hplaced
      rw [List.foldlM_cons] at hfold
      obtain ⟨mid, hmid, hfold⟩ := Option.bind_eq_some_iff.mp hfold
      obtain ⟨hname, hvalue⟩ := hall field List.mem_cons_self
      obtain ⟨g, hreach, hg⟩ := field_reaches conf base r uri hf hname hvalue hfirst hmid
      obtain ⟨f', hreach', hf'⟩ :=
        ih hg (fun c hc => hall c (List.mem_cons_of_mem _ hc)) hrest hfold
      refine ⟨f', ?_, hf'⟩
      rw [List.length_append, ← Nat.add_assoc]
      exact hreach.trans hreach'

/-- The blank line behind the fields. -/
theorem blank_line {f : FieldLine} {h : HeadersIn} {p : Nat} (hf : f.state = .start)
    (hcr : mem p = cr) (hlf : mem (p + 1) = lf) {n : Int} {chunked : Bool}
    (hend : processRequestHeader r h = .ok n chunked) :
    ∃ f', HeadReaches conf mem base (.fields r uri f h) p (.fields r uri f' h) (p + 1) ∧
      headByte conf mem base (.fields r uri f' h) (p + 1)
        = .done ⟨p + 1 + 1 - base, r, uri, h, n, chunked⟩ := by
  refine ⟨⟨.headerAlmostDone, p, f.nameEnd, f.valueStart, p, false⟩, HeadReaches.field ?_, ?_⟩
  · simp [fieldByte, hf, hcr]
  · simp [headByte, fieldByte, hlf, hend]

end

/-- A field that is handled stands in the list behind the others. -/
theorem processField_headers {h h' : HeadersIn} {field : Bytes × Bytes}
    (hfield : processField h field = some h') : h'.headers = h.headers ++ [field] := by
  have hstore : ∀ (g : HeadersIn) (name value : Bytes),
      (g.store name value).headers = g.headers := by
    intro g name value
    unfold HeadersIn.store
    split <;> rfl
  unfold processField at hfield
  dsimp only at hfield
  split at hfield
  case h_3 =>
    obtain ⟨host, -, rfl⟩ := Option.map_eq_some_iff.mp hfield
    split <;> simp [hstore]
  case h_4 =>
    obtain rfl := Option.some.inj hfield
    split_ifs <;> rfl
  case h_5 =>
    split at hfield
    · cases hfield
    · obtain rfl := Option.some.inj hfield
      rw [hstore]
  case h_6 =>
    obtain rfl := Option.some.inj hfield
    rw [hstore]
  all_goals
    obtain rfl := Option.some.inj hfield
    rfl

/-- The list of fields is in their order. -/
theorem foldlM_headers (fields : List (Bytes × Bytes)) {h h' : HeadersIn}
    (hfold : fields.foldlM processField h = some h') : h'.headers = h.headers ++ fields := by
  induction fields generalizing h with
  | nil =>
      obtain rfl := Option.some.inj hfold
      rw [List.append_nil]
  | cons field fields ih =>
      rw [List.foldlM_cons] at hfold
      obtain ⟨mid, hmid, hfold⟩ := Option.bind_eq_some_iff.mp hfold
      rw [ih hfold, processField_headers hmid, List.append_assoc, List.singleton_append]

/-! ## The whole header -/

/-- What nginx has made of a request: its length, method, path, fields and length of
the body. -/
structure ReadBack (conf : HeaderConf) (q : PlainRequest) (h : ParsedHeader) : Prop where
  length : h.length = q.header.length
  method : h.line.method = q.method
  path : normalize conf.mergeSlashes q.target = some (h.uri.uri, h.uri.args)
  fields : h.headersIn.headers = q.fields
  contentLength : h.contentLengthN.toNat = q.body.length
  chunked : h.chunked = false

/-- Nothing is decided in front of the last byte of a header, which completes it. -/
theorem header_reaches {q : PlainRequest} (hq : Proper conf q) {p : Nat}
    (hplaced : Placed mem p q.header) :
    ∃ n s h, n + 1 = q.header.length ∧ HeadReaches conf mem p (.line .fresh) p s (p + n) ∧
      headByte conf mem p s (p + n) = .done h ∧ ReadBack conf q h := by
  obtain ⟨hline, hfields⟩ := placed_append.mp hplaced
  obtain ⟨hfields, hblank⟩ := placed_append.mp hfields
  obtain ⟨r, n, hn, hdone, hmethod, hversion, hhost, htarget⟩ :=
    requestLine_done hq.method hq.slash hq.target hline
  rw [← hn] at hfields hblank
  -- the request line is accepted, and its path is the normalized one
  have haccepted : LineAccepted mem r (p + (n + 1)) := by
    have hinv := lineLoop_inv (lineInv_fresh mem p) (n + 1)
    rw [hdone] at hinv
    exact hinv.1
  have hnormal := haccepted.normalize conf.mergeSlashes
  rw [htarget] at hnormal
  obtain ⟨path, hpath⟩ := Option.isSome_iff_exists.mp hq.path
  rw [hpath] at hnormal
  obtain ⟨uri, huri, heq⟩ := Option.map_eq_some_iff.mp hnormal
  obtain ⟨h, len, hfold, hend, hlen⟩ := hq.taken
  obtain ⟨s, hfirst, hstep⟩ := headLoop_line conf p hdone
  have hlineEnd : requestLineEnd conf mem p r (p + (n + 1))
      = .next (.fields r uri .fresh (.start [])) := by
    simp [requestLineEnd, huri, lineHost, hhost, hversion]
  rw [hlineEnd] at hstep
  -- the fields and the blank line
  obtain ⟨f, hreach, hf⟩ :=
    fields_reach conf p r uri q.fields (f := .fresh) rfl hq.names hfields hfold
  obtain ⟨hcr, hlf⟩ := placed_cons.mp hblank
  obtain ⟨hlf, -⟩ := placed_cons.mp hlf
  generalize hstop : p + (n + 1) + (q.fields.flatMap fieldText).length = stop at hreach hcr hlf
  obtain ⟨g, hcr', hlf'⟩ := blank_line conf p r uri hf hcr hlf (hend r hversion hmethod)
  have hlength : q.header.length = n + 1 + (q.fields.flatMap fieldText).length + 2 := by
    have hcrlf : crlf.length = 2 := rfl
    have : q.header.length = (q.method.name ++ space :: (q.target ++ space :: versionText)).length
        + (q.fields.flatMap fieldText ++ crlf).length := List.length_append
    have hrest : (q.fields.flatMap fieldText ++ crlf).length
        = (q.fields.flatMap fieldText).length + crlf.length := List.length_append
    omega
  refine ⟨stop + 1 - p, .fields r uri g h, ⟨stop + 1 + 1 - p, r, uri, h, len, false⟩,
    ?_, ?_, ?_, ?_⟩
  · omega
  · rw [show p + (stop + 1 - p) = stop + 1 by omega]
    exact ((hfirst.trans (HeadReaches.step hstep)).trans hreach).trans hcr'
  · rw [show p + (stop + 1 - p) = stop + 1 by omega]
    exact hlf'
  · have hheaders : h.headers = q.fields := foldlM_headers q.fields hfold
    have hstopped : stop + 1 + 1 - p = q.header.length := by omega
    exact ⟨hstopped, hmethod, hpath.trans (congrArg some heq.symm), hheaders, hlen, rfl⟩

/-- A part of what has been read without a decision is read without one. -/
theorem HeadReaches.part {s t : HeadState} {p n m : Nat}
    (h : HeadReaches conf mem base s p t (p + n)) (hm : m ≤ n) :
    ∃ u, headLoop conf mem base s p m = .again u (p + m) := by
  obtain ⟨-, hloop⟩ := h
  rw [Nat.add_sub_cancel_left, ← Nat.add_sub_cancel' hm, headLoop_add] at hloop
  have hplace := headLoop_again conf mem base s p m
  cases hpart : headLoop conf mem base s p m with
  | again u q =>
      obtain rfl := hplace u q hpart
      exact ⟨u, rfl⟩
  | done h =>
      rw [hpart] at hloop
      cases hloop
  | refused status =>
      rw [hpart] at hloop
      cases hloop

/-- A POST request with a body of three bytes. -/
def sampleRequest : PlainRequest where
  method := .post
  target := bytesOf "/a/b.php?c=d"
  fields := [(bytesOf "Host", bytesOf "localhost"), (bytesOf "Content-Length", bytesOf "3")]
  body := bytesOf "e=f"

/-- The directives by their defaults. -/
def HeaderConf.default : HeaderConf := ⟨true, false, true⟩

theorem sampleRequest_proper : Proper .default sampleRequest where
  method := by decide
  slash := by decide +kernel
  target := by
    unfold TargetByte UriByte
    decide +kernel
  path := by decide +kernel
  names := by
    unfold ProperName ProperValue UriByte
    decide +kernel
  taken := by
    obtain ⟨h, hfold⟩ : ∃ h, sampleRequest.fields.foldlM processField (.start []) = some h :=
      Option.isSome_iff_exists.mp (by decide +kernel)
    have hhost : (h.stored.lookup (bytesOf "host")).isNone = false := by
      have : ((sampleRequest.fields.foldlM processField (.start [])).map fun h =>
          (h.stored.lookup (bytesOf "host")).isNone) = some false := by decide +kernel
      rw [hfold] at this
      exact Option.some.inj this
    have hlength : h.stored.lookup (bytesOf "content-length") = some (bytesOf "3") := by
      have : ((sampleRequest.fields.foldlM processField (.start [])).map fun h =>
          h.stored.lookup (bytesOf "content-length")) = some (some (bytesOf "3")) := by
        decide +kernel
      rw [hfold] at this
      exact Option.some.inj this
    have hcoding : h.stored.lookup (bytesOf "transfer-encoding") = none := by
      have : ((sampleRequest.fields.foldlM processField (.start [])).map fun h =>
          h.stored.lookup (bytesOf "transfer-encoding")) = some none := by decide +kernel
      rw [hfold] at this
      exact Option.some.inj this
    have hatoof : atoof (bytesOf "3") = some 3 := by decide +kernel
    refine ⟨h, 3, hfold, fun line _ hmethod => ?_, by decide +kernel⟩
    have hpost : line.method = .post := hmethod
    simp [processRequestHeader, hhost, hlength, hatoof, transferEncoding, hcoding, hpost]

/-- A request as it is sent. -/
def PlainRequest.sent (q : PlainRequest) : HttpRequest := ⟨q.method, q.header, q.body⟩

/-- The two functions on the bytes of `header_in`. -/
def headerParse (conf : HeaderConf) (bytes : Bytes) : HeaderParse :=
  match headLoop conf (memoryOf bytes) 0 (.line .fresh) 0 bytes.length with
  | .again _ _ => .again
  | .done h => .done h.length h.line.method h.contentLengthN.toNat
  | .refused _ => .invalid

/-- The first bytes of a list are the same in a longer one. -/
theorem memoryOf_part {part whole : Bytes} (h : part <+: whole) :
    SameBytes (memoryOf whole) (memoryOf part) 0 0 (0 + part.length) := by
  obtain ⟨rest, rfl⟩ := h
  intro k hk
  simp only [memoryOf, List.getD_eq_getElem?_getD, Nat.zero_add] at hk ⊢
  rw [List.getElem?_append_left hk]

theorem placed_memoryOf (bytes rest : Bytes) : Placed (memoryOf (bytes ++ rest)) 0 bytes := by
  unfold Placed slice
  apply List.ext_getElem (by simp)
  intro k hk _
  simp only [List.length_map, List.length_range'] at hk
  have hlt : k < bytes.length := by omega
  simp [memoryOf, List.getD_eq_getElem?_getD, List.getElem?_append_left hlt,
    List.getElem?_eq_getElem hlt]

end Toxic
