import ToxicNginx.RequestLine

/-!
# The path of an accepted request

What `ngx_http_process_request_uri` leaves in `r` for a line that
`ngx_http_parse_request_line` accepts.

* `LineAccepted`, `lineCalls_accepted` — where the pointers of an accepted line
  lie; `lineLoop_inv`, the step of it; `lineLoop_add` — the line may come in parts;
* `processRequestUri_plain` — reading the path off the pointers is the same as the
  pass over the target;
* `complexLoop_fits` — the pass writes no more than was allocated for it;
* `requestUri_normal` — the path of every accepted request.
-/

namespace Toxic

open PathSegments

/-- The pointers of a line that was accepted, for `b->pos` behind it. -/
structure LineAccepted (mem : Nat → UInt8) (r : RequestLine) (pos : Nat) : Prop where
  method : r.requestStart ≤ r.methodEnd ∧ r.methodEnd < r.uriStart
  target : Target mem r r.uriEnd
  requestEnd : ∃ e, r.requestEnd = some e ∧ r.uriEnd ≤ e ∧ e < pos

/-- The first call starts with a fresh request. -/
theorem lineInv_fresh (mem : Nat → UInt8) (p : Nat) : LineInv mem .fresh p :=
  ⟨rfl, rfl, rfl, rfl, rfl, rfl⟩

/-- **Run lemma.**  A call that must wait for more knows as much as one byte
before, and an accepted line has its pointers in place. -/
theorem lineLoop_inv {mem : Nat → UInt8} {r : RequestLine} {p : Nat} (h : LineInv mem r p)
    (n : Nat) :
    match lineLoop mem r p n with
    | .again t q => LineInv mem t q ∧ q = p + n
    | .ok t q => LineAccepted mem t q ∧ p < q ∧ q ≤ p + n
    | .error _ => True := by
  induction n generalizing r p with
  | zero => exact ⟨h, rfl⟩
  | succ n ih =>
      have hstep := lineByte_inv h
      rw [lineLoop]
      cases hbyte : lineByte mem r p with
      | next r' =>
          rw [hbyte] at hstep
          have hrest := ih hstep
          simp only
          split at hrest
          · exact ⟨hrest.1, by omega⟩
          · exact ⟨hrest.1, by omega, by omega⟩
          · trivial
      | done r' =>
          rw [hbyte] at hstep
          simp only [lineDone]
          split
          case h_1 hdone => split at hdone <;> cases hdone
          case h_2 hdone =>
            split at hdone
            · cases hdone
            · obtain ⟨rfl, rfl⟩ := LineParse.ok.inj hdone
              have hlf := hstep.lineFeed
              exact ⟨⟨hstep.named, hstep.target.of_eq rfl, _, rfl, hstep.before, by omega⟩, by omega,
                by omega⟩
          case h_3 => trivial
      | error e => trivial

/-- **Segmentation.**  A line that comes in two parts is parsed as at once. -/
theorem lineLoop_add (mem : Nat → UInt8) (r : RequestLine) (p m n : Nat) :
    lineLoop mem r p (m + n) =
      match lineLoop mem r p m with
      | .again t q => lineLoop mem t q n
      | result => result := by
  induction m generalizing r p with
  | zero => rw [Nat.zero_add]; rfl
  | succ m ih =>
      rw [Nat.succ_add, lineLoop, lineLoop]
      cases lineByte mem r p with
      | next r' => exact ih r' (p + 1)
      | done r' =>
          simp only [lineDone]
          split <;> rfl
      | error e => rfl

/-- The calls together are one call on all that was read. -/
theorem lineCalls_eq (mem : Nat → UInt8) (r : RequestLine) (p : Nat) (reads : List Nat) :
    lineCalls mem r p reads = lineLoop mem r p reads.sum := by
  induction reads generalizing r p with
  | nil => rfl
  | cons n reads ih =>
      rw [lineCalls, parseRequestLine, Nat.add_sub_cancel_left, List.sum_cons, lineLoop_add]
      cases lineLoop mem r p n with
      | again t q => exact ih t q
      | ok t q => rfl
      | error e => rfl

/-- **The plain path is the path of the pass.**  Whether the parser has set a flag
or not, the fields are those that the pass over the target gives. -/
theorem processRequestUri_pass {mem : Nat → UInt8} {r : RequestLine} {pos : Nat}
    (h : LineAccepted mem r pos) (mergeSlashes : Bool) :
    processRequestUri mem mergeSlashes r
      = parseComplexUri mergeSlashes r.quotedUri r.plusInUri (slice mem r.uriStart r.uriEnd) := by
  unfold processRequestUri
  by_cases hflags : (r.complexUri || r.quotedUri) = true
  · rw [if_pos hflags]
  · rw [if_neg hflags]
    simp only [Bool.or_eq_true, not_or, Bool.not_eq_true] at hflags
    obtain ⟨hcopies, hhash⟩ := h.target.plain hflags.1 hflags.2
    obtain ⟨s, hnext, hstate, hout, hext, hquoted, hplus⟩ := hcopies mergeSlashes r.plusInUri
    have hexten : s.uriExt.elim [] (s.out.drop ·) = r.uriExt.elim [] (slice mem · r.pathEnd) := by
      rw [hext, hout]
      cases s.uriExt with
      | none => rfl
      | some start => exact slice_drop mem _ _ start
    rw [hflags.2, parseComplexUri, ← hexten]
    unfold RequestLine.pathEnd
    cases hargs : r.argsStart with
    | none =>
        rw [hargs, Option.elim_none] at hnext hout
        have hloop := complexLoop_append hnext []
        rw [List.append_nil, complexLoop] at hloop
        rw [hloop]
        simp only [Option.map_some, ComplexUri.fields, hout, hquoted, hplus, Bool.or_self,
          Option.elim_none]
    | some a =>
        obtain ⟨hlow, hhigh, hquestion, -⟩ := h.target.args a hargs
        rw [hargs, Option.elim_some] at hnext hout
        have hsplit : slice mem r.uriStart r.uriEnd
            = slice mem r.uriStart (a - 1) ++ question :: slice mem a r.uriEnd := by
          rw [← slice_append mem (show r.uriStart ≤ a - 1 by omega) (show a - 1 ≤ r.uriEnd by omega),
            ← slice_append mem (show a - 1 ≤ a by omega) hhigh]
          conv_lhs => rw [show slice mem (a - 1) a = slice mem (a - 1) (a - 1 + 1) by
            rw [Nat.sub_add_cancel (by omega)]]
          rw [slice_succ mem (le_refl _), slice_self, hquestion]
          rfl
        have hend : complexByte mergeSlashes s question = .args s := by
          have husual : usual question = false := by decide
          rcases hstate with hs | hs <;>
            simp [complexByte, plainByte, otherByte, hs, husual, show question ≠ slash by decide,
              show question ≠ dot by decide, show question ≠ percent by decide]
        have htake : (slice mem a r.uriEnd).takeWhile (· != hash) = slice mem a r.uriEnd := by
          rw [List.takeWhile_eq_self_iff]
          intro ch hch
          obtain ⟨k, hk, hlt, rfl⟩ := mem_slice.mp hch
          simpa using hhash a hargs k hk hlt
        rw [hsplit, complexLoop_append hnext, complexLoop, hend]
        simp only [Option.map_some, htake, ComplexUri.fields, hout, hquoted, hplus, Bool.or_self,
          Option.elim_some]

/-! ## How much the pass writes -/

/-- A character of the path lengthens the text by one at most, and the others end
the pass. -/
def StepFits (out : Bytes) (ch : UInt8) : ComplexStep → Prop
  | .next t => t.out.length ≤ out.length + 1 ∧ inPath ch = true
  | .args t | .done t => t.out = out
  | .invalid => True

theorem dotDotBack_length {out out' : Bytes} (h : dotDotBack out = some out') :
    out'.length ≤ out.length := by
  have hback : ∀ u, backToSlash out u = some out' → out'.length ≤ out.length := by
    intro u
    induction u with
    | zero =>
        intro h
        rw [backToSlash] at h
        split at h
        · obtain rfl := Option.some.inj h
          exact List.length_take_le' ..
        · cases h
    | succ u ih =>
        intro h
        rw [backToSlash] at h
        split at h
        · obtain rfl := Option.some.inj h
          exact List.length_take_le' ..
        · exact ih h
  unfold dotDotBack at h
  split at h
  · cases h
  · exact hback _ h

theorem put_fits (s : ComplexUri) {ch : UInt8} (hch : inPath ch = true) (state : UriState) :
    StepFits s.out ch (.next (s.put ch state)) :=
  ⟨by simp [ComplexUri.put], hch⟩

theorem otherByte_fits (s : ComplexUri) (ch : UInt8) : StepFits s.out ch (otherByte s ch) := by
  unfold otherByte
  split_ifs with hpercent hquestion hhash hplus
  · exact ⟨Nat.le_succ _, by rw [hpercent]; rfl⟩
  · rfl
  · rfl
  · exact put_fits s (by rw [hplus]; rfl) .usual
  · exact put_fits s (by simp [inPath, hquestion, hhash]) .usual

theorem plainByte_fits (mergeSlashes : Bool) (s : ComplexUri) (ch : UInt8) :
    StepFits s.out ch (plainByte mergeSlashes s ch) := by
  unfold plainByte
  split
  case isTrue husual =>
    obtain ⟨⟨-, -, -, hquestion, hhash⟩, -⟩ := usual_ordinary husual
    exact put_fits s (by simp [inPath, hquestion, hhash]) .usual
  case isFalse =>
    split
    case h_1 =>
      split_ifs with hslash hdot
      · exact put_fits s (by rw [hslash]; rfl) .slash
      · exact put_fits s (by rw [hdot]; rfl) .usual
      · exact otherByte_fits s ch
    case h_2 =>
      split_ifs with hslash hmerge hdot
      · exact ⟨Nat.le_succ _, by rw [hslash]; rfl⟩
      · exact put_fits s (by rw [hslash]; rfl) .slash
      · exact put_fits s (by rw [hdot]; rfl) .dot
      · exact otherByte_fits s ch
    case h_3 =>
      split_ifs with hslash hdot
      · exact ⟨by simp only [List.length_dropLast]; omega, by rw [hslash]; rfl⟩
      · exact put_fits s (by rw [hdot]; rfl) .dotDot
      · exact otherByte_fits s ch
    case h_4 =>
      split_ifs with hslash
      · split
        case h_1 out hback =>
          exact ⟨Nat.le_succ_of_le (dotDotBack_length hback), by rw [hslash]; rfl⟩
        case h_2 => trivial
      · exact otherByte_fits s ch
    all_goals trivial

/-- A hexadecimal digit belongs to the path. -/
theorem inPath_of_digit {ch : UInt8}
    (h : (48 ≤ ch ∧ ch ≤ 57) ∨ (97 ≤ (ch ||| 32) ∧ (ch ||| 32) ≤ 102)) :
    inPath ch = true := by
  by_contra hnot
  have hends : ch = question ∨ ch = hash := by
    simpa [inPath, or_iff_not_imp_left] using hnot
  rcases hends with rfl | rfl <;> revert h <;> decide

/-- **Step lemma.**  One character of the target. -/
theorem complexByte_fits (mergeSlashes : Bool) (s : ComplexUri) (ch : UInt8) :
    StepFits s.out ch (complexByte mergeSlashes s ch) := by
  -- what a decoded character does fits as well
  have hdecoded : ∀ {step : ComplexStep} {c : UInt8}, inPath ch = true → StepFits s.out c step →
      StepFits s.out ch step := by
    intro step c hch hfits
    cases step with
    | next t => exact ⟨hfits.1, hch⟩
    | args | done | invalid => exact hfits
  unfold complexByte
  split
  case h_1 =>
    split_ifs with hfigure hletter
    · exact ⟨Nat.le_succ _, inPath_of_digit (Or.inl hfigure)⟩
    · exact ⟨Nat.le_succ _, inPath_of_digit (Or.inr hletter)⟩
    · trivial
  case h_2 =>
    dsimp only
    split_ifs with hfigure _ _ hletter
    · exact ⟨by simp [ComplexUri.put], inPath_of_digit (Or.inl hfigure)⟩
    · trivial
    · exact hdecoded (inPath_of_digit (Or.inl hfigure)) (plainByte_fits mergeSlashes _ _)
    · exact ⟨by simp [ComplexUri.put], inPath_of_digit (Or.inr hletter)⟩
    · exact hdecoded (inPath_of_digit (Or.inr hletter)) (plainByte_fits mergeSlashes _ _)
    · exact hdecoded (inPath_of_digit (Or.inr hletter)) (plainByte_fits mergeSlashes _ _)
    · trivial
  case h_3 => exact plainByte_fits mergeSlashes s ch

/-- As long as the pass goes on, it has written no more than it has read, and has
read the path only. -/
theorem complexNext_fits {mergeSlashes : Bool} {s t : ComplexUri} {front : Bytes}
    (h : complexNext mergeSlashes s front = some t) :
    t.out.length ≤ s.out.length + front.length ∧ ∀ ch ∈ front, inPath ch = true := by
  induction front generalizing s with
  | nil =>
      obtain rfl := Option.some.inj h
      exact ⟨Nat.le_refl _, List.forall_mem_nil _⟩
  | cons ch front ih =>
      have hfits := complexByte_fits mergeSlashes s ch
      rw [complexNext] at h
      split at h
      case h_1 s' hbyte =>
        rw [hbyte] at hfits
        obtain ⟨hlength, hin⟩ := ih h
        refine ⟨?_, List.forall_mem_cons.mpr ⟨hfits.2, hin⟩⟩
        have := hfits.1
        rw [List.length_cons]
        omega
      case h_2 => cases h

/-- The text that the whole pass leaves is no longer than the path. -/
theorem complexLoop_fits {mergeSlashes : Bool} {s t : ComplexUri} {target args : Bytes}
    (h : complexLoop mergeSlashes s target = some (t, args)) :
    t.out.length ≤ s.out.length + (target.takeWhile inPath).length := by
  induction target generalizing s with
  | nil =>
      obtain ⟨rfl, -⟩ := Prod.mk.inj (Option.some.inj h)
      exact Nat.le_refl _
  | cons ch rest ih =>
      have hfits := complexByte_fits mergeSlashes s ch
      rw [complexLoop] at h
      split at h
      case h_1 s' hbyte =>
        rw [hbyte] at hfits
        have hlength := ih h
        have := hfits.1
        rw [List.takeWhile_cons_of_pos hfits.2, List.length_cons]
        omega
      case h_2 s' hbyte | h_3 s' hbyte =>
        rw [hbyte] at hfits
        obtain ⟨rfl, -⟩ := Prod.mk.inj (Option.some.inj h)
        rw [hfits]
        exact Nat.le_add_right _ _
      case h_4 => cases h

/-- The path of an accepted target is as long as `r->uri.len`, or shorter. -/
theorem LineAccepted.path_length {mem : Nat → UInt8} {r : RequestLine} {pos : Nat}
    (h : LineAccepted mem r pos) {front : Bytes}
    (hfront : front <+: slice mem r.uriStart r.uriEnd) (hin : ∀ ch ∈ front, inPath ch = true) :
    front.length ≤ r.pathEnd - r.uriStart := by
  have hle := hfront.length_le
  rw [slice_length] at hle
  unfold RequestLine.pathEnd
  cases hargs : r.argsStart with
  | none => exact hle
  | some a =>
      obtain ⟨hlow, hhigh, hquestion, -⟩ := h.target.args a hargs
      rw [Option.elim_some]
      by_contra hlong
      -- the question mark would be one of the characters
      have hlt : a - 1 - r.uriStart < front.length := by omega
      have hget : front[a - 1 - r.uriStart] = question := by
        rw [hfront.getElem hlt]
        simp only [slice, List.getElem_map, List.getElem_range', Nat.one_mul]
        rw [show r.uriStart + (a - 1 - r.uriStart) = a - 1 by omega, hquestion]
      have := hin _ (List.getElem_mem hlt)
      rw [hget] at this
      cases this

/-- An accepted target begins with a slash. -/
theorem LineAccepted.slice_eq {mem : Nat → UInt8} {r : RequestLine} {pos : Nat}
    (h : LineAccepted mem r pos) :
    slice mem r.uriStart r.uriEnd = slash :: slice mem (r.uriStart + 1) r.uriEnd := by
  rw [slice_cons mem h.target.lt, h.target.start]

/-- What decoding gives is no NUL, if the path has none. -/
theorem unescape_nul {atEnd : Bool} {path decoded : Bytes} (hpath : 0 ∉ path)
    (h : unescape atEnd path = some decoded) : 0 ∉ decoded := by
  induction hlen : path.length using Nat.strongRecOn generalizing path decoded with
  | _ n ih =>
  cases path with
  | nil =>
      obtain rfl := Option.some.inj h
      exact List.not_mem_nil
  | cons ch rest =>
      by_cases hpercent : ch = percent
      · subst hpercent
        match rest, hlen, hpath, h with
        | [], _, _, h =>
            cases atEnd <;> simp [unescape] at h
            exact h ▸ List.not_mem_nil
        | [hi], _, _, h =>
            rw [unescape.eq_def] at h
            simp only [if_true] at h
            split at h
            · obtain rfl := Option.some.inj h
              exact List.not_mem_nil
            · cases h
        | hi :: lo :: rest, hlen, hpath, h =>
            rw [unescape_escape] at h
            obtain ⟨c, hc, hrest⟩ := Option.bind_eq_some_iff.mp h
            obtain ⟨tail, htail, rfl⟩ := Option.map_eq_some_iff.mp hrest
            have hnul := ih rest.length (by simp only [List.length_cons] at hlen; omega)
              (fun hmem => hpath (by simp [hmem])) htail rfl
            refine fun hmem => (List.mem_cons.mp hmem).elim (fun hzero => ?_) hnul
            subst hzero
            unfold escaped at hc
            split at hc
            case h_1 d l hd hl =>
              have hd' := hexDigit_lt_sixteen hd
              have hl' := hexDigit_lt_sixteen hl
              split at hc
              · cases hc
              case isFalse hne =>
                have hsize : 16 * d + l < UInt8.size := by
                  rw [UInt8.size]
                  omega
                have := congrArg UInt8.toNat (Option.some.inj hc)
                rw [UInt8.toNat_ofNat_of_lt' hsize] at this
                exact hne this
            case h_2 => cases hc
      · rw [unescape_cons hpercent] at h
        obtain ⟨tail, htail, rfl⟩ := Option.map_eq_some_iff.mp h
        obtain ⟨hch, hrest⟩ := not_or.mp fun hmem => hpath (List.mem_cons.mpr hmem)
        have hnul := ih rest.length (by simp only [List.length_cons] at hlen; omega) hrest htail rfl
        exact fun hmem => (List.mem_cons.mp hmem).elim hch hnul

/-- What normalizing leaves has no NUL either. -/
theorem normalize_nul {mergeSlashes : Bool} {rest uri args : Bytes} (hrest : 0 ∉ rest)
    (h : normalize mergeSlashes (slash :: rest) = some (uri, args)) : 0 ∉ uri := by
  rw [normalize_walk] at h
  obtain ⟨⟨stack, cur⟩, hwalk, heq⟩ := Option.map_eq_some_iff.mp h
  obtain ⟨rfl, -⟩ := Prod.mk.inj heq
  obtain ⟨decoded, hdecoded, hwalk⟩ := Option.bind_eq_some_iff.mp hwalk
  have hnul := unescape_nul (fun hmem => hrest ((List.takeWhile_sublist _).subset hmem)) hdecoded
  obtain ⟨hstack, hcur⟩ := walk_invariant slash (closeSegment mergeSlashes)
    (P := fun stack => ∀ segment ∈ stack, 0 ∉ segment) (Q := fun cur => 0 ∉ cur)
    (fun stack cur stack' hstack hcur hclose => by
      unfold closeSegment at hclose
      grind)
    List.not_mem_nil (fun cur c hc hcur _ => by
      rw [List.mem_append, List.mem_singleton, not_or]
      exact ⟨hcur, fun hzero => hnul (hzero ▸ hc)⟩)
    (List.forall_mem_nil _) List.not_mem_nil hwalk
  simp only [text, List.mem_cons, List.mem_append, List.mem_flatMap, List.mem_reverse,
    List.not_mem_nil, or_false, not_or, not_exists, not_and]
  exact ⟨by decide, fun segment hsegment => ⟨hstack segment hsegment, by decide⟩, hcur⟩

/-! ## Accepted lines -/

/-- An accepted line has its pointers in place, however it was read. -/
theorem lineCalls_accepted {mem : Nat → UInt8} {p : Nat} {reads : List Nat} {r : RequestLine}
    {pos : Nat} (h : lineCalls mem .fresh p reads = .ok r pos) : LineAccepted mem r pos := by
  have hinv := lineLoop_inv (lineInv_fresh mem p) reads.sum
  rw [← lineCalls_eq, h] at hinv
  exact hinv.1

/-- The path of an accepted line is the normalized one. -/
theorem LineAccepted.normalize {mem : Nat → UInt8} {r : RequestLine} {pos : Nat}
    (h : LineAccepted mem r pos) (mergeSlashes : Bool) :
    (processRequestUri mem mergeSlashes r).map (fun u => (u.uri, u.args))
      = Toxic.normalize mergeSlashes (slice mem r.uriStart r.uriEnd) := by
  rw [processRequestUri_pass h, h.slice_eq, parseComplexUri_normalize]

/-- The path of an accepted line. -/
theorem LineAccepted.normal {mem : Nat → UInt8} {r : RequestLine} {pos : Nat}
    (h : LineAccepted mem r pos) (mergeSlashes : Bool) {u : RequestUri}
    (hu : processRequestUri mem mergeSlashes r = some u) :
    NormalPath mergeSlashes u.uri ∧ 0 ∉ u.uri := by
  have hnormal := h.normalize mergeSlashes
  rw [hu, Option.map_some, h.slice_eq] at hnormal
  refine ⟨normalize_normal hnormal.symm, normalize_nul (fun hmem => ?_) hnormal.symm⟩
  obtain ⟨k, hlow, hhigh, hk⟩ := mem_slice.mp hmem
  exact (h.target.clean k (Nat.le_of_succ_le hlow) hhigh).1 hk

/-- **The short way is the long one.**  For every request line that is accepted,
however it was read, the path, its extension and the arguments that
`ngx_http_process_request_uri` reads off the pointers are those that
`ngx_http_parse_complex_uri` would have written. -/
theorem processRequestUri_plain {mem : Nat → UInt8} {p : Nat} {reads : List Nat} {r : RequestLine}
    {pos : Nat} (hline : lineCalls mem .fresh p reads = .ok r pos) (mergeSlashes : Bool) :
    processRequestUri mem mergeSlashes r
      = parseComplexUri mergeSlashes r.quotedUri r.plusInUri (slice mem r.uriStart r.uriEnd) :=
  processRequestUri_pass (lineCalls_accepted hline) mergeSlashes

/-- Memory that begins with some bytes. -/
def memoryOf (bytes : Bytes) : Nat → UInt8 := fun k => bytes.getD k 0

/-- The result of some calls, if they accept the line. -/
def LineParse.accepted : LineParse → Option (RequestLine × Nat)
  | .ok r pos => some (r, pos)
  | _ => none

theorem LineParse.accepted_eq_some {result : LineParse} {r : RequestLine} {pos : Nat}
    (h : result.accepted = some (r, pos)) : result = .ok r pos := by
  cases result <;> simp_all [LineParse.accepted]

/-- A line that no flag is set for. -/
def samplePlainLine : Bytes := bytesOf "GET /a/b.php?c=d HTTP/1.1\r\n"

/-- `processRequestUri_plain` for a line that is read in three parts. -/
theorem processRequestUri_plain_sample :
    ∃ r pos, lineCalls (memoryOf samplePlainLine) .fresh 0 [5, 9, 13] = .ok r pos ∧
      r.complexUri = false ∧ r.quotedUri = false ∧
      processRequestUri (memoryOf samplePlainLine) true r
        = parseComplexUri true r.quotedUri r.plusInUri
          (slice (memoryOf samplePlainLine) r.uriStart r.uriEnd) := by
  have hline : ((lineCalls (memoryOf samplePlainLine) .fresh 0 [5, 9, 13]).accepted.map
      fun (r, _) => (r.complexUri, r.quotedUri)) = some (false, false) := by decide +kernel
  obtain ⟨⟨r, pos⟩, hresult, hflags⟩ := Option.map_eq_some_iff.mp hline
  obtain ⟨hcomplex, hquoted⟩ := Prod.mk.inj hflags
  have haccepted := LineParse.accepted_eq_some hresult
  exact ⟨r, pos, haccepted, hcomplex, hquoted, processRequestUri_plain haccepted true⟩

/-- **The path of a request.**  For every request line that is accepted, however it
was read: the path is the normalized one and the request is refused exactly when
there is none; it begins at the root, has no dot segment but for the last one,
no empty one if slashes are merged, and no NUL. -/
theorem requestUri_normal {mem : Nat → UInt8} {p : Nat} {reads : List Nat} {r : RequestLine}
    {pos : Nat} (hline : lineCalls mem .fresh p reads = .ok r pos) (mergeSlashes : Bool) :
    (processRequestUri mem mergeSlashes r).map (fun u => (u.uri, u.args))
        = normalize mergeSlashes (slice mem r.uriStart r.uriEnd) ∧
      ∀ u, processRequestUri mem mergeSlashes r = some u →
        NormalPath mergeSlashes u.uri ∧ 0 ∉ u.uri := by
  have haccepted := lineCalls_accepted hline
  exact ⟨haccepted.normalize mergeSlashes, fun u hu => haccepted.normal mergeSlashes hu⟩

/-- A line with an escaped slash and a dot segment. -/
def sampleComplexLine : Bytes := bytesOf "GET /a/b%2F.././/c?d HTTP/1.1\r\n"

/-- `requestUri_normal` for that line. -/
theorem requestUri_normal_sample :
    ∃ r pos u, lineCalls (memoryOf sampleComplexLine) .fresh 0 [31] = .ok r pos ∧
      processRequestUri (memoryOf sampleComplexLine) true r = some u ∧
      u.uri = bytesOf "/a/c" ∧ NormalPath true u.uri ∧ 0 ∉ u.uri := by
  have hline : ((lineCalls (memoryOf sampleComplexLine) .fresh 0 [31]).accepted.bind
      fun (r, _) => (processRequestUri (memoryOf sampleComplexLine) true r).map (·.uri))
      = some (bytesOf "/a/c") := by decide +kernel
  obtain ⟨⟨r, pos⟩, hresult, huri⟩ := Option.bind_eq_some_iff.mp hline
  obtain ⟨u, hu, heq⟩ := Option.map_eq_some_iff.mp huri
  have haccepted := LineParse.accepted_eq_some hresult
  exact ⟨r, pos, u, haccepted, hu, heq, (requestUri_normal haccepted true).2 u hu⟩

/-- **The buffer of the path.**  For every request line that is accepted, however it
was read, the pass has at no time written more than `r->uri.len` bytes, for which
`ngx_http_process_request_uri` has allocated `r->uri.data`. -/
theorem complexUri_fits {mem : Nat → UInt8} {p : Nat} {reads : List Nat} {r : RequestLine}
    {pos : Nat} (hline : lineCalls mem .fresh p reads = .ok r pos) (mergeSlashes : Bool) :
    (∀ front t, front <+: slice mem r.uriStart r.uriEnd →
      complexNext mergeSlashes (.start r.quotedUri r.plusInUri) front = some t →
      t.out.length ≤ r.pathEnd - r.uriStart) ∧
    ∀ u, parseComplexUri mergeSlashes r.quotedUri r.plusInUri (slice mem r.uriStart r.uriEnd)
      = some u → u.uri.length ≤ r.pathEnd - r.uriStart := by
  have haccepted := lineCalls_accepted hline
  constructor
  · intro front t hfront hnext
    obtain ⟨hlength, hin⟩ := complexNext_fits hnext
    have hpath := haccepted.path_length hfront hin
    have hstart : (ComplexUri.start r.quotedUri r.plusInUri).out.length = 0 := rfl
    omega
  · intro u hu
    obtain ⟨⟨t, args⟩, hloop, rfl⟩ := Option.map_eq_some_iff.mp hu
    have hlength := complexLoop_fits hloop
    have hpath := haccepted.path_length (List.takeWhile_prefix _)
      fun ch hch => List.mem_takeWhile_imp hch
    have hstart : (ComplexUri.start r.quotedUri r.plusInUri).out.length = 0 := rfl
    simp only [ComplexUri.fields]
    omega

/-- `complexUri_fits` for the line with the dot segment. -/
theorem complexUri_fits_sample :
    ∃ r pos u, lineCalls (memoryOf sampleComplexLine) .fresh 0 [31] = .ok r pos ∧
      parseComplexUri true r.quotedUri r.plusInUri
        (slice (memoryOf sampleComplexLine) r.uriStart r.uriEnd) = some u ∧
      u.uri.length ≤ r.pathEnd - r.uriStart := by
  have hline : ((lineCalls (memoryOf sampleComplexLine) .fresh 0 [31]).accepted.bind
      fun (r, _) => (parseComplexUri true r.quotedUri r.plusInUri
        (slice (memoryOf sampleComplexLine) r.uriStart r.uriEnd)).map (·.uri))
      = some (bytesOf "/a/c") := by decide +kernel
  obtain ⟨⟨r, pos⟩, hresult, huri⟩ := Option.bind_eq_some_iff.mp hline
  obtain ⟨u, hu, -⟩ := Option.map_eq_some_iff.mp huri
  have haccepted := LineParse.accepted_eq_some hresult
  exact ⟨r, pos, u, haccepted, hu, (complexUri_fits haccepted true).2 u hu⟩

end Toxic
