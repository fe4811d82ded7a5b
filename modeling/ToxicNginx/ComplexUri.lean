import ToxicNginx.ChunkedBody
import ToxicNginx.PathSegments

/-!
# The normalized path of a request

`ngx_http_parse_complex_uri` decodes a request target and removes its dot segments
in one pass: it writes to `r->uri.data` with the pointer `u`, and takes back what
it has written when a segment turns out to be `.` or `..`.

* `plainByte`, `complexByte`, `complexLoop`, `parseComplexUri` — the function;
* `unescape`, `closeSegment`, `normalize` — what it is for: the path is decoded,
  split at its slashes, and resolved on a stack;
* `Resolved`, `plainByte_resolved`, `complexLoop_path` — the pass keeps to the stack;
* `parseComplexUri_normalize` — the function does what `normalize` says.
-/

namespace Toxic

open PathSegments

/-- `/`. -/
abbrev slash : UInt8 := 47

/-- `.`. -/
abbrev dot : UInt8 := 46

/-- `%`. -/
abbrev percent : UInt8 := 37

/-- `?`. -/
abbrev question : UInt8 := 63

/-- `#`. -/
abbrev hash : UInt8 := 35

/-- `+`. -/
abbrev plus : UInt8 := 43

/-- The words of `usual`, with a bit for each character. -/
def usualWords : List UInt32 :=
  [0xffffdbfe, 0x7fff37d6, 0xffffffff, 0xffffffff, 0xffffffff, 0xffffffff, 0xffffffff, 0xffffffff]

/-- `usual[ch >> 5] & (1 << (ch & 0x1f))`. -/
def usual (ch : UInt8) : Bool :=
  usualWords.getD (ch >>> 5).toNat 0 &&& (1 <<< (ch &&& 0x1f).toUInt32) != 0

/-- The states of `ngx_http_parse_complex_uri`. -/
inductive UriState
  | usual
  | slash
  | dot
  | dotDot
  | quoted
  | quotedSecond
  deriving DecidableEq, Repr

/-- The variables of `ngx_http_parse_complex_uri`, with the fields of `r` that it
sets. -/
structure ComplexUri where
  state : UriState
  quotedState : UriState
  decoded : UInt8
  /-- The bytes between `r->uri.data` and `u`. -/
  out : Bytes
  /-- `r->uri_ext`, as an offset in `r->uri.data`. -/
  uriExt : Option Nat
  quotedUri : Bool
  plusInUri : Bool
  deriving DecidableEq, Repr

/-- What one character does: the loop goes on, ends with `goto args` or
`goto done`, or the request is invalid. -/
inductive ComplexStep
  | next (s : ComplexUri)
  | args (s : ComplexUri)
  | done (s : ComplexUri)
  | invalid
  deriving DecidableEq, Repr

/-- `*u++ = ch`, with the next state. -/
def ComplexUri.put (s : ComplexUri) (ch : UInt8) (state : UriState) : ComplexUri :=
  { s with out := s.out ++ [ch], state := state }

/-- The characters that every state treats alike. -/
def otherByte (s : ComplexUri) (ch : UInt8) : ComplexStep :=
  if ch = percent then .next { s with quotedState := s.state, state := .quoted }
  else if ch = question then .args s
  else if ch = hash then .done s
  else if ch = plus then .next { s.put ch .usual with plusInUri := true }
  else .next (s.put ch .usual)

/-- The search of `sw_dot_dot` from `u` on: the bytes up to the slash it finds. -/
def backToSlash (out : Bytes) : Nat → Option Bytes
  | 0 => if out[0]? = some slash then some (out.take 1) else none
  | u + 1 => if out[u + 1]? = some slash then some (out.take (u + 2)) else backToSlash out u

/-- `u -= 5` and the search. -/
def dotDotBack (out : Bytes) : Option Bytes :=
  if out.length < 5 then none else backToSlash out (out.length - 5)

/-- The states `sw_usual`, `sw_slash`, `sw_dot` and `sw_dot_dot`. -/
def plainByte (mergeSlashes : Bool) (s : ComplexUri) (ch : UInt8) : ComplexStep :=
  if usual ch then .next (s.put ch .usual)
  else
    match s.state with
    | .usual =>
        if ch = slash then .next { s.put ch .slash with uriExt := none }
        else if ch = dot then .next { s.put ch .usual with uriExt := some (s.out.length + 1) }
        else otherByte s ch
    | .slash =>
        if ch = slash then .next (if mergeSlashes then s else s.put ch .slash)
        else if ch = dot then .next (s.put ch .dot)
        else otherByte s ch
    | .dot =>
        if ch = slash then .next { s with state := .slash, out := s.out.dropLast }
        else if ch = dot then .next (s.put ch .dotDot)
        else otherByte s ch
    | .dotDot =>
        if ch = slash then
          match dotDotBack s.out with
          | some out => .next { s with state := .slash, out := out }
          | none => .invalid
        else otherByte s ch
    | .quoted | .quotedSecond => .invalid

/-- The body of the loop.  A decoded character goes to the state in front of the
`%`, unless it is `%`, `#` or `?`, which stand for themselves. -/
def complexByte (mergeSlashes : Bool) (s : ComplexUri) (ch : UInt8) : ComplexStep :=
  match s.state with
  | .quoted =>
      let s' := { s with quotedUri := true, state := .quotedSecond }
      if 48 ≤ ch ∧ ch ≤ 57 then .next { s' with decoded := ch - 48 }
      else if 97 ≤ (ch ||| 32) ∧ (ch ||| 32) ≤ 102 then
        .next { s' with decoded := (ch ||| 32) - 97 + 10 }
      else .invalid
  | .quotedSecond =>
      let back := { s with state := s.quotedState }
      if 48 ≤ ch ∧ ch ≤ 57 then
        let ch' := (s.decoded <<< 4) + ch - 48
        if ch' = percent ∨ ch' = hash then .next (s.put ch' .usual)
        else if ch' = 0 then .invalid
        else plainByte mergeSlashes back ch'
      else if 97 ≤ (ch ||| 32) ∧ (ch ||| 32) ≤ 102 then
        let ch' := (s.decoded <<< 4) + (ch ||| 32) - 97 + 10
        if ch' = question then .next (s.put ch' .usual)
        else if ch' = plus then plainByte mergeSlashes { back with plusInUri := true } ch'
        else plainByte mergeSlashes back ch'
      else .invalid
  | _ => plainByte mergeSlashes s ch

/-- The loop over the bytes from `r->uri_start` to `r->uri_end`, and the one
behind `args` : the end of the pass, and `r->args`. -/
def complexLoop (mergeSlashes : Bool) (s : ComplexUri) : Bytes → Option (ComplexUri × Bytes)
  | [] => some (s, [])
  | ch :: rest =>
      match complexByte mergeSlashes s ch with
      | .next s' => complexLoop mergeSlashes s' rest
      | .args s' => some (s', rest.takeWhile (· != hash))
      | .done s' => some (s', [])
      | .invalid => none

/-- What `ngx_http_process_request_uri` leaves in `r`. -/
structure RequestUri where
  uri : Bytes
  exten : Bytes
  args : Bytes
  quotedUri : Bool
  plusInUri : Bool
  deriving DecidableEq, Repr

/-- The fields that the end of the pass sets. -/
def ComplexUri.fields (s : ComplexUri) (args : Bytes) : RequestUri where
  uri := s.out
  exten := s.uriExt.elim [] (s.out.drop ·)
  args := args
  quotedUri := s.quotedUri
  plusInUri := s.plusInUri

/-- The variables at the start. -/
def ComplexUri.start (quotedUri plusInUri : Bool) : ComplexUri where
  state := .usual
  quotedState := .usual
  decoded := 0
  out := []
  uriExt := none
  quotedUri := quotedUri
  plusInUri := plusInUri

/-- `ngx_http_parse_complex_uri` on the bytes of the target, with the flags of `r`. -/
def parseComplexUri (mergeSlashes quotedUri plusInUri : Bool) (target : Bytes) :
    Option RequestUri :=
  (complexLoop mergeSlashes (.start quotedUri plusInUri) target).map fun (s, args) => s.fields args

/-! ## What the function is for -/

/-- The character of an escape; NUL is none. -/
def escaped (hi lo : UInt8) : Option UInt8 :=
  match hexDigit hi, hexDigit lo with
  | some h, some l => if 16 * h + l = 0 then none else some (UInt8.ofNat (16 * h + l))
  | _, _ => none

/-- A path without its escapes.  The end of the target may cut an escape off, and
drops it. -/
def unescape (atEnd : Bool) : Bytes → Option Bytes
  | [] => some []
  | ch :: rest =>
      if ch = percent then
        match rest with
        | hi :: lo :: rest => (escaped hi lo).bind fun ch => (unescape atEnd rest).map (ch :: ·)
        | [hi] => if atEnd && (hexDigit hi).isSome then some [] else none
        | [] => if atEnd then some [] else none
      else (unescape atEnd rest).map (ch :: ·)

/-- A character that begins no escape. -/
theorem unescape_cons {ch : UInt8} (hch : ch ≠ percent) (atEnd : Bool) (rest : Bytes) :
    unescape atEnd (ch :: rest) = (unescape atEnd rest).map (ch :: ·) := by
  rw [unescape.eq_def]
  simp only [if_neg hch]

/-- A whole escape. -/
theorem unescape_escape (atEnd : Bool) (hi lo : UInt8) (rest : Bytes) :
    unescape atEnd (percent :: hi :: lo :: rest)
      = (escaped hi lo).bind fun ch => (unescape atEnd rest).map (ch :: ·) := by
  rw [unescape.eq_def]
  simp only [if_true]

/-- A slash behind a segment: empty segments are dropped or kept, `.` is nothing,
and `..` takes the segment in front of it away.  It takes an empty one away only
together with the one in front of that. -/
def closeSegment (mergeSlashes : Bool) (stack : List Bytes) (segment : Bytes) :
    Option (List Bytes) :=
  if segment = [] then some (if mergeSlashes then stack else [] :: stack)
  else if segment = [dot] then some stack
  else if segment = [dot, dot] then
    match stack with
    | [] | [[]] => none
    | [] :: _ :: below => some below
    | _ :: below => some below
  else some (segment :: stack)

/-- A character of the path. -/
def inPath (ch : UInt8) : Bool := ch != question && ch != hash

/-- The arguments behind a path: between `?` and `#`. -/
def argsOf : Bytes → Bytes
  | [] => []
  | ch :: rest => if ch = question then rest.takeWhile (· != hash) else []

/-- The path of a target and its arguments: the path is decoded, split at its
slashes, and its segments but the last are closed one after the other. -/
def normalize (mergeSlashes : Bool) (target : Bytes) : Option (Bytes × Bytes) :=
  let tail := target.dropWhile inPath
  (unescape tail.isEmpty (target.takeWhile inPath)).bind fun decoded =>
    let segments := (decoded.splitOn slash).tail
    (segments.dropLast.foldlM (closeSegment mergeSlashes) []).map fun stack =>
      (text slash stack (segments.getLastD []), argsOf tail)

/-! ## The search for a slash -/

/-- The search stops at the last slash. -/
theorem backToSlash_eq (out : Bytes) (u : Nat) :
    backToSlash out u = uptoLast slash (out.take (u + 1)) := by
  induction u with
  | zero =>
      cases out with
      | nil => rfl
      | cons ch out =>
          by_cases hch : ch = slash
          · simp [backToSlash, hch, uptoLast]
          · simp [backToSlash, hch, uptoLast]
  | succ u ih =>
      rw [backToSlash]
      by_cases hu : u + 1 < out.length
      · rw [List.take_succ_eq_append_getElem hu, List.getElem?_eq_getElem hu]
        by_cases hch : out[u + 1] = slash
        · rw [if_pos (by rw [hch]), hch, uptoLast_concat_sep, ← hch,
            ← List.take_succ_eq_append_getElem hu]
        · rw [if_neg (by simpa using hch), ih, uptoLast_concat_of_ne hch]
      · rw [List.getElem?_eq_none (by omega), if_neg (by simp), ih,
          List.take_of_length_le (by omega), List.take_of_length_le (by omega)]

/-- Five characters back is in front of a slash and the character before it. -/
theorem dotDotBack_text (stack : List Bytes) {cur : Bytes} (hcur : slash ∉ cur) (ch : UInt8) :
    dotDotBack (text slash stack cur ++ [ch, slash, dot, dot]) = some (text slash stack []) := by
  have hpos := List.length_pos_iff.mpr (text_ne_nil slash stack cur)
  have hlength : (text slash stack cur ++ [ch, slash, dot, dot]).length
      = (text slash stack cur).length + 4 := List.length_append
  rw [dotDotBack, hlength, if_neg (by omega), backToSlash_eq,
    show (text slash stack cur).length + 4 - 5 + 1 = (text slash stack cur).length by omega,
    List.take_left, uptoLast_text stack hcur]

/-- **`..` in the text and on the stack.** -/
theorem dotDotBack_eq (mergeSlashes : Bool) {stack : List Bytes}
    (hstack : ∀ segment ∈ stack, slash ∉ segment) :
    dotDotBack (text slash stack [dot, dot])
      = (closeSegment mergeSlashes stack [dot, dot]).map (text slash · []) := by
  cases stack with
  | nil => rfl
  | cons name below =>
      rcases List.eq_nil_or_concat' name with rfl | ⟨front, last, rfl⟩
      · cases below with
        | nil => rfl
        | cons name below =>
            have hback := dotDotBack_text below (hstack name (by simp)) slash
            rw [text_append] at hback
            rw [text_cons, text_cons, List.nil_append, hback]
            rfl
      · have hfront : slash ∉ front := fun h => hstack (front ++ [last]) (by simp) (by simp [h])
        have hback := dotDotBack_text below hfront last
        rw [text_append] at hback
        rw [text_cons, List.append_assoc, List.singleton_append, hback]
        simp [closeSegment]

/-! ## The pass keeps to the stack -/

/-- The state in which a segment is open. -/
def segmentState (cur : Bytes) : UriState :=
  if cur = [] then .slash
  else if cur = [dot] then .dot
  else if cur = [dot, dot] then .dotDot
  else .usual

/-- What the variables say of a stack and an open segment. -/
structure Resolved (s : ComplexUri) (stack : List Bytes) (cur : Bytes) : Prop where
  out : s.out = text slash stack cur
  state : s.state = segmentState cur
  stack : ∀ segment ∈ stack, slash ∉ segment
  cur : slash ∉ cur

/-- What a character that is no slash does to the state. -/
theorem segmentState_concat (cur : Bytes) (ch : UInt8) :
    segmentState (cur ++ [ch]) =
      if ch = dot then
        match segmentState cur with
        | .slash => .dot
        | .dot => .dotDot
        | _ => .usual
      else .usual := by
  rcases cur with _ | ⟨a, _ | ⟨b, _ | ⟨c, cur⟩⟩⟩ <;> grind [segmentState]

/-- The characters that are not `usual`. -/
theorem usual_eq_false_iff (ch : UInt8) :
    usual ch = false ↔ ch ∈ ([0, 10, 13, 32, hash, percent, plus, dot, slash, question] : Bytes) := by
  have hall : ∀ n : Fin 256, usual (UInt8.ofNat n) = false ↔
      UInt8.ofNat n ∈ ([0, 10, 13, 32, hash, percent, plus, dot, slash, question] : Bytes) := by
    decide +kernel
  have := hall ⟨ch.toNat, ch.toNat_lt⟩
  simpa using this

/-- A segment is open in one of the four plain states. -/
theorem segmentState_plain (cur : Bytes) :
    segmentState cur ≠ .quoted ∧ segmentState cur ≠ .quotedSecond := by
  unfold segmentState
  split_ifs <;> simp

/-- A character that lengthens the open segment. -/
theorem Resolved.put {s : ComplexUri} {stack : List Bytes} {cur : Bytes} (h : Resolved s stack cur)
    {ch : UInt8} (hch : ch ≠ slash) {t : ComplexUri} (hout : t.out = s.out ++ [ch])
    (hstate : t.state = segmentState (cur ++ [ch])) : Resolved t stack (cur ++ [ch]) := by
  refine ⟨by rw [hout, h.out, text_append], hstate, h.stack, ?_⟩
  rw [List.mem_append, List.mem_singleton]
  exact not_or.mpr ⟨h.cur, Ne.symm hch⟩

/-- `%`, `?` and `#` aside, the characters that every state treats alike lengthen
the open segment. -/
theorem otherByte_next {s : ComplexUri} {ch : UInt8} (hpercent : ch ≠ percent)
    (hquestion : ch ≠ question) (hhash : ch ≠ hash) :
    ∃ t, otherByte s ch = .next t ∧ t.out = s.out ++ [ch] ∧ t.state = .usual := by
  unfold otherByte
  rw [if_neg hpercent, if_neg hquestion, if_neg hhash]
  split
  · exact ⟨_, rfl, rfl, rfl⟩
  · exact ⟨_, rfl, rfl, rfl⟩

/-- `..` leaves segments that were there. -/
theorem closeSegment_dotDot_subset {mergeSlashes : Bool} {stack stack' : List Bytes}
    (h : closeSegment mergeSlashes stack [dot, dot] = some stack') : stack' ⊆ stack := by
  intro segment hsegment
  unfold closeSegment at h
  grind

/-- A character without a meaning of its own lengthens the open segment. -/
theorem plainByte_open {mergeSlashes : Bool} {s : ComplexUri} {stack : List Bytes} {cur : Bytes}
    (h : Resolved s stack cur) {ch : UInt8} (hslash : ch ≠ slash) (hpercent : ch ≠ percent)
    (hquestion : ch ≠ question) (hhash : ch ≠ hash) :
    ∃ t, plainByte mergeSlashes s ch = .next t ∧ Resolved t stack (cur ++ [ch]) := by
  have hnext := segmentState_concat cur ch
  unfold plainByte
  by_cases husual : usual ch = true
  · have hdot : ch ≠ dot := by
      rintro rfl
      exact absurd husual (by decide)
    rw [if_pos husual]
    rw [if_neg hdot] at hnext
    exact ⟨_, rfl, h.put hslash rfl hnext.symm⟩
  · rw [if_neg husual]
    obtain ⟨t, hother, hout, hstate⟩ := otherByte_next (s := s) hpercent hquestion hhash
    by_cases hdot : ch = dot
    · -- a dot goes from the empty segment to `.`, to `..`, and to a usual one
      rw [if_pos hdot, ← h.state] at hnext
      cases hs : s.state <;> rw [hs] at hnext <;> simp only [if_neg hslash, if_pos hdot]
      case usual | slash | dot => exact ⟨_, rfl, h.put hslash rfl hnext.symm⟩
      case dotDot => exact ⟨t, hother, h.put hslash hout (hstate.trans hnext.symm)⟩
      case quoted => exact absurd (h.state.symm.trans hs) (segmentState_plain cur).1
      case quotedSecond => exact absurd (h.state.symm.trans hs) (segmentState_plain cur).2
    · rw [if_neg hdot] at hnext
      have ht : Resolved t stack (cur ++ [ch]) := h.put hslash hout (hstate.trans hnext.symm)
      cases hs : s.state <;> simp only [if_neg hslash, if_neg hdot]
      case usual | slash | dot | dotDot => exact ⟨t, hother, ht⟩
      case quoted => exact absurd (h.state.symm.trans hs) (segmentState_plain cur).1
      case quotedSecond => exact absurd (h.state.symm.trans hs) (segmentState_plain cur).2

/-- A slash closes the open segment, or cannot. -/
theorem plainByte_slash (mergeSlashes : Bool) {s : ComplexUri} {stack : List Bytes} {cur : Bytes}
    (h : Resolved s stack cur) :
    match closeSegment mergeSlashes stack cur with
    | none => plainByte mergeSlashes s slash = .invalid
    | some stack' => ∃ t, plainByte mergeSlashes s slash = .next t ∧ Resolved t stack' [] := by
  have husual : usual slash = false := by decide
  have hstate := h.state
  unfold plainByte
  rw [if_neg (by rw [husual]; exact Bool.false_ne_true)]
  by_cases hempty : cur = []
  · -- an empty segment is dropped or kept
    subst hempty
    simp only [show s.state = .slash from hstate, if_true, closeSegment]
    refine ⟨_, rfl, ?_⟩
    cases mergeSlashes with
    | true => exact h
    | false =>
        refine ⟨?_, rfl, ?_, List.not_mem_nil⟩
        · simp [ComplexUri.put, h.out, text_cons]
        · simpa using h.stack
  by_cases hdot : cur = [dot]
  · subst hdot
    simp only [show s.state = .dot from hstate, if_true, closeSegment, hempty, if_false]
    refine ⟨_, rfl, ?_, rfl, h.stack, List.not_mem_nil⟩
    rw [h.out, ← List.nil_append [dot], ← text_append, List.dropLast_concat]
  by_cases hdotDot : cur = [dot, dot]
  · subst hdotDot
    have hback := dotDotBack_eq mergeSlashes h.stack
    simp only [show s.state = .dotDot from hstate, if_true, h.out, hback]
    cases hclose : closeSegment mergeSlashes stack [dot, dot] with
    | none => rfl
    | some stack' =>
        refine ⟨_, rfl, rfl, rfl, fun segment hsegment => ?_, List.not_mem_nil⟩
        exact h.stack segment (closeSegment_dotDot_subset hclose hsegment)
  · have husualState : s.state = .usual := by
      rw [hstate, segmentState, if_neg hempty, if_neg hdot, if_neg hdotDot]
    simp only [husualState, if_true, closeSegment, hempty, hdot, hdotDot, if_false]
    refine ⟨_, rfl, ?_, rfl, ?_, List.not_mem_nil⟩
    · simp [ComplexUri.put, h.out, text_cons]
    · simpa using ⟨h.cur, h.stack⟩

/-! ## Escapes -/

/-- A hexadecimal digit is a figure or a letter. -/
theorem hexDigit_eq_some {ch : UInt8} {d : Nat} (h : hexDigit ch = some d) :
    ((48 ≤ ch ∧ ch ≤ 57) ∧ d < 10 ∧ ch = UInt8.ofNat (48 + d)) ∨
    (¬(48 ≤ ch ∧ ch ≤ 57) ∧ (97 ≤ (ch ||| 32) ∧ (ch ||| 32) ≤ 102) ∧ 10 ≤ d ∧ d < 16 ∧
      (ch ||| 32) = UInt8.ofNat (87 + d)) := by
  unfold hexDigit at h
  split at h
  case isTrue hfigure =>
    left
    obtain rfl := Option.some.inj h
    have hlow := UInt8.le_iff_toNat_le.mp hfigure.1
    have hhigh := UInt8.le_iff_toNat_le.mp hfigure.2
    simp only [UInt8.reduceToNat] at hlow hhigh
    refine ⟨hfigure, by omega, ?_⟩
    rw [show 48 + (ch.toNat - 48) = ch.toNat by omega, UInt8.ofNat_toNat]
  case isFalse hfigure =>
    right
    split at h
    case isTrue hletter =>
      obtain rfl := Option.some.inj h
      have hlow := UInt8.le_iff_toNat_le.mp hletter.1
      have hhigh := UInt8.le_iff_toNat_le.mp hletter.2
      simp only [UInt8.reduceToNat] at hlow hhigh
      refine ⟨hfigure, hletter, by omega, by omega, ?_⟩
      rw [show 87 + ((ch ||| 32).toNat - 97 + 10) = (ch ||| 32).toNat by omega, UInt8.ofNat_toNat]
    case isFalse => cases h

/-- What is no digit is neither a figure nor a letter. -/
theorem hexDigit_eq_none {ch : UInt8} (h : hexDigit ch = none) :
    ¬(48 ≤ ch ∧ ch ≤ 57) ∧ ¬(97 ≤ (ch ||| 32) ∧ (ch ||| 32) ≤ 102) := by
  unfold hexDigit at h
  split at h
  · cases h
  case isFalse hfigure =>
    split at h
    · cases h
    case isFalse hletter => exact ⟨hfigure, hletter⟩

/-- The first digit of an escape. -/
theorem complexByte_quoted {mergeSlashes : Bool} {s : ComplexUri} (hs : s.state = .quoted)
    (ch : UInt8) :
    complexByte mergeSlashes s ch =
      match hexDigit ch with
      | none => .invalid
      | some d => .next { s with
          quotedUri := true, state := .quotedSecond, decoded := UInt8.ofNat d } := by
  simp only [complexByte, hs]
  cases hd : hexDigit ch with
  | none =>
      obtain ⟨hfigure, hletter⟩ := hexDigit_eq_none hd
      rw [if_neg hfigure, if_neg hletter]
  | some d =>
      rcases hexDigit_eq_some hd with ⟨hfigure, hlt, hch⟩ | ⟨hfigure, hletter, hge, hlt, hch⟩
      · rw [if_pos hfigure]
        have hvalue : ∀ d : Fin 10, UInt8.ofNat (48 + d) - 48 = UInt8.ofNat d := by decide
        rw [hch, hvalue ⟨d, hlt⟩]
      · rw [if_neg hfigure, if_pos hletter]
        have hvalue : ∀ d : Fin 6, UInt8.ofNat (87 + (10 + d)) - 97 + 10 = UInt8.ofNat (10 + d) := by
          decide
        have := hvalue ⟨d - 10, by omega⟩
        simp only [show 10 + (d - 10) = d by omega] at this
        rw [hch, this]

/-- The second digit, by the character that the two are. -/
theorem complexByte_quotedSecond {mergeSlashes : Bool} {s : ComplexUri}
    (hs : s.state = .quotedSecond) {h : Nat} (hh : h < 16) (hdecoded : s.decoded = UInt8.ofNat h)
    (ch : UInt8) :
    complexByte mergeSlashes s ch =
      match hexDigit ch with
      | none => .invalid
      | some l =>
          let c := UInt8.ofNat (16 * h + l)
          if 16 * h + l = 0 then .invalid
          else if c = percent ∨ c = hash ∨ c = question then .next (s.put c .usual)
          else plainByte mergeSlashes
            { s with state := s.quotedState, plusInUri := s.plusInUri || decide (c = plus) } c := by
  simp only [complexByte, hs, hdecoded]
  cases hl : hexDigit ch with
  | none =>
      obtain ⟨hfigure, hletter⟩ := hexDigit_eq_none hl
      rw [if_neg hfigure, if_neg hletter]
  | some l =>
      rcases hexDigit_eq_some hl with ⟨hfigure, hlt, hch⟩ | ⟨hfigure, hletter, hge, hlt, hch⟩
      · rw [if_pos hfigure]
        have hvalue : ∀ h : Fin 16, ∀ l : Fin 10,
            ((UInt8.ofNat h <<< 4) + UInt8.ofNat (48 + l) - 48 = UInt8.ofNat (16 * h + l)) ∧
            UInt8.ofNat (16 * h + l) ≠ question ∧ UInt8.ofNat (16 * h + l) ≠ plus ∧
            (UInt8.ofNat (16 * h + l) = 0 ↔ 16 * h.val + l.val = 0) := by decide +kernel
        obtain ⟨hc, hquestion, hplus, hzero⟩ := hvalue ⟨h, hh⟩ ⟨l, hlt⟩
        simp only at hc hquestion hplus hzero
        simp only [hch, hc, hquestion, hplus, or_false, decide_false, Bool.or_false]
        by_cases hnul : 16 * h + l = 0
        · rw [if_pos hnul, if_pos (hzero.mpr hnul), if_neg]
          rw [hzero.mpr hnul]
          decide
        · rw [if_neg hnul, if_neg (fun hz => hnul (hzero.mp hz))]
      · rw [if_neg hfigure, if_pos hletter]
        have hvalue : ∀ h : Fin 16, ∀ l : Fin 6,
            ((UInt8.ofNat h <<< 4) + UInt8.ofNat (87 + (10 + l)) - 97 + 10
              = UInt8.ofNat (16 * h + (10 + l))) ∧
            UInt8.ofNat (16 * h + (10 + l)) ≠ percent ∧ UInt8.ofNat (16 * h + (10 + l)) ≠ hash := by
          decide +kernel
        obtain ⟨hc, hpercent, hhash⟩ := hvalue ⟨h, hh⟩ ⟨l - 10, by omega⟩
        simp only [show 10 + (l - 10) = l by omega] at hc hpercent hhash
        simp only [hch, hc, hpercent, hhash, false_or]
        rw [if_neg (show ¬ 16 * h + l = 0 by omega)]
        by_cases hplus : UInt8.ofNat (16 * h + l) = plus
        · rw [if_pos hplus, decide_eq_true hplus, Bool.or_true]
        · rw [if_neg hplus, decide_eq_false hplus, Bool.or_false]

/-- **Step lemma.**  A character of the path that no `%` begins: the pass does on
the text what it means on the stack. -/
theorem plainByte_resolved (mergeSlashes : Bool) {s : ComplexUri} {stack : List Bytes} {cur : Bytes}
    (h : Resolved s stack cur) {ch : UInt8} (hpercent : ch ≠ percent) (hquestion : ch ≠ question)
    (hhash : ch ≠ hash) :
    match walkStep slash (closeSegment mergeSlashes) (stack, cur) ch with
    | none => plainByte mergeSlashes s ch = .invalid
    | some (stack', cur') => ∃ t, plainByte mergeSlashes s ch = .next t ∧ Resolved t stack' cur' := by
  unfold walkStep
  by_cases hslash : ch = slash
  · subst hslash
    have hclosed := plainByte_slash mergeSlashes h
    rw [if_pos rfl]
    cases hclose : closeSegment mergeSlashes stack cur with
    | none =>
        rw [hclose] at hclosed
        exact hclosed
    | some stack' =>
        rw [hclose] at hclosed
        exact hclosed
  · rw [if_neg hslash]
    exact plainByte_open h hslash hpercent hquestion hhash

/-- A pass in a plain state treats a character as it stands. -/
theorem Resolved.complexByte_eq {s : ComplexUri} {stack : List Bytes} {cur : Bytes}
    (h : Resolved s stack cur) (mergeSlashes : Bool) (ch : UInt8) :
    complexByte mergeSlashes s ch = plainByte mergeSlashes s ch := by
  have hplain := segmentState_plain cur
  rw [← h.state] at hplain
  unfold complexByte
  split
  case h_1 hs => exact absurd hs hplain.1
  case h_2 hs => exact absurd hs hplain.2
  case h_3 => rfl

/-- `%`, `?` and `#` do the same in every plain state. -/
theorem Resolved.plainByte_other {s : ComplexUri} {stack : List Bytes} {cur : Bytes}
    (h : Resolved s stack cur) (mergeSlashes : Bool) {ch : UInt8} (husual : usual ch = false)
    (hslash : ch ≠ slash) (hdot : ch ≠ dot) : plainByte mergeSlashes s ch = otherByte s ch := by
  have hplain := segmentState_plain cur
  rw [← h.state] at hplain
  unfold plainByte
  rw [husual, if_neg Bool.false_ne_true]
  cases hs : s.state <;> simp only [if_neg hslash, if_neg hdot]
  case quoted => exact absurd hs hplain.1
  case quotedSecond => exact absurd hs hplain.2

/-- A digit is less than sixteen. -/
theorem hexDigit_lt_sixteen {ch : UInt8} {d : Nat} (h : hexDigit ch = some d) : d < 16 := by
  rcases hexDigit_eq_some h with ⟨-, hlt, -⟩ | ⟨-, -, -, hlt, -⟩ <;> omega

/-- An escape: the loop goes on as behind the character it stands for. -/
theorem complexLoop_escape (mergeSlashes : Bool) {s : ComplexUri} {stack : List Bytes} {cur : Bytes}
    (h : Resolved s stack cur) (hi lo : UInt8) (rest : Bytes) :
    match (escaped hi lo).bind (walkStep slash (closeSegment mergeSlashes) (stack, cur)) with
    | none => complexLoop mergeSlashes s (percent :: hi :: lo :: rest) = none
    | some (stack', cur') => ∃ t, Resolved t stack' cur' ∧
        complexLoop mergeSlashes s (percent :: hi :: lo :: rest) = complexLoop mergeSlashes t rest := by
  -- the percent sign leaves the text alone
  have hpercent : complexByte mergeSlashes s percent
      = .next { s with quotedState := s.state, state := .quoted } := by
    rw [h.complexByte_eq, h.plainByte_other mergeSlashes (by decide) (by decide) (by decide)]
    rfl
  rw [complexLoop, hpercent]
  simp only [complexLoop]
  rw [complexByte_quoted rfl]
  unfold escaped
  cases hhi : hexDigit hi with
  | none => rfl
  | some d =>
      have hd := hexDigit_lt_sixteen hhi
      simp only
      rw [complexByte_quotedSecond rfl hd rfl]
      cases hlo : hexDigit lo with
      | none => rfl
      | some l =>
          simp only
          by_cases hnul : 16 * d + l = 0
          · rw [if_pos hnul, if_pos hnul]
            rfl
          rw [if_neg hnul, if_neg hnul, Option.bind_some]
          generalize UInt8.ofNat (16 * d + l) = c
          by_cases hliteral : c = percent ∨ c = hash ∨ c = question
          · -- the character stands for itself
            have hslash : c ≠ slash := by
              rintro rfl
              revert hliteral
              decide
            have hdot : c ≠ dot := by
              rintro rfl
              revert hliteral
              decide
            rw [if_pos hliteral, walkStep, if_neg hslash]
            refine ⟨_, h.put hslash rfl ?_, rfl⟩
            rw [segmentState_concat, if_neg hdot]
            rfl
          · rw [if_neg hliteral]
            obtain ⟨hpercent, hhash, hquestion⟩ : c ≠ percent ∧ c ≠ hash ∧ c ≠ question :=
              ⟨fun he => hliteral (Or.inl he), fun he => hliteral (Or.inr (Or.inl he)),
                fun he => hliteral (Or.inr (Or.inr he))⟩
            have hback : Resolved
                { s with
                  quotedState := s.state
                  decoded := UInt8.ofNat d
                  quotedUri := true
                  plusInUri := s.plusInUri || decide (c = plus) } stack cur :=
              ⟨h.out, h.state, h.stack, h.cur⟩
            have hstep := plainByte_resolved mergeSlashes hback hpercent hquestion hhash
            cases hwalk : walkStep slash (closeSegment mergeSlashes) (stack, cur) c with
            | none =>
                rw [hwalk] at hstep
                simp only at hstep ⊢
                rw [hstep]
            | some st =>
                rw [hwalk] at hstep
                obtain ⟨t, hnext, ht⟩ := hstep
                exact ⟨t, ht, by simp only [hnext]⟩

/-! ## The whole pass -/

/-- What follows a path. -/
def EndsPath (tail : Bytes) : Prop := ∀ ch ∈ tail.head?, ch = question ∨ ch = hash

/-- Behind the path the loop ends. -/
theorem complexLoop_tail (mergeSlashes : Bool) {s : ComplexUri} {stack : List Bytes} {cur : Bytes}
    (h : Resolved s stack cur) {tail : Bytes} (htail : EndsPath tail) :
    complexLoop mergeSlashes s tail = some (s, argsOf tail) := by
  cases tail with
  | nil => rfl
  | cons ch rest =>
      have hch := htail ch rfl
      have hbyte : complexByte mergeSlashes s ch = otherByte s ch := by
        rw [h.complexByte_eq]
        rcases hch with rfl | rfl <;>
          exact h.plainByte_other mergeSlashes (by decide) (by decide) (by decide)
      rw [complexLoop, hbyte]
      rcases hch with rfl | rfl
      · rfl
      · rfl

/-- An escape that is cut off is dropped at the end of the target, and is an
error in front of `?` and `#`. -/
theorem complexLoop_cut (mergeSlashes : Bool) {s : ComplexUri} {stack : List Bytes} {cur : Bytes}
    (h : Resolved s stack cur) {part tail : Bytes} (hpart : part.length ≤ 1)
    (htail : EndsPath tail) :
    (complexLoop mergeSlashes s (percent :: (part ++ tail))).map (fun r => (r.1.out, r.2))
      = (unescape tail.isEmpty (percent :: part)).map fun _ => (s.out, argsOf tail) := by
  have hpercent : complexByte mergeSlashes s percent
      = .next { s with quotedState := s.state, state := .quoted } := by
    rw [h.complexByte_eq, h.plainByte_other mergeSlashes (by decide) (by decide) (by decide)]
    rfl
  have hnoDigit : ∀ ch : UInt8, ch = question ∨ ch = hash → hexDigit ch = none := by
    rintro ch (rfl | rfl) <;> decide
  rw [complexLoop, hpercent, unescape.eq_def]
  match part, hpart with
  | [], _ =>
      cases tail with
      | nil => rfl
      | cons ch rest =>
          simp only [List.nil_append, complexLoop, complexByte_quoted, hnoDigit ch (htail ch rfl)]
          rfl
  | [hi], _ =>
      simp only [List.cons_append, List.nil_append, complexLoop, complexByte_quoted]
      cases hhi : hexDigit hi with
      | none => simp
      | some d =>
          have hd := hexDigit_lt_sixteen hhi
          cases tail with
          | nil => rfl
          | cons ch rest =>
              simp only [complexLoop]
              rw [complexByte_quotedSecond rfl hd rfl, hnoDigit ch (htail ch rfl)]
              rfl

/-- **The pass over a path.**  The text that the pass leaves is that of the stack
and the segment which the decoded path leaves. -/
theorem complexLoop_path (mergeSlashes : Bool) {tail : Bytes} (htail : EndsPath tail)
    (path : Bytes) (hpath : ∀ ch ∈ path, inPath ch = true) {s : ComplexUri} {stack : List Bytes}
    {cur : Bytes} (h : Resolved s stack cur) :
    (complexLoop mergeSlashes s (path ++ tail)).map (fun r => (r.1.out, r.2))
      = ((unescape tail.isEmpty path).bind
          (walk slash (closeSegment mergeSlashes) (stack, cur))).map
          fun st => (text slash st.1 st.2, argsOf tail) := by
  induction hlen : path.length using Nat.strongRecOn generalizing path s stack cur with
  | _ n ih =>
  cases path with
  | nil =>
      rw [List.nil_append, complexLoop_tail mergeSlashes h htail]
      simp [unescape, h.out]
  | cons ch rest =>
      by_cases hpercent : ch = percent
      · subst hpercent
        match rest, hlen, hpath with
        | [], _, _ =>
            rw [List.cons_append, complexLoop_cut mergeSlashes h (by simp) htail]
            cases tail <;> simp [unescape, h.out]
        | [hi], _, _ =>
            rw [List.cons_append, complexLoop_cut mergeSlashes h (by simp) htail]
            cases htail : tail.isEmpty <;> cases hhi : (hexDigit hi).isSome <;>
              simp [unescape, hhi, h.out]
        | hi :: lo :: rest, hlen, hpath =>
            have hescape := complexLoop_escape mergeSlashes h hi lo (rest ++ tail)
            rw [unescape_escape]
            cases hch : escaped hi lo with
            | none =>
                rw [hch] at hescape
                simp only [List.cons_append] at hescape ⊢
                rw [hescape]
                rfl
            | some ch =>
                rw [hch] at hescape
                simp only [Option.bind_some, List.cons_append] at hescape ⊢
                cases hwalk : walkStep slash (closeSegment mergeSlashes) (stack, cur) ch with
                | none =>
                    rw [hwalk] at hescape
                    rw [hescape]
                    cases unescape tail.isEmpty rest <;> simp [walk_cons, hwalk]
                | some st =>
                    rw [hwalk] at hescape
                    obtain ⟨t, ht, hloop⟩ := hescape
                    have hrest := ih rest.length (by simp only [List.length_cons] at hlen; omega) rest
                      (fun ch hch => hpath ch (by simp [hch])) ht rfl
                    rw [hloop, hrest]
                    cases unescape tail.isEmpty rest <;> simp [walk_cons, hwalk]
      · have hin := hpath ch (by simp)
        simp only [inPath, Bool.and_eq_true, bne_iff_ne] at hin
        have hstep := plainByte_resolved mergeSlashes h hpercent hin.1 hin.2
        rw [List.cons_append, complexLoop, h.complexByte_eq, unescape_cons hpercent]
        cases hwalk : walkStep slash (closeSegment mergeSlashes) (stack, cur) ch with
        | none =>
            rw [hwalk] at hstep
            simp only at hstep
            rw [hstep]
            cases unescape tail.isEmpty rest <;> simp [walk_cons, hwalk]
        | some st =>
            rw [hwalk] at hstep
            obtain ⟨t, hnext, ht⟩ := hstep
            have hrest := ih rest.length (by simp only [List.length_cons] at hlen; omega) rest
              (fun ch hch => hpath ch (by simp [hch])) ht rfl
            rw [hnext]
            simp only
            rw [hrest]
            cases unescape tail.isEmpty rest <;> simp [walk_cons, hwalk]

/-- A target that begins with a slash, by its path and what follows. -/
theorem normalize_walk (mergeSlashes : Bool) (rest : Bytes) :
    normalize mergeSlashes (slash :: rest)
      = ((unescape (rest.dropWhile inPath).isEmpty (rest.takeWhile inPath)).bind
          (walk slash (closeSegment mergeSlashes) ([], []))).map
          fun st => (text slash st.1 st.2, argsOf (rest.dropWhile inPath)) := by
  have hslash : inPath slash = true := by decide
  unfold normalize
  rw [List.takeWhile_cons_of_pos hslash, List.dropWhile_cons_of_pos hslash]
  dsimp only
  rw [unescape_cons (by decide)]
  cases unescape (rest.dropWhile inPath).isEmpty (rest.takeWhile inPath) with
  | none => rfl
  | some decoded =>
      obtain ⟨first, more, hsplit⟩ :=
        List.exists_cons_of_ne_nil (List.splitOn_ne_nil slash decoded)
      rw [Option.map_some, Option.bind_some, Option.bind_some, walk_splitOn,
        List.splitOn_cons_eq_if_modifyHead, if_pos (by decide), hsplit]
      simp [Function.comp_def]

/-- **The pass normalizes.**  On every target that begins with a slash the pass
writes the normalized path, finds the arguments, and refuses exactly the targets
that have none. -/
theorem parseComplexUri_normalize (mergeSlashes quotedUri plusInUri : Bool) (rest : Bytes) :
    (parseComplexUri mergeSlashes quotedUri plusInUri (slash :: rest)).map
        (fun r => (r.uri, r.args)) = normalize mergeSlashes (slash :: rest) := by
  have hfirst : complexByte mergeSlashes (.start quotedUri plusInUri) slash
      = .next { (ComplexUri.start quotedUri plusInUri).put slash .slash with uriExt := none } := rfl
  have hresolved : Resolved
      { (ComplexUri.start quotedUri plusInUri).put slash .slash with uriExt := none } [] [] :=
    ⟨rfl, rfl, List.forall_mem_nil _, List.not_mem_nil⟩
  have htail : EndsPath (rest.dropWhile inPath) := by
    intro ch hch
    have := List.head?_dropWhile_not inPath rest
    rw [Option.mem_def.mp hch] at this
    simpa [inPath, or_iff_not_imp_left] using this
  have hpass := complexLoop_path mergeSlashes htail (rest.takeWhile inPath)
    (fun ch hch => List.mem_takeWhile_imp hch) hresolved
  rw [List.takeWhile_append_dropWhile] at hpass
  rw [normalize_walk, ← hpass, parseComplexUri, complexLoop, hfirst, Option.map_map]
  rfl

/-- A path without dot segments, but for the last one, and without empty ones if
slashes are merged. -/
structure NormalPath (mergeSlashes : Bool) (uri : Bytes) : Prop where
  root : uri.head? = some slash
  inner : ∀ segment ∈ (uri.splitOn slash).tail.dropLast,
    segment ≠ [dot] ∧ segment ≠ [dot, dot] ∧ (mergeSlashes = true → segment ≠ [])

/-- A segment that stays when it is closed. -/
def ClosedSegment (mergeSlashes : Bool) (segment : Bytes) : Prop :=
  slash ∉ segment ∧ segment ≠ [dot] ∧ segment ≠ [dot, dot] ∧ (mergeSlashes = true → segment ≠ [])

/-- Closing a segment keeps the stack free of dot segments. -/
theorem closeSegment_closed {mergeSlashes : Bool} {stack stack' : List Bytes} {segment : Bytes}
    (hstack : ∀ s ∈ stack, ClosedSegment mergeSlashes s) (hsegment : slash ∉ segment)
    (h : closeSegment mergeSlashes stack segment = some stack') :
    ∀ s ∈ stack', ClosedSegment mergeSlashes s := by
  by_cases hdotDot : segment = [dot, dot]
  · subst hdotDot
    exact fun s hs => hstack s (closeSegment_dotDot_subset h hs)
  · unfold closeSegment ClosedSegment at *
    grind

/-- What normalizing leaves is normal. -/
theorem normalize_normal {mergeSlashes : Bool} {rest uri args : Bytes}
    (h : normalize mergeSlashes (slash :: rest) = some (uri, args)) :
    NormalPath mergeSlashes uri := by
  rw [normalize_walk] at h
  obtain ⟨⟨stack, cur⟩, hwalk, heq⟩ := Option.map_eq_some_iff.mp h
  obtain ⟨rfl, -⟩ := Prod.mk.inj heq
  obtain ⟨decoded, -, hwalk⟩ := Option.bind_eq_some_iff.mp hwalk
  have hmore : ∀ (cur : Bytes), ∀ c ∈ decoded, slash ∉ cur → c ≠ slash → slash ∉ cur ++ [c] := by
    intro cur c _ hcur hc
    simpa using ⟨hcur, Ne.symm hc⟩
  obtain ⟨hstack, hcur⟩ := walk_invariant slash (closeSegment mergeSlashes)
    (fun stack cur stack' hstack hcur hclose => closeSegment_closed hstack hcur hclose)
    List.not_mem_nil hmore (List.forall_mem_nil _) List.not_mem_nil hwalk
  refine ⟨rfl, ?_⟩
  rw [splitOn_text (fun s hs => (hstack s hs).1) hcur, List.tail_cons, List.dropLast_concat]
  exact fun segment hsegment => (hstack segment (List.mem_reverse.mp hsegment)).2

end Toxic
