import Mathlib.Data.List.Perm.Basic
import ToxicNginx.SapiModule

/-!
# The two stores of header fields

`header()` goes to `header_function`, which puts the line into
`r->headers_out`, while `setcookie`, `header_remove` and `http_response_code`
act on `SG(sapi_headers)`, from which `header_callback` takes the content type
alone and the status 200.

* `toxicCall`, `headersOutResponse` — a call as the module has it, and the status and
  fields it puts in `r->headers_out`;
* `referenceCall`, `referenceResponse` — the same by `sapi_header_op` alone;
* `Agree` — both make the same response;
* `Alike` — the calls that do the same to both;
* `cutTrailing_key`, `headerFunction_field`, `referenceCall_field` — what one
  `header()` call adds to either store;
* `Paired.step`, `Paired.alike`, `agree_iff` — one call, and every sequence of
  calls.
-/

namespace Toxic

/-- A header field: its name in lower case, and its value without the blanks
around it. -/
abbrev Field := Bytes × Bytes

/-- A space or a tab. -/
def isBlank (c : UInt8) : Bool := c == 32 || c == 9

/-- A value without the blanks around it. -/
def trimBlanks (value : Bytes) : Bytes :=
  ((value.dropWhile isBlank).reverse.dropWhile isBlank).reverse

/-- The field of a header line. -/
def lineField (line : Bytes) : Field :=
  match nameOf line with
  | some name => (name.map toLower, trimBlanks (restOf line))
  | none => (line.map toLower, [])

/-- The field of an element of `r->headers_out.headers`. -/
def TableElt.field (e : TableElt) : Field := (e.key.map toLower, trimBlanks e.value)

/-- What the memory of a new element holds. -/
structure Memory where
  hash : Nat
  heap : Nat → UInt8

/-- The stores of the module: `r->headers_out.headers` and `SG(sapi_headers)`;
and whether an empty slot of `sapi_module` has been called. -/
structure ToxicHeaders where
  headersOut : List TableElt
  sapi : SapiHeaders
  crashed : Bool
  deriving DecidableEq, Repr

/-- A call under the module. -/
def toxicCall (conf : ScriptConf) (memory : Memory) (call : HeaderCall) (t : ToxicHeaders) :
    ToxicHeaders :=
  match call with
  | .header line _ _ =>
      { t with headersOut := headerFunction memory.hash memory.heap line t.headersOut }
  | call =>
      let result := sapiCall (conf.headerEnv ngxHttpToxicModule) false call t.sapi
      { t with
        sapi := result.headers
        crashed := t.crashed || result.calls.any fun c => ngxHttpToxicModule c.slot = .zero }

/-- `header_callback`, when the first output has made `sapi_send_headers` set the
default content type: the status and the fields of `r->headers_out`. -/
def headersOutResponse (conf : ScriptConf) (t : ToxicHeaders) : Int32 × List Field :=
  let mimetype :=
    if t.sapi.sendDefaultContentType then some (defaultContentType conf) else t.sapi.mimetype
  (200, t.headersOut.map TableElt.field ++
    [(bytesOf "content-type", trimBlanks (mimetype.getD (bytesOf "text/html")))])

/-- A SAPI module that leaves the list to `sapi_header_op`. -/
def referenceEnv (conf : ScriptConf) : HeaderEnv :=
  { conf.headerEnv ngxHttpToxicModule with handler := none }

/-- A call under such a module. -/
def referenceCall (conf : ScriptConf) (call : HeaderCall) (s : SapiHeaders) : SapiHeaders :=
  (sapiCall (referenceEnv conf) false call s).headers

/-- The status and the fields that `SG(sapi_headers)` stands for; a status that is
not set is 200. -/
def referenceResponse (conf : ScriptConf) (s : SapiHeaders) : Int32 × List Field :=
  let default := bytesOf "Content-type: " ++ defaultContentType conf
  (if s.httpResponseCode = 0 then 200 else s.httpResponseCode,
    (s.headers ++ if s.sendDefaultContentType then [default] else []).map lineField)

/-- The module answers, with the status and the multiset of fields of the
reference. -/
structure Agree (conf : ScriptConf) (t : ToxicHeaders) (s : SapiHeaders) : Prop where
  alive : t.crashed = false
  status : (headersOutResponse conf t).1 = (referenceResponse conf s).1
  fields : (headersOutResponse conf t).2.Perm (referenceResponse conf s).2

/-- A sequence of calls under the module, each with the memory it gets. -/
def toxicCalls (conf : ScriptConf) (calls : List (HeaderCall × Memory)) : ToxicHeaders :=
  calls.foldl (fun t c => toxicCall conf c.2 c.1 t) ⟨[], .fresh, false⟩

/-- The same sequence under the reference. -/
def referenceCalls (conf : ScriptConf) (calls : List (HeaderCall × Memory)) : SapiHeaders :=
  calls.foldl (fun s c => referenceCall conf c.1 s) .fresh

/-- `header_function` makes the same field of a line: when there is a value, it
has no line ends behind it, and else the memory of the key happens to hold the
key. -/
def SameField (memory : Memory) (line : Bytes) : Prop :=
  if restOf line = [] then
    ((List.range (keyIndex line)).map memory.heap).map toLower
      = (line.take (keyIndex line)).map toLower
  else trimBlanks (restOf line) = trimBlanks (restOf (cutTrailing line))

/-- Neither a redirect nor an authentication. -/
def plainName (name : Bytes) : Bool :=
  !eqNoCase name (bytesOf "Location") && !eqNoCase name (bytesOf "WWW-Authenticate")

/-- The `header()` calls that do the same to both stores, where `s` is the
reference: with nothing; with a faulty line that has no key; with a status line
that says 200; with another field than the content type that replaces none and
leaves the status. -/
def AlikeHeader (memory : Memory) (s : SapiHeaders) (line : Bytes) (replace : Bool)
    (responseCode : Int64) : Prop :=
  if line = [] then True
  else if ¬ Clean (cutTrailing line) then keyIndex line = 0
  else if isStatusLine (cutTrailing line) then
    keyIndex line = 0 ∧
      (sapiExtractResponseCode (cutTrailing line) = 0 ∨
        sapiExtractResponseCode (cutTrailing line) = 200)
  else
    keyIndex line ≠ 0 ∧ SameField memory line ∧
      eqNoCase (line.take (keyIndex line)) (bytesOf "Content-Type") = false ∧
      (replace = true → ∀ h ∈ s.headers, hasName (line.take (keyIndex line)) h = false) ∧
      (responseCode.toInt32 = 200 ∨
        responseCode.toInt32 = 0 ∧ plainName (line.take (keyIndex line)) = true)

/-- The calls that do the same to both stores: such a `header()` call, a cookie
that is refused, a removal that finds nothing, the status 200. -/
def Alike (memory : Memory) (s : SapiHeaders) : HeaderCall → Prop
  | .header line replace responseCode => AlikeHeader memory s line replace responseCode
  | .setcookie cookie => phpSetcookie cookie = none
  | .headerRemove none => s.headers = []
  | .headerRemove (some name) =>
      name = [] ∨
        58 ∉ (cutTrailing name).takeWhile (· != 0) ∧
          ∀ h ∈ s.headers, hasName (cutTrailing name) h = false
  | .httpResponseCode code => code.toInt32 = 0 ∨ code.toInt32 = 200

/-- Every call of a sequence is one of these, where it is made. -/
def AlikeRun (conf : ScriptConf) : SapiHeaders → List (HeaderCall × Memory) → Prop
  | _, [] => True
  | s, c :: calls => Alike c.2 s c.1 ∧ AlikeRun conf (referenceCall conf c.1 s) calls

/-- What is cut off are spaces and line ends. -/
theorem cutTrailing_append (line : Bytes) :
    ∃ rest, line = cutTrailing line ++ rest ∧ ∀ c ∈ rest, isSpace c = true := by
  refine ⟨(line.reverse.takeWhile isSpace).reverse, ?_, ?_⟩
  · unfold cutTrailing
    rw [← List.reverse_append, List.takeWhile_append_dropWhile, List.reverse_reverse]
  · intro c hc
    rw [List.mem_reverse] at hc
    exact List.mem_takeWhile_imp hc

/-- **The key** of a line is the name in front of the first colon of the line
that is kept. -/
theorem cutTrailing_key (line : Bytes) :
    (58 ∈ cutTrailing line ↔ 58 ∈ line) ∧
      (58 ∈ line → (cutTrailing line).idxOf 58 = line.idxOf 58 ∧
        (cutTrailing line).take (line.idxOf 58) = line.take (line.idxOf 58)) := by
  obtain ⟨rest, hline, hspace⟩ := cutTrailing_append line
  generalize cutTrailing line = cut at hline
  subst hline
  have hrest : (58 : UInt8) ∉ rest := by
    intro h
    have := hspace 58 h
    revert this
    decide
  refine ⟨by simp [hrest], fun hmem => ?_⟩
  have hcut : (58 : UInt8) ∈ cut := by simpa [hrest] using hmem
  have hindex : (cut ++ rest).idxOf 58 = cut.idxOf 58 := List.idxOf_append_of_mem hcut
  refine ⟨hindex.symm, ?_⟩
  rw [hindex, List.take_append_of_le_length]
  exact (List.idxOf_lt_length_of_mem hcut).le

/-- What is kept of a line has no NUL byte, when that much is clean. -/
theorem zero_notMem_of_clean {line : Bytes} (h : Clean (cutTrailing line)) : 0 ∉ line := by
  obtain ⟨rest, hline, hspace⟩ := cutTrailing_append line
  rw [hline]
  intro hmem
  rcases List.mem_append.mp hmem with hmem | hmem
  · exact h.1 hmem
  · have := hspace 0 hmem
    revert this
    decide

/-- A line has a key when it has a colon that is not its first byte. -/
theorem keyIndex_ne_zero {line : Bytes} (h : keyIndex line ≠ 0) :
    58 ∈ line ∧ keyIndex line = line.idxOf 58 := by
  unfold keyIndex at h ⊢
  split at h
  next hmem => exact ⟨hmem, if_pos hmem⟩
  next => exact absurd rfl h

/-- The field that `header_function` adds for a line with a key. -/
def addedField (memory : Memory) (line : Bytes) : Field :=
  if restOf line = [] then (((List.range (keyIndex line)).map memory.heap).map toLower, [])
  else ((line.take (keyIndex line)).map toLower, trimBlanks (restOf line))

/-- **What `header_function` adds** for a line without NUL bytes. -/
theorem headerFunction_field (memory : Memory) {line : Bytes} (hnul : 0 ∉ line)
    (hkey : keyIndex line ≠ 0) (headers : List TableElt) :
    (headerFunction memory.hash memory.heap line headers).map TableElt.field
      = headers.map TableElt.field ++ [addedField memory line] := by
  obtain ⟨_, hindex⟩ := keyIndex_ne_zero hkey
  have hlt := (line_split hkey).1
  have hrest : restOf line = line.drop (keyIndex line + 1) := by rw [restOf, hindex]
  have hlen : (restOf line).length = line.length - 1 - keyIndex line := by
    rw [hrest, List.length_drop]
    omega
  have hempty : line.length - 1 - keyIndex line = 0 ↔ restOf line = [] := by
    rw [← hlen, List.length_eq_zero_iff]
  have htrim : trimBlanks [] = [] := rfl
  unfold headerFunction addedField
  simp only [hkey, if_false, hempty]
  by_cases hnone : restOf line = []
  · simp [hnone, TableElt.field, htrim]
  · have hkeyNul : 0 ∉ line.take (keyIndex line) := fun h => hnul (List.mem_of_mem_take h)
    have hrestNul : 0 ∉ restOf line := fun h => hnul (List.mem_of_mem_drop h)
    have htake : (restOf line).take (line.length - 1 - keyIndex line) = restOf line := by
      rw [← hlen, List.take_length]
    simp only [hnone, if_false, List.map_append, List.map_singleton, TableElt.field, ← hrest]
    rw [strncpy_eq_take hkeyNul hlt.le, strncpy_eq_take (htake.symm ▸ hrestNul) hlen.ge, htake]

/-- Every element of the module has a key. -/
theorem headerFunction_key (memory : Memory) (line : Bytes) {headers : List TableElt}
    (h : ∀ e ∈ headers, e.key ≠ []) :
    ∀ e ∈ headerFunction memory.hash memory.heap line headers, e.key ≠ [] := by
  intro e he
  unfold headerFunction at he
  dsimp only at he
  split at he
  next => exact h e he
  next hkey =>
    have hcopied : strncpy line (keyIndex line) ≠ [] := by
      intro hnil
      have hlen := congrArg List.length hnil
      have hle : ((line.take (keyIndex line)).takeWhile (· != 0)).length ≤ keyIndex line :=
        (List.takeWhile_prefix _).length_le.trans (List.length_take_le _ _)
      simp only [strncpy, List.length_append, List.length_replicate, List.length_nil] at hlen
      omega
    split at he
    · rcases List.mem_append.mp he with he | he
      · exact h e he
      · rw [List.mem_singleton.mp he]
        simpa using hkey
    · rcases List.mem_append.mp he with he | he
      · exact h e he
      · rw [List.mem_singleton.mp he]
        exact hcopied

/-- The field of the line that the reference keeps. -/
theorem lineField_cutTrailing {line : Bytes} (hkey : keyIndex line ≠ 0) :
    nameOf (cutTrailing line) = some (line.take (keyIndex line)) ∧
      lineField (cutTrailing line)
        = ((line.take (keyIndex line)).map toLower, trimBlanks (restOf (cutTrailing line))) := by
  obtain ⟨hmem, hindex⟩ := keyIndex_ne_zero hkey
  obtain ⟨hiff, hboth⟩ := cutTrailing_key line
  obtain ⟨hsame, htake⟩ := hboth hmem
  have hname : nameOf (cutTrailing line) = some (line.take (keyIndex line)) := by
    unfold nameOf
    rw [if_pos (hiff.mpr hmem), hsame, htake, hindex]
  refine ⟨hname, ?_⟩
  unfold lineField
  rw [hname]

/-- Both stores get the same field. -/
theorem sameField_iff (memory : Memory) {line : Bytes} (hkey : keyIndex line ≠ 0) :
    addedField memory line = lineField (cutTrailing line) ↔ SameField memory line := by
  rw [(lineField_cutTrailing hkey).2]
  unfold addedField SameField
  by_cases hnone : restOf line = []
  · have hcut : restOf (cutTrailing line) = [] := by
      obtain ⟨rest, hline, _⟩ := cutTrailing_append line
      obtain ⟨hmem, _⟩ := keyIndex_ne_zero hkey
      have hsame := ((cutTrailing_key line).2 hmem).1
      unfold restOf at hnone ⊢
      rw [List.drop_eq_nil_iff] at hnone ⊢
      have hlen : (cutTrailing line).length ≤ line.length :=
        (cutTrailing_isPrefix line).length_le
      omega
    have htrim : trimBlanks [] = [] := rfl
    simp [hnone, hcut, htrim]
  · simp [hnone]

/-- A status that the module's 200 agrees with. -/
def OkStatus (code : Int32) : Prop := code = 0 ∨ code = 200

/-- A line that is not the content type stays as it is, and changes the status at
most. -/
theorem specialHeader_plain (conf : ScriptConf) {line : Bytes} (code : Int32) (s : SapiHeaders)
    (hname : ∀ name, nameOf line = some name → eqNoCase name (bytesOf "Content-Type") = false) :
    (specialHeader (referenceEnv conf) line code s).1 = line ∧
      (specialHeader (referenceEnv conf) line code s).2.headers = s.headers ∧
      (specialHeader (referenceEnv conf) line code s).2.sendDefaultContentType
        = s.sendDefaultContentType := by
  unfold specialHeader
  cases hkey : nameOf line with
  | none => exact ⟨rfl, rfl, rfl⟩
  | some name =>
      simp only [hname name hkey, Bool.false_eq_true, if_false]
      split
      · split
        · simp
        · exact ⟨rfl, rfl, rfl⟩
      · split
        · simp
        · exact ⟨rfl, rfl, rfl⟩

/-- The only name of a line is no content type. -/
theorem plain_of_type {line key : Bytes} (hkey : nameOf line = some key)
    (htype : eqNoCase key (bytesOf "Content-Type") = false) :
    ∀ name, nameOf line = some name → eqNoCase name (bytesOf "Content-Type") = false := by
  intro name hname
  rw [hkey] at hname
  exact Option.some.inj hname ▸ htype

/-- The status after a line with a name, where none was set before. -/
theorem specialHeader_status (conf : ScriptConf) {line name : Bytes} {s : SapiHeaders}
    (hkey : nameOf line = some name) (hok : OkStatus s.httpResponseCode)
    (hname : eqNoCase name (bytesOf "Content-Type") = false) :
    OkStatus (specialHeader (referenceEnv conf) line 0 s).2.httpResponseCode ↔
      plainName name = true := by
  unfold specialHeader plainName
  simp only [hkey, hname, Bool.false_eq_true, if_false]
  by_cases hlocation : eqNoCase name (bytesOf "Location") = true
  · have hredirect : (s.httpResponseCode < 300 ∨ 399 < s.httpResponseCode) ∧
        s.httpResponseCode ≠ 201 := by
      rcases hok with h | h
      · rw [h]; decide
      · rw [h]; decide
    have hcode : locationCode (referenceEnv conf) 0 = 302 := by
      simp [locationCode, referenceEnv, ScriptConf.headerEnv]
    rw [if_pos hlocation, if_pos hredirect]
    simp [hlocation, hcode, OkStatus]
  · rw [if_neg hlocation]
    by_cases hauth : eqNoCase name (bytesOf "WWW-Authenticate") = true
    · rw [if_pos hauth]
      simp [hauth, OkStatus]
    · rw [if_neg hauth]
      simp [hlocation, hauth, hok]

/-- The content type takes the default's place. -/
theorem specialHeader_contentType (conf : ScriptConf) {line name : Bytes} (code : Int32)
    (s : SapiHeaders) (hkey : nameOf line = some name)
    (hname : eqNoCase name (bytesOf "Content-Type") = true) :
    (specialHeader (referenceEnv conf) line code s).2.headers = s.headers ∧
      (specialHeader (referenceEnv conf) line code s).2.sendDefaultContentType = false := by
  unfold specialHeader
  simp only [hkey, hname, if_true]
  split
  · exact ⟨rfl, rfl⟩
  · exact ⟨rfl, rfl⟩

/-- **What the reference does** with a clean line that is no status line. -/
theorem referenceCall_field (conf : ScriptConf) {line : Bytes} (replace : Bool) (code : Int64)
    (s : SapiHeaders) (hline : line ≠ []) (hclean : Clean (cutTrailing line))
    (hstatus : isStatusLine (cutTrailing line) = false) :
    let special := specialHeader (referenceEnv conf) (cutTrailing line) code.toInt32 s
    let t := referenceCall conf (.header line replace code) s
    t.headers = replaced replace special.1 special.2.headers ++ [special.1] ∧
      t.sendDefaultContentType = special.2.sendDefaultContentType ∧
      t.httpResponseCode = if code.toInt32 ≠ 0 then code.toInt32 else special.2.httpResponseCode := by
  have hfault := (headerFault_eq_none_iff (cutTrailing line)).mpr hclean
  have hhandler : (referenceEnv conf).handler ≠ some false := by simp [referenceEnv]
  unfold referenceCall sapiCall sapiHeaderOp
  simp only [Bool.false_eq_true, if_false, hline, hfault, hstatus]
  unfold sapiHeaderAddOp
  rw [if_neg hhandler]
  by_cases hcode : code.toInt32 = 0
  · simp [hcode]
  · simp [hcode]

/-- **What the reference does** with another field than the content type. -/
theorem referenceCall_plain (conf : ScriptConf) {line : Bytes} (replace : Bool) (code : Int64)
    (s : SapiHeaders) (hline : line ≠ []) (hclean : Clean (cutTrailing line))
    (hstatus : isStatusLine (cutTrailing line) = false)
    (hname : ∀ name, nameOf (cutTrailing line) = some name →
      eqNoCase name (bytesOf "Content-Type") = false) :
    let t := referenceCall conf (.header line replace code) s
    t.headers = replaced replace (cutTrailing line) s.headers ++ [cutTrailing line] ∧
      t.sendDefaultContentType = s.sendDefaultContentType := by
  obtain ⟨hkept, hheaders, hdefault⟩ := specialHeader_plain conf code.toInt32 s hname
  obtain ⟨hlist, hsends, _⟩ := referenceCall_field conf replace code s hline hclean hstatus
  rw [hkept, hheaders] at hlist
  exact ⟨hlist, hsends.trans hdefault⟩

/-- The line of the default content type is that field. -/
theorem lineField_contentType (value : Bytes) :
    lineField (bytesOf "Content-type: " ++ value)
      = (bytesOf "content-type", trimBlanks value) := by
  have hmem : (58 : UInt8) ∈ bytesOf "Content-type: " := by decide +kernel
  have hindex : (bytesOf "Content-type: " ++ value).idxOf 58 = 12 := by
    rw [List.idxOf_append_of_mem hmem]
    decide +kernel
  have hsplit : bytesOf "Content-type: " ++ value
      = bytesOf "Content-type" ++ 58 :: 32 :: value := by
    have : bytesOf "Content-type: " = bytesOf "Content-type" ++ [58, 32] := by decide +kernel
    rw [this, List.append_assoc]
    rfl
  have hlen : (bytesOf "Content-type").length = 12 := by decide +kernel
  have hlower : (bytesOf "Content-type").map toLower = bytesOf "content-type" := by decide +kernel
  have htake : (bytesOf "Content-type: " ++ value).take 12 = bytesOf "Content-type" := by
    rw [hsplit, List.take_left' hlen]
  have hdrop : (bytesOf "Content-type: " ++ value).drop (12 + 1) = 32 :: value := by
    rw [hsplit, ← List.drop_drop, List.drop_left' hlen, List.drop_succ_cons, List.drop_zero]
  unfold lineField nameOf restOf
  rw [if_pos (List.mem_append_left _ hmem), hindex]
  simp only [htake, hdrop, hlower]
  rfl

/-- Both stores as long as they have been treated alike. -/
structure Paired (t : ToxicHeaders) (s : SapiHeaders) : Prop where
  alive : t.crashed = false
  status : OkStatus s.httpResponseCode
  fields : (t.headersOut.map TableElt.field).Perm (s.headers.map lineField)
  toxicDefault : t.sapi.sendDefaultContentType = true
  default : s.sendDefaultContentType = true
  keys : ∀ e ∈ t.headersOut, e.key ≠ []

/-- The response of the module, where the default content type is sent. -/
theorem headersOutResponse_fields (conf : ScriptConf) {t : ToxicHeaders}
    (h : t.sapi.sendDefaultContentType = true) :
    (headersOutResponse conf t).2 = t.headersOut.map TableElt.field ++
      [(bytesOf "content-type", trimBlanks (defaultContentType conf))] := by
  simp [headersOutResponse, h]

/-- The response of the reference, where the default content type is sent. -/
theorem referenceResponse_fields (conf : ScriptConf) {s : SapiHeaders}
    (h : s.sendDefaultContentType = true) :
    (referenceResponse conf s).2 = s.headers.map lineField ++
      [(bytesOf "content-type", trimBlanks (defaultContentType conf))] := by
  simp [referenceResponse, h, lineField_contentType]

/-- The status of the reference is the module's 200. -/
theorem okStatus_iff (conf : ScriptConf) (t : ToxicHeaders) (s : SapiHeaders) :
    (headersOutResponse conf t).1 = (referenceResponse conf s).1 ↔ OkStatus s.httpResponseCode := by
  unfold headersOutResponse referenceResponse OkStatus
  dsimp only
  split
  next h => simp [h]
  next h => simp [h, eq_comm]

/-- Stores that were treated alike make the same response. -/
theorem Paired.agree {t : ToxicHeaders} {s : SapiHeaders} (h : Paired t s) (conf : ScriptConf) :
    Agree conf t s := by
  refine ⟨h.alive, (okStatus_iff conf t s).mpr h.status, ?_⟩
  rw [headersOutResponse_fields conf h.toxicDefault, referenceResponse_fields conf h.default]
  exact h.fields.append_right _

/-- The number of fields: the module has one more than elements. -/
theorem Agree.length {conf : ScriptConf} {t : ToxicHeaders} {s : SapiHeaders}
    (h : Agree conf t s) :
    t.headersOut.length + 1
      = s.headers.length + if s.sendDefaultContentType then 1 else 0 := by
  have hlen := h.fields.length_eq
  simp only [headersOutResponse, referenceResponse, List.length_append, List.length_map,
    List.length_singleton] at hlen
  rw [hlen]
  split
  · rfl
  · rfl

/-- Where one field is added on both sides, nothing was replaced and the field is
the same. -/
theorem added_alike {fields : List Field} {kept headers : List Bytes} {a b : Field}
    (hsub : kept.Sublist headers) (hperm : fields.Perm (headers.map lineField))
    (h : (fields ++ [a]).Perm (kept.map lineField ++ [b])) : kept = headers ∧ a = b := by
  have hlen := h.length_eq
  have hlen' := hperm.length_eq
  simp only [List.length_append, List.length_map, List.length_singleton] at hlen hlen'
  have hkept : kept = headers := hsub.eq_of_length (by omega)
  refine ⟨hkept, ?_⟩
  subst hkept
  have hsame : (kept.map lineField ++ [a]).Perm (kept.map lineField ++ [b]) :=
    (hperm.symm.append_right [a]).trans h
  have hone := (List.perm_append_left_iff _).mp hsame
  exact List.singleton_inj.mp (List.perm_singleton.mp hone.symm).symm

/-- The reference leaves everything as it is. -/
theorem referenceCall_fault (conf : ScriptConf) {line : Bytes} (replace : Bool) (code : Int64)
    (s : SapiHeaders) (h : line = [] ∨ ¬ Clean (cutTrailing line)) :
    referenceCall conf (.header line replace code) s = s := by
  unfold referenceCall sapiCall sapiHeaderOp
  simp only [Bool.false_eq_true, if_false]
  by_cases hline : line = []
  · rw [if_pos hline]
  · rw [if_neg hline]
    have hfault : headerFault (cutTrailing line) ≠ none := fun hnone =>
      (h.resolve_left hline) ((headerFault_eq_none_iff _).mp hnone)
    obtain ⟨error, herror⟩ := Option.ne_none_iff_exists'.mp hfault
    rw [herror]

/-- A status line changes the status alone. -/
theorem referenceCall_status (conf : ScriptConf) {line : Bytes} (replace : Bool) (code : Int64)
    (s : SapiHeaders) (hline : line ≠ []) (hclean : Clean (cutTrailing line))
    (hstatus : isStatusLine (cutTrailing line) = true) :
    let t := referenceCall conf (.header line replace code) s
    t.headers = s.headers ∧ t.sendDefaultContentType = s.sendDefaultContentType ∧
      t.httpResponseCode = sapiExtractResponseCode (cutTrailing line) := by
  have hfault := (headerFault_eq_none_iff (cutTrailing line)).mpr hclean
  unfold referenceCall sapiCall sapiHeaderOp
  simp [hline, hfault, hstatus]

/-- A line without a key adds no element. -/
theorem toxicCall_noKey (conf : ScriptConf) (memory : Memory) {line : Bytes} (replace : Bool)
    (code : Int64) (t : ToxicHeaders) (h : keyIndex line = 0) :
    toxicCall conf memory (.header line replace code) t = t := by
  simp [toxicCall, headerFunction, h]

/-- A line with a key adds one. -/
theorem toxicCall_length (conf : ScriptConf) (memory : Memory) {line : Bytes} (replace : Bool)
    (code : Int64) (t : ToxicHeaders) (h : keyIndex line ≠ 0) :
    (toxicCall conf memory (.header line replace code) t).headersOut.length
      = t.headersOut.length + 1 := by
  unfold toxicCall headerFunction
  simp only [h, if_false]
  split
  · simp
  · simp

/-- **A `header()` call** that is treated alike keeps the stores alike. -/
theorem Paired.header {conf : ScriptConf} {t : ToxicHeaders} {s : SapiHeaders} (h : Paired t s)
    {memory : Memory} {line : Bytes} {replace : Bool} {code : Int64}
    (halike : AlikeHeader memory s line replace code) :
    Paired (toxicCall conf memory (.header line replace code) t)
      (referenceCall conf (.header line replace code) s) := by
  unfold AlikeHeader at halike
  by_cases hline : line = []
  · have hkey : keyIndex line = 0 := by simp [keyIndex, hline]
    rw [toxicCall_noKey conf memory replace code t hkey,
      referenceCall_fault conf replace code s (Or.inl hline)]
    exact h
  rw [if_neg hline] at halike
  by_cases hclean : Clean (cutTrailing line)
  · rw [if_neg (not_not.mpr hclean)] at halike
    by_cases hstatus : isStatusLine (cutTrailing line) = true
    · rw [if_pos hstatus] at halike
      obtain ⟨hheaders, hdefault, hcode⟩ :=
        referenceCall_status conf replace code s hline hclean hstatus
      rw [toxicCall_noKey conf memory replace code t halike.1]
      exact ⟨h.alive, hcode.symm ▸ halike.2, hheaders.symm ▸ h.fields, h.toxicDefault,
        hdefault.trans h.default, h.keys⟩
    · rw [if_neg hstatus] at halike
      rw [Bool.not_eq_true] at hstatus
      obtain ⟨hkey, hsame, htype, hnone, hcode⟩ := halike
      obtain ⟨hname, _⟩ := lineField_cutTrailing hkey
      have hplain := plain_of_type hname htype
      obtain ⟨_, _, hcodes⟩ := referenceCall_field conf replace code s hline hclean hstatus
      obtain ⟨hlist, hdefault⟩ := referenceCall_plain conf replace code s hline hclean hstatus hplain
      have hreplaced : replaced replace (cutTrailing line) s.headers = s.headers := by
        unfold replaced
        rw [hname]
        cases replace with
        | false => rfl
        | true => exact removeHeader_eq_self_iff.mpr (hnone rfl)
      rw [hreplaced] at hlist
      refine ⟨h.alive, ?_, ?_, h.toxicDefault, hdefault.trans h.default,
        headerFunction_key memory line h.keys⟩
      · rw [hcodes]
        rcases hcode with hcode | ⟨hcode, hok⟩
        · rw [hcode, if_pos (by decide)]
          exact Or.inr rfl
        · rw [hcode, if_neg (by decide)]
          exact (specialHeader_status conf hname h.status htype).mpr hok
      · have hadded := headerFunction_field memory (zero_notMem_of_clean hclean) hkey t.headersOut
        rw [hlist, List.map_append, List.map_singleton, ← (sameField_iff memory hkey).mpr hsame]
        simp only [toxicCall, hadded]
        exact h.fields.append_right _
  · rw [if_pos hclean] at halike
    rw [toxicCall_noKey conf memory replace code t halike,
      referenceCall_fault conf replace code s (Or.inr hclean)]
    exact h

/-- The responses do not agree after a line without a key has been added to the
reference. -/
theorem Paired.key_ne_zero {conf : ScriptConf} {t : ToxicHeaders} {s : SapiHeaders}
    (h : Paired t s) {memory : Memory} {line : Bytes} {replace : Bool} {code : Int64}
    (hline : line ≠ []) (hclean : Clean (cutTrailing line))
    (hstatus : isStatusLine (cutTrailing line) = false)
    (hagree : Agree conf (toxicCall conf memory (.header line replace code) t)
      (referenceCall conf (.header line replace code) s)) :
    keyIndex line ≠ 0 := by
  intro hkey
  rw [toxicCall_noKey conf memory replace code t hkey] at hagree
  -- a name in the line would be the empty one
  have hempty : ∀ name, nameOf (cutTrailing line) = some name → name = [] := by
    intro name hname
    obtain ⟨hiff, hboth⟩ := cutTrailing_key line
    unfold nameOf at hname
    split at hname
    next hmem =>
      have hindex : line.idxOf 58 = 0 := by
        rwa [keyIndex, if_pos (hiff.mp hmem)] at hkey
      rw [(hboth (hiff.mp hmem)).1, hindex, List.take_zero] at hname
      exact (Option.some.inj hname).symm
    next => cases hname
  have hplain : ∀ name, nameOf (cutTrailing line) = some name →
      eqNoCase name (bytesOf "Content-Type") = false := by
    intro name hname
    rw [hempty name hname]
    decide +kernel
  obtain ⟨hlist, hdefault⟩ := referenceCall_plain conf replace code s hline hclean hstatus hplain
  have hfields := hagree.fields
  rw [headersOutResponse_fields conf h.toxicDefault,
    referenceResponse_fields conf (hdefault.trans h.default), List.perm_append_right_iff, hlist,
    List.map_append, List.map_singleton] at hfields
  cases hname : nameOf (cutTrailing line) with
  | none =>
      have hreplaced : replaced replace (cutTrailing line) s.headers = s.headers := by
        unfold replaced
        rw [hname]
        split
        next heq => cases heq
        next => rfl
      have hlen := hfields.length_eq
      have hlen' := h.fields.length_eq
      rw [hreplaced] at hlen
      simp only [List.length_append, List.length_map, List.length_singleton] at hlen hlen'
      omega
  | some name =>
      have hfield : (lineField (cutTrailing line)).1 = [] := by
        unfold lineField
        rw [hname, hempty name hname]
        rfl
      have hmem : lineField (cutTrailing line) ∈ t.headersOut.map TableElt.field :=
        hfields.symm.subset (List.mem_append_right _ (List.mem_singleton_self _))
      obtain ⟨e, he, heq⟩ := List.mem_map.mp hmem
      rw [← heq] at hfield
      exact h.keys e he (List.map_eq_nil_iff.mp hfield)

/-- Nor do they after a content type has taken the default's place. -/
theorem Paired.type_ne {conf : ScriptConf} {t : ToxicHeaders} {s : SapiHeaders}
    (h : Paired t s) {memory : Memory} {line : Bytes} {replace : Bool} {code : Int64}
    (hline : line ≠ []) (hclean : Clean (cutTrailing line))
    (hstatus : isStatusLine (cutTrailing line) = false) (hkey : keyIndex line ≠ 0)
    (hagree : Agree conf (toxicCall conf memory (.header line replace code) t)
      (referenceCall conf (.header line replace code) s)) :
    eqNoCase (line.take (keyIndex line)) (bytesOf "Content-Type") = false := by
  by_contra htype
  rw [Bool.not_eq_false] at htype
  obtain ⟨hname, _⟩ := lineField_cutTrailing hkey
  obtain ⟨hheaders, hdefault⟩ := specialHeader_contentType conf code.toInt32 s hname htype
  obtain ⟨hlist, hsends, _⟩ := referenceCall_field conf replace code s hline hclean hstatus
  have hlength := hagree.length
  have hlen := h.fields.length_eq
  have hle := (replaced_sublist replace
    (specialHeader (referenceEnv conf) (cutTrailing line) code.toInt32 s).1 s.headers).length_le
  rw [toxicCall_length conf memory replace code t hkey, hsends, hdefault, hlist, hheaders]
    at hlength
  simp only [List.length_append, List.length_map, List.length_singleton, Bool.false_eq_true,
    if_false] at hlength hlen
  omega

/-- **A `header()` call** after which the responses agree is treated alike. -/
theorem Paired.alikeHeader {conf : ScriptConf} {t : ToxicHeaders} {s : SapiHeaders}
    (h : Paired t s) {memory : Memory} {line : Bytes} {replace : Bool} {code : Int64}
    (hagree : Agree conf (toxicCall conf memory (.header line replace code) t)
      (referenceCall conf (.header line replace code) s)) :
    AlikeHeader memory s line replace code := by
  have hlength := hagree.length
  have hlen := h.fields.length_eq
  simp only [List.length_map] at hlen
  unfold AlikeHeader
  by_cases hline : line = []
  · rw [if_pos hline]
    trivial
  rw [if_neg hline]
  by_cases hclean : Clean (cutTrailing line)
  swap
  · -- the reference keeps what it has, so the module adds nothing
    rw [if_pos hclean]
    by_contra hkey
    rw [toxicCall_length conf memory replace code t hkey,
      referenceCall_fault conf replace code s (Or.inr hclean), h.default, if_pos rfl] at hlength
    omega
  rw [if_neg (not_not.mpr hclean)]
  by_cases hstatus : isStatusLine (cutTrailing line) = true
  · rw [if_pos hstatus]
    obtain ⟨hheaders, hdefault, hcode⟩ :=
      referenceCall_status conf replace code s hline hclean hstatus
    refine ⟨?_, hcode ▸ (okStatus_iff conf _ _).mp hagree.status⟩
    by_contra hkey
    rw [toxicCall_length conf memory replace code t hkey, hheaders, hdefault, h.default,
      if_pos rfl] at hlength
    omega
  rw [if_neg hstatus]
  rw [Bool.not_eq_true] at hstatus
  have hkey := h.key_ne_zero hline hclean hstatus hagree
  have htype := h.type_ne hline hclean hstatus hkey hagree
  obtain ⟨hname, _⟩ := lineField_cutTrailing hkey
  obtain ⟨_, _, hcodes⟩ := referenceCall_field conf replace code s hline hclean hstatus
  obtain ⟨hlist, hdefault⟩ :=
    referenceCall_plain conf replace code s hline hclean hstatus (plain_of_type hname htype)
  have hadded := headerFunction_field memory (zero_notMem_of_clean hclean) hkey t.headersOut
  have hfields := hagree.fields
  have htoxic : (toxicCall conf memory (.header line replace code) t).sapi.sendDefaultContentType
      = true := h.toxicDefault
  rw [headersOutResponse_fields conf htoxic,
    referenceResponse_fields conf (hdefault.trans h.default), List.perm_append_right_iff, hlist,
    List.map_append, List.map_singleton] at hfields
  simp only [toxicCall, hadded] at hfields
  obtain ⟨hreplaced, hfield⟩ := added_alike (replaced_sublist _ _ _) h.fields hfields
  refine ⟨hkey, (sameField_iff memory hkey).mp hfield, htype, ?_, ?_⟩
  · intro hreplace
    unfold replaced at hreplaced
    rw [hname, hreplace] at hreplaced
    exact removeHeader_eq_self_iff.mp hreplaced
  · have hok := (okStatus_iff conf _ _).mp hagree.status
    rw [hcodes] at hok
    by_cases hcode : code.toInt32 = 0
    · right
      rw [hcode, if_neg (by decide)] at hok
      exact ⟨hcode, (specialHeader_status conf hname h.status htype).mp hok⟩
    · left
      rw [if_pos hcode] at hok
      exact hok.resolve_left hcode

/-- A removal takes nothing but lines away, whichever module it is called under, and
fails on a name with a colon. -/
theorem headerRemove_spec (env : HeaderEnv) (name : Bytes) (s : SapiHeaders) :
    let result := sapiCall env false (.headerRemove (some name)) s
    let colon := name ≠ [] ∧ 58 ∈ (cutTrailing name).takeWhile (· != 0)
    (result.headers = if name = [] ∨ colon then s
      else { s with headers := removeHeader (cutTrailing name) s.headers }) ∧
    (result.calls.any (fun c => ngxHttpToxicModule c.slot = .zero) = true ↔ colon) := by
  have hset : ngxHttpToxicModule .headerHandler ≠ .zero := by decide
  have hhandler : env.handlerCalls.any (fun c => ngxHttpToxicModule c.slot = .zero) = false := by
    unfold HeaderEnv.handlerCalls
    split
    · simp [SapiCall.slot, hset]
    · rfl
  have herror : ∀ message : String, ngxHttpToxicModule (SapiCall.sapiError message).slot = .zero := by
    intro message
    have hzero : ngxHttpToxicModule .sapiError = .zero := by decide
    exact hzero
  unfold sapiCall sapiHeaderOp
  simp only [Bool.false_eq_true, if_false]
  by_cases hname : name = []
  · simp [hname]
  · by_cases hcolon : 58 ∈ (cutTrailing name).takeWhile (· != 0)
    · simp [hname, hcolon, herror]
    · simp only [hname, hcolon, if_false, hhandler]
      simp

/-- The safety check has one kind of error, whose slot is empty. -/
theorem headerFault_slot {line : Bytes} {error : SapiCall} (h : headerFault line = some error) :
    ngxHttpToxicModule error.slot = .zero := by
  induction line with
  | nil => cases h
  | cons c rest ih =>
      have hzero : ngxHttpToxicModule .sapiError = .zero := by decide
      unfold headerFault at h
      split at h
      next => exact Option.some.inj h ▸ hzero
      next =>
        split at h
        next => exact Option.some.inj h ▸ hzero
        next => exact ih h

/-- The name in the line of a cookie. -/
theorem cookie_name (cookie : Bytes) :
    nameOf (cutTrailing (bytesOf "Set-Cookie: " ++ cookie)) = some (bytesOf "Set-Cookie") := by
  have hmem : (58 : UInt8) ∈ bytesOf "Set-Cookie: " := by decide +kernel
  have hindex : (bytesOf "Set-Cookie: " ++ cookie).idxOf 58 = 10 := by
    rw [List.idxOf_append_of_mem hmem]
    decide +kernel
  have hkey : keyIndex (bytesOf "Set-Cookie: " ++ cookie) = 10 := by
    rw [keyIndex, if_pos (List.mem_append_left _ hmem), hindex]
  have htake : (bytesOf "Set-Cookie: " ++ cookie).take 10 = bytesOf "Set-Cookie" := by
    rw [List.take_append_of_le_length (by decide +kernel)]
    decide +kernel
  have hname := (lineField_cutTrailing (by omega : keyIndex (bytesOf "Set-Cookie: " ++ cookie) ≠ 0)).1
  rwa [hkey, htake] at hname

/-- A cookie that is refused changes neither store. -/
theorem setcookie_refused {cookie : Cookie} (h : phpSetcookie cookie = none) (conf : ScriptConf)
    (memory : Memory) (t : ToxicHeaders) (s : SapiHeaders) :
    toxicCall conf memory (.setcookie cookie) t = t ∧
      referenceCall conf (.setcookie cookie) s = s := by
  simp [toxicCall, referenceCall, sapiCall, h]

/-- A cookie that is not refused is added to the reference alone, or the module
crashes. -/
theorem setcookie_disagree {conf : ScriptConf} {t : ToxicHeaders} {s : SapiHeaders}
    (h : Paired t s) (memory : Memory) {cookie : Cookie} {text : Bytes}
    (htext : phpSetcookie cookie = some text) :
    ¬ Agree conf (toxicCall conf memory (.setcookie cookie) t)
      (referenceCall conf (.setcookie cookie) s) := by
  intro hagree
  have hline : bytesOf "Set-Cookie: " ++ text ≠ [] := by
    have : bytesOf "Set-Cookie: " ≠ [] := by decide +kernel
    simp [this]
  by_cases hclean : Clean (cutTrailing (bytesOf "Set-Cookie: " ++ text))
  · have hplain := plain_of_type (cookie_name text) (by decide +kernel)
    have hcookie : referenceCall conf (.setcookie cookie) s
        = referenceCall conf (.header (bytesOf "Set-Cookie: " ++ text) false 0) s := by
      simp only [referenceCall, sapiCall, htext]
    obtain ⟨hlist, hdefault⟩ := referenceCall_plain conf false 0 s hline hclean
      (cookie_not_statusLine text) hplain
    have hlength := hagree.length
    have hlen := h.fields.length_eq
    rw [hcookie, hlist, hdefault, h.default, if_pos rfl] at hlength
    have hsame : (toxicCall conf memory (.setcookie cookie) t).headersOut = t.headersOut := rfl
    simp only [hsame, replaced, List.length_append, List.length_singleton, List.length_map]
      at hlength hlen
    omega
  · obtain ⟨error, herror⟩ := Option.ne_none_iff_exists'.mp
      (fun hnone => hclean ((headerFault_eq_none_iff _).mp hnone))
    have hcrash : (toxicCall conf memory (.setcookie cookie) t).crashed = true := by
      have hzero := headerFault_slot herror
      simp [toxicCall, sapiCall, sapiHeaderOp, htext, hline, herror, hzero]
    rw [hagree.alive] at hcrash
    cases hcrash

/-- **One call** keeps the stores alike when it does the same to both. -/
theorem Paired.step {conf : ScriptConf} {t : ToxicHeaders} {s : SapiHeaders} (h : Paired t s)
    {memory : Memory} {call : HeaderCall} (halike : Alike memory s call) :
    Paired (toxicCall conf memory call t) (referenceCall conf call s) := by
  cases call with
  | header line replace code => exact h.header halike
  | setcookie cookie =>
      obtain ⟨htoxic, hreference⟩ := setcookie_refused halike conf memory t s
      rw [htoxic, hreference]
      exact h
  | headerRemove name =>
      cases name with
      | none =>
          have hnone : s.headers = [] := halike
          have hset : ngxHttpToxicModule .headerHandler ≠ .zero := by decide
          refine ⟨?_, h.status, ?_, h.toxicDefault, h.default, h.keys⟩
          · simp only [toxicCall, sapiCall, sapiHeaderOp, HeaderEnv.handlerCalls, h.alive,
              ScriptConf.headerEnv, hset]
            simp [SapiCall.slot, hset]
          · simpa [toxicCall, referenceCall, sapiCall, sapiHeaderOp, hnone] using h.fields
      | some name =>
          obtain ⟨htoxic, hcrash⟩ := headerRemove_spec (conf.headerEnv ngxHttpToxicModule) name t.sapi
          obtain ⟨hreference, _⟩ := headerRemove_spec (referenceEnv conf) name s
          have hcolon : ¬(name ≠ [] ∧ 58 ∈ (cutTrailing name).takeWhile (· != 0)) := by
            rintro ⟨hne, hmem⟩
            rcases halike with hnil | ⟨hnot, _⟩
            · exact hne hnil
            · exact hnot hmem
          have hsame : referenceCall conf (.headerRemove (some name)) s = s := by
            unfold referenceCall
            rw [hreference]
            split
            next => rfl
            next hcut =>
              rcases halike with hnil | ⟨_, hall⟩
              · exact absurd (Or.inl hnil) hcut
              · rw [removeHeader_eq_self_iff.mpr hall]
          rw [hsame]
          refine ⟨?_, h.status, h.fields, ?_, h.default, h.keys⟩
          · simp only [toxicCall, h.alive, Bool.false_or]
            rw [← Bool.not_eq_true, hcrash]
            exact hcolon
          · simp only [toxicCall, htoxic]
            split
            · exact h.toxicDefault
            · exact h.toxicDefault
  | httpResponseCode code =>
      refine ⟨?_, ?_, ?_, ?_, ?_, h.keys⟩
      · simp [toxicCall, sapiCall, h.alive]
      · simp only [referenceCall, sapiCall, setHttpResponseCode]
        split
        · exact halike
        · exact h.status
      · have hheaders : (referenceCall conf (.httpResponseCode code) s).headers = s.headers := by
          simp only [referenceCall, sapiCall, setHttpResponseCode]
          split
          · rfl
          · rfl
        rw [hheaders]
        exact h.fields
      · simp only [toxicCall, sapiCall, setHttpResponseCode]
        split
        · exact h.toxicDefault
        · exact h.toxicDefault
      · simp only [referenceCall, sapiCall, setHttpResponseCode]
        split
        · exact h.default
        · exact h.default

/-- A removal after which the responses agree finds nothing. -/
theorem removed_alike {t : ToxicHeaders} {s u : SapiHeaders} {conf : ScriptConf}
    {memory : Memory} {call : HeaderCall} (h : Paired t s)
    (hsub : u.headers.Sublist s.headers)
    (hdefault : u.sendDefaultContentType = true)
    (hsame : (toxicCall conf memory call t).headersOut = t.headersOut)
    (hagree : Agree conf (toxicCall conf memory call t) u) : u.headers = s.headers := by
  have hlength := hagree.length
  have hlen := h.fields.length_eq
  rw [hdefault, if_pos rfl, hsame] at hlength
  simp only [List.length_map] at hlen
  exact hsub.eq_of_length (by omega)

/-- **One call** after which the responses agree does the same to both stores. -/
theorem Paired.alike {conf : ScriptConf} {t : ToxicHeaders} {s : SapiHeaders} (h : Paired t s)
    {memory : Memory} {call : HeaderCall}
    (hagree : Agree conf (toxicCall conf memory call t) (referenceCall conf call s)) :
    Alike memory s call := by
  cases call with
  | header line replace code => exact h.alikeHeader hagree
  | setcookie cookie =>
      by_contra hsome
      obtain ⟨text, htext⟩ := Option.ne_none_iff_exists'.mp hsome
      exact setcookie_disagree h memory htext hagree
  | headerRemove name =>
      cases name with
      | none =>
          have hnil : (referenceCall conf (.headerRemove none) s).headers = [] := rfl
          have hdefault : (referenceCall conf (.headerRemove none) s).sendDefaultContentType
              = true := h.default
          have hsub : (referenceCall conf (.headerRemove none) s).headers.Sublist s.headers := by
            rw [hnil]
            exact List.nil_sublist _
          exact (removed_alike h hsub hdefault rfl hagree).symm.trans hnil
      | some name =>
          obtain ⟨_, hcrash⟩ := headerRemove_spec (conf.headerEnv ngxHttpToxicModule) name t.sapi
          obtain ⟨hreference, _⟩ := headerRemove_spec (referenceEnv conf) name s
          have hcolon : ¬(name ≠ [] ∧ 58 ∈ (cutTrailing name).takeWhile (· != 0)) := by
            rw [← hcrash, Bool.not_eq_true]
            have halive := hagree.alive
            simp only [toxicCall, h.alive, Bool.false_or] at halive
            exact halive
          by_cases hname : name = []
          · exact Or.inl hname
          · have hcut : ¬(name = [] ∨
                name ≠ [] ∧ 58 ∈ (cutTrailing name).takeWhile (· != 0)) := by
              rintro (hnil | hmem)
              · exact hname hnil
              · exact hcolon hmem
            rw [if_neg hcut] at hreference
            have hheaders : referenceCall conf (.headerRemove (some name)) s
                = { s with headers := removeHeader (cutTrailing name) s.headers } := hreference
            have hdefault : (referenceCall conf (.headerRemove (some name)) s).sendDefaultContentType
                = true := by
              rw [hheaders]
              exact h.default
            have hsub : (referenceCall conf (.headerRemove (some name)) s).headers.Sublist
                s.headers := by
              rw [hheaders]
              exact List.filter_sublist
            have hsame := removed_alike h hsub hdefault rfl hagree
            rw [hheaders] at hsame
            exact Or.inr ⟨fun hmem => hcolon ⟨hname, hmem⟩, removeHeader_eq_self_iff.mp hsame⟩
  | httpResponseCode code =>
      have hok := (okStatus_iff conf _ _).mp hagree.status
      simp only [referenceCall, sapiCall, setHttpResponseCode] at hok
      by_cases hcode : code = 0
      · rw [hcode]
        exact Or.inl rfl
      · rw [if_pos hcode] at hok
        exact hok

/-- **The two stores agree** — after the calls, and after each of them on the way,
the module answers with the status and the multiset of fields of
`sapi_header_op` — if and only if every call does the same to both. -/
theorem agree_iff (conf : ScriptConf) (calls : List (HeaderCall × Memory)) :
    (∀ made, made <+: calls → Agree conf (toxicCalls conf made) (referenceCalls conf made)) ↔
      AlikeRun conf .fresh calls := by
  have hrun : ∀ (calls : List (HeaderCall × Memory)) (t : ToxicHeaders) (s : SapiHeaders),
      Paired t s →
      ((∀ made, made <+: calls →
        Agree conf (made.foldl (fun t c => toxicCall conf c.2 c.1 t) t)
          (made.foldl (fun s c => referenceCall conf c.1 s) s)) ↔ AlikeRun conf s calls) := by
    intro calls
    induction calls with
    | nil =>
        intro t s h
        simp only [List.prefix_nil, AlikeRun, iff_true]
        rintro made rfl
        exact h.agree conf
    | cons c calls ih =>
        intro t s h
        constructor
        · intro hall
          have halike := h.alike (hall [c] (List.prefix_append [c] calls))
          refine ⟨halike, (ih _ _ (h.step halike)).mp ?_⟩
          intro made hmade
          exact hall (c :: made) (List.prefix_cons_inj c |>.mpr hmade)
        · rintro ⟨halike, hrest⟩ made hmade
          cases made with
          | nil => exact h.agree conf
          | cons d made =>
              obtain ⟨rfl, htail⟩ := List.cons_prefix_cons.mp hmade
              exact (ih _ _ (h.step halike)).mpr hrest made htail
  have hfresh : Paired ⟨[], .fresh, false⟩ .fresh := by
    refine ⟨rfl, Or.inl rfl, ?_, rfl, rfl, ?_⟩
    · exact List.Perm.refl _
    · intro e he
      cases he
  exact hrun calls _ _ hfresh

/-- `header("A: 1"); header("A: 2");` sends both fields, where the second one
replaces the first. -/
theorem replace_disagree :
    ¬ Agree plainConf
      (toxicCalls plainConf
        [(.header (bytesOf "A: 1") true 0, ⟨1, fun _ => 0⟩),
          (.header (bytesOf "A: 2") true 0, ⟨1, fun _ => 0⟩)])
      (referenceCalls plainConf
        [(.header (bytesOf "A: 1") true 0, ⟨1, fun _ => 0⟩),
          (.header (bytesOf "A: 2") true 0, ⟨1, fun _ => 0⟩)]) := by
  intro h
  have hlength := h.length
  revert hlength
  decide +kernel

end Toxic
