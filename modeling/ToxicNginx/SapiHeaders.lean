import Mathlib.Data.List.Infix
import ToxicNginx.HeaderFunction

/-!
# The header list of the SAPI

`sapi_header_op` keeps the header lines of a script in `SG(sapi_headers)`.
`header()` has been taken off it, but `setcookie`, `header_remove` and the
engine itself still go through it.

* `sapiHeaderOp` — one operation: its result, the functions of `sapi_module`
  that are called on the way, and the new `SG(sapi_headers)`;
* `Cookie`, `phpSetcookie` — the cookies of `setcookie` and `setrawcookie`;
* `HeaderCall`, `sapiCall` — the calls of a script, each by the operation that
  stands for it;
* `headerFault_eq_none_iff` — the safety check accepts the clean lines;
* `removeHeader_eq_self_iff` — when nothing is removed with a name.
-/

namespace Toxic

/-- `tolower`. -/
def toLower (c : UInt8) : UInt8 := if 65 ≤ c ∧ c ≤ 90 then c + 32 else c

/-- `isspace`. -/
def isSpace (c : UInt8) : Bool := c == 32 || (9 ≤ c && c ≤ 13)

/-- `STRCASECMP(a, b) == 0`. -/
def eqNoCase (a b : Bytes) : Bool := a.map toLower == b.map toLower

/-- A line without the spaces and line ends at its end. -/
def cutTrailing (line : Bytes) : Bytes := (line.reverse.dropWhile isSpace).reverse

/-- What stands in front of the first colon. -/
def nameOf (line : Bytes) : Option Bytes :=
  if 58 ∈ line then some (line.take (line.idxOf 58)) else none

/-- What stands behind the first colon. -/
def restOf (line : Bytes) : Bytes := line.drop (line.idxOf 58 + 1)

/-- `atoi`: the `int` of what `strtol` makes of a text, which stops at the bounds
of a `long`. -/
def atoi (text : Bytes) : Int32 :=
  let text := text.dropWhile isSpace
  let digits := if text.head? = some 45 ∨ text.head? = some 43 then text.tail else text
  let n := (digits.takeWhile fun c => 48 ≤ c && c ≤ 57).foldl
    (fun (n : Nat) c => n * 10 + (c.toNat - 48)) 0
  let value : Int := if text.head? = some 45 then -n else n
  Int32.ofInt (max (-2 ^ 63) (min (2 ^ 63 - 1) value))

/-- `sapi_extract_response_code`. -/
def sapiExtractResponseCode : Bytes → Int32
  | [] => 200
  | c :: rest =>
      if c = 32 ∧ rest.head? ≠ some 32 then atoi rest else sapiExtractResponseCode rest

/-- `sapi_headers_struct`. -/
structure SapiHeaders where
  headers : List Bytes
  httpResponseCode : Int32
  httpStatusLine : Option Bytes
  mimetype : Option Bytes
  sendDefaultContentType : Bool
  deriving DecidableEq, Repr

/-- What `sapi_activate` leaves. -/
def SapiHeaders.fresh : SapiHeaders := ⟨[], 0, none, none, true⟩

/-- What `sapi_header_op` reads besides: whether `header_handler` is set, and
then whether `SAPI_HEADER_ADD` is in what it returns, and `SG(request_info)`,
`SG(default_charset)` and `SG(default_mimetype)`. -/
structure HeaderEnv where
  handler : Option Bool
  requestMethod : Option Bytes
  protoNum : Nat
  defaultCharset : Bytes
  defaultMimetype : Bytes
  deriving DecidableEq, Repr

/-- The functions of `sapi_module` that `sapi_header_op` calls. -/
inductive SapiCall
  | headerHandler
  | sapiError (message : String)
  deriving DecidableEq, Repr

/-- `sapi_header_op_enum` and its argument; `set` is `SAPI_HEADER_REPLACE` or
`SAPI_HEADER_ADD`, with a `long` for the code. -/
inductive HeaderOp
  | set (replace : Bool) (line : Bytes) (responseCode : Int64)
  | delete (line : Bytes)
  | deleteAll
  | setStatus (code : Int64)
  deriving DecidableEq, Repr

/-- What an operation returns, calls and leaves. -/
structure HeaderResult where
  success : Bool
  calls : List SapiCall
  headers : SapiHeaders
  deriving DecidableEq, Repr

/-- `sapi_update_response_code`. -/
def sapiUpdateResponseCode (code : Int32) (s : SapiHeaders) : SapiHeaders :=
  if s.httpResponseCode = code then s
  else { s with httpStatusLine := none, httpResponseCode := code }

/-- Whether `sapi_remove_header` takes a header line for one with this name. -/
def hasName (name line : Bytes) : Bool :=
  name.length < line.length && (line)[name.length]? == some 58 &&
    eqNoCase (line.take name.length) name

/-- `sapi_remove_header`. -/
def removeHeader (name : Bytes) (headers : List Bytes) : List Bytes :=
  headers.filter fun line => !hasName name line

/-- The call of `header_handler` where it is set. -/
def HeaderEnv.handlerCalls (env : HeaderEnv) : List SapiCall :=
  if env.handler.isSome then [.headerHandler] else []

/-- The lines that stay when a line is added, or replaces those of its name. -/
def replaced (replace : Bool) (line : Bytes) (headers : List Bytes) : List Bytes :=
  match replace, nameOf line with
  | true, some name => removeHeader name headers
  | _, _ => headers

/-- `sapi_header_add_op`. -/
def sapiHeaderAddOp (env : HeaderEnv) (replace : Bool) (line : Bytes) (s : SapiHeaders) :
    HeaderResult :=
  if env.handler = some false then ⟨true, env.handlerCalls, s⟩
  else ⟨true, env.handlerCalls, { s with headers := replaced replace line s.headers ++ [line] }⟩

/-- `sapi_apply_default_charset`: `none` when the type stays as it is. -/
def sapiApplyDefaultCharset (env : HeaderEnv) (mimetype : Bytes) : Option Bytes :=
  if env.defaultCharset ≠ [] ∧ bytesOf "text/" <+: mimetype ∧
      ¬ bytesOf "charset=" <:+: mimetype then
    some (mimetype ++ bytesOf ";charset=" ++ env.defaultCharset)
  else none

/-- The status that a `Location` line asks for. -/
def locationCode (env : HeaderEnv) (responseCode : Int32) : Int32 :=
  if responseCode ≠ 0 then responseCode
  else if 1000 < env.protoNum ∧ env.requestMethod.isSome ∧
      env.requestMethod ≠ some (bytesOf "HEAD") ∧ env.requestMethod ≠ some (bytesOf "GET") then 303
  else 302

/-- The lines that `sapi_header_op` has special support for: the line that is
added, and what else changes. -/
def specialHeader (env : HeaderEnv) (line : Bytes) (responseCode : Int32) (s : SapiHeaders) :
    Bytes × SapiHeaders :=
  match nameOf line with
  | none => (line, s)
  | some name =>
      if eqNoCase name (bytesOf "Content-Type") then
        let mimetype := (restOf line).dropWhile (· == 32)
        let s := { s with sendDefaultContentType := false }
        match sapiApplyDefaultCharset env mimetype with
        | none => (line, { s with mimetype := s.mimetype.or (some mimetype) })
        | some newtype =>
            (bytesOf "Content-type: " ++ newtype,
              { s with mimetype := s.mimetype.or (some newtype) })
      else if eqNoCase name (bytesOf "Location") then
        if (s.httpResponseCode < 300 ∨ 399 < s.httpResponseCode) ∧ s.httpResponseCode ≠ 201 then
          (line, sapiUpdateResponseCode (locationCode env responseCode) s)
        else (line, s)
      else if eqNoCase name (bytesOf "WWW-Authenticate") then
        (line, sapiUpdateResponseCode 401 s)
      else (line, s)

/-- The new line and NUL character safety check: the error of the first byte
that is at fault. -/
def headerFault : Bytes → Option SapiCall
  | [] => none
  | c :: rest =>
      if illegalBreak c (rest.headD 0) then
        some (.sapiError
          "Header may not contain more than a single header, new line detected")
      else if c = 0 then some (.sapiError "Header may not contain NUL bytes")
      else headerFault rest

/-- Whether a line is a status line. -/
def isStatusLine (line : Bytes) : Bool :=
  5 ≤ line.length && eqNoCase (line.take 5) (bytesOf "HTTP/")

/-- `sapi_header_op`; `sent` is `SG(headers_sent) && !SG(request_info).no_headers`. -/
def sapiHeaderOp (env : HeaderEnv) (sent : Bool) (op : HeaderOp) (s : SapiHeaders) :
    HeaderResult :=
  if sent then
    ⟨false, [.sapiError "Cannot modify header information - headers already sent"], s⟩
  else
    match op with
    | .setStatus code => ⟨true, [], sapiUpdateResponseCode code.toInt32 s⟩
    | .deleteAll => ⟨true, env.handlerCalls, { s with headers := [] }⟩
    | .delete line =>
        if line = [] then ⟨false, [], s⟩
        else
          let line := cutTrailing line
          -- `strchr` sees the line up to its first NUL
          if 58 ∈ line.takeWhile (· != 0) then
            ⟨false, [.sapiError "Header to delete may not contain colon."], s⟩
          else ⟨true, env.handlerCalls, { s with headers := removeHeader line s.headers }⟩
    | .set replace line responseCode =>
        if line = [] then ⟨false, [], s⟩
        else
          let line := cutTrailing line
          match headerFault line with
          | some error => ⟨false, [error], s⟩
          | none =>
              if isStatusLine line then
                let s := sapiUpdateResponseCode (sapiExtractResponseCode line) s
                ⟨true, [], { s with httpStatusLine := some line }⟩
              else
                -- the code is an `int` from here on
                let responseCode := responseCode.toInt32
                let special := specialHeader env line responseCode s
                let s := special.2
                let s := if responseCode ≠ 0 then sapiUpdateResponseCode responseCode s else s
                sapiHeaderAddOp env replace special.1 s

/-- A text up to its first NUL byte. -/
def cString (text : Bytes) : Bytes := text.takeWhile (· != 0)

/-- A digit of `hexchars`. -/
def hexChar (n : UInt8) : UInt8 := if n < 10 then 48 + n else 55 + n

/-- `php_url_encode`. -/
def phpUrlEncode (text : Bytes) : Bytes :=
  text.flatMap fun c =>
    if c = 32 then [43]
    else if (c < 48 ∧ c ≠ 45 ∧ c ≠ 46) ∨ (c < 65 ∧ 57 < c) ∨ (90 < c ∧ c < 97 ∧ c ≠ 95) ∨ 122 < c then
      [37, hexChar (c / 16), hexChar (c % 16)]
    else [c]

/-- The arguments of `php_setcookie`, where an empty `path` or `domain` is none.
`urlEncode` tells `setcookie` from `setrawcookie`; `date` is `php_format_date` of
`expires`, and `maxAge` the seconds until then. -/
structure Cookie where
  name : Bytes
  value : Option Bytes
  urlEncode : Bool
  expires : Int64
  date : Bytes
  maxAge : Bytes
  path : Bytes
  domain : Bytes
  secure : Bool
  httponly : Bool
  deriving DecidableEq, Repr

/-- What a name or a raw value may not contain. -/
def cookieStops : Bytes := bytesOf ",; \t\r\n" ++ [11, 12]

/-- Whether the year of a date has at most four digits: behind the last dash. -/
def shortYear (date : Bytes) : Bool :=
  45 ∈ date && (date)[date.length - 1 - date.reverse.idxOf 45 + 5]? == some 32

/-- `php_setcookie` up to the call of `sapi_header_op`: what stands behind
`Set-Cookie: ` in the line, `none` where it refuses the cookie with a warning. -/
def phpSetcookie (c : Cookie) : Option Bytes :=
  let name := cString c.name
  if name.any fun b => b == 61 || b ∈ cookieStops then none
  else if !c.urlEncode && (cString (c.value.getD [])).any (· ∈ cookieStops) then none
  else
    let attributes :=
      (if c.path ≠ [] then bytesOf "; path=" ++ cString c.path else []) ++
        (if c.domain ≠ [] then bytesOf "; domain=" ++ cString c.domain else []) ++
        (if c.secure then bytesOf "; secure" else []) ++
        (if c.httponly then bytesOf "; httponly" else [])
    match c.value with
    | some [] =>
        -- a date in the past deletes the cookie
        some (name ++ bytesOf "=deleted; expires=Thu, 01-Jan-1970 00:00:01 GMT; Max-Age=0" ++
          attributes)
    | value =>
        let text := value.getD []
        let encoded := if c.urlEncode then phpUrlEncode text else cString text
        if 0 < c.expires then
          if shortYear c.date then
            some (name ++ bytesOf "=" ++ encoded ++ bytesOf "; expires=" ++ c.date ++
              bytesOf "; Max-Age=" ++ c.maxAge.take 12 ++ attributes)
          else none
        else some (name ++ bytesOf "=" ++ encoded ++ attributes)

/-- The calls of a script that concern its header fields; a code is a `long`. -/
inductive HeaderCall
  | header (line : Bytes) (replace : Bool) (responseCode : Int64)
  | setcookie (cookie : Cookie)
  | headerRemove (name : Option Bytes)
  | httpResponseCode (code : Int64)
  deriving DecidableEq, Repr

/-- `PHP_FUNCTION(http_response_code)`, which sets the code by itself, an `int`. -/
def setHttpResponseCode (code : Int64) (s : SapiHeaders) : SapiHeaders :=
  if code ≠ 0 then { s with httpResponseCode := code.toInt32 } else s

/-- A call of a script as `sapi_header_op` has it. -/
def sapiCall (env : HeaderEnv) (sent : Bool) (call : HeaderCall) (s : SapiHeaders) :
    HeaderResult :=
  match call with
  | .header line replace responseCode =>
      sapiHeaderOp env sent (.set replace line responseCode) s
  | .setcookie cookie =>
      match phpSetcookie cookie with
      | none => ⟨false, [], s⟩
      | some text => sapiHeaderOp env sent (.set false (bytesOf "Set-Cookie: " ++ text) 0) s
  | .headerRemove none => sapiHeaderOp env sent .deleteAll s
  | .headerRemove (some name) => sapiHeaderOp env sent (.delete name) s
  | .httpResponseCode code => ⟨true, [], setHttpResponseCode code s⟩

/-- Adding a line calls `header_handler` alone. -/
@[simp] theorem sapiHeaderAddOp_calls (env : HeaderEnv) (replace : Bool) (line : Bytes)
    (s : SapiHeaders) : (sapiHeaderAddOp env replace line s).calls = env.handlerCalls := by
  unfold sapiHeaderAddOp
  split
  · rfl
  · rfl

/-- The safety check accepts the clean lines. -/
theorem headerFault_eq_none_iff (line : Bytes) : headerFault line = none ↔ Clean line := by
  induction line with
  | nil => simp [headerFault, Clean, countAdjacent]
  | cons c rest ih =>
      unfold headerFault Clean
      rw [countAdjacent_cons]
      by_cases hbreak : illegalBreak c (rest.headD 0) = true
      · rw [if_pos hbreak, if_pos hbreak]
        constructor
        · intro h
          cases h
        · rintro ⟨_, hcount⟩
          omega
      · rw [if_neg hbreak, if_neg hbreak, Nat.zero_add]
        by_cases hnul : c = 0
        · simp [hnul]
        · rw [if_neg hnul, ih]
          unfold Clean
          simp [Ne.symm hnul]

/-- Nothing is removed when no line has the name. -/
theorem removeHeader_eq_self_iff {name : Bytes} {headers : List Bytes} :
    removeHeader name headers = headers ↔ ∀ line ∈ headers, hasName name line = false := by
  simp [removeHeader, List.filter_eq_self]

/-- The lines that stay are lines of before. -/
theorem replaced_sublist (replace : Bool) (line : Bytes) (headers : List Bytes) :
    (replaced replace line headers).Sublist headers := by
  unfold replaced
  split
  · exact List.filter_sublist
  · exact List.Sublist.refl _

/-- The status changes to the new code. -/
@[simp] theorem sapiUpdateResponseCode_code (code : Int32) (s : SapiHeaders) :
    (sapiUpdateResponseCode code s).httpResponseCode = code := by
  unfold sapiUpdateResponseCode
  split
  next h => exact h
  next => rfl

/-- The status is no header line. -/
@[simp] theorem sapiUpdateResponseCode_headers (code : Int32) (s : SapiHeaders) :
    (sapiUpdateResponseCode code s).headers = s.headers := by
  unfold sapiUpdateResponseCode
  split
  · rfl
  · rfl

/-- The status says nothing about the content type. -/
@[simp] theorem sapiUpdateResponseCode_default (code : Int32) (s : SapiHeaders) :
    (sapiUpdateResponseCode code s).sendDefaultContentType = s.sendDefaultContentType := by
  unfold sapiUpdateResponseCode
  split
  · rfl
  · rfl

/-- Nor about the one that is set. -/
@[simp] theorem sapiUpdateResponseCode_mimetype (code : Int32) (s : SapiHeaders) :
    (sapiUpdateResponseCode code s).mimetype = s.mimetype := by
  unfold sapiUpdateResponseCode
  split
  · rfl
  · rfl

/-- Cutting the end off leaves the beginning. -/
theorem cutTrailing_isPrefix (line : Bytes) : cutTrailing line <+: line := by
  have hsuffix : line.reverse.dropWhile isSpace <:+ line.reverse := List.dropWhile_suffix _
  unfold cutTrailing
  rw [← List.reverse_suffix, List.reverse_reverse]
  exact hsuffix

/-- A status line begins with an H. -/
theorem isStatusLine_head {c : UInt8} {line rest : Bytes} (hline : line <+: c :: rest)
    (h : isStatusLine line = true) : toLower c = 104 := by
  cases line with
  | nil => simp [isStatusLine] at h
  | cons d ds =>
      obtain rfl : d = c := by
        obtain ⟨t, ht⟩ := hline
        exact (List.cons.inj ht).1
      simp only [isStatusLine, eqNoCase, Bool.and_eq_true, beq_iff_eq, List.take_succ_cons,
        List.map_cons] at h
      have hhead := congrArg List.head? h.2
      rw [List.head?_cons] at hhead
      have hhttp : (List.map toLower (bytesOf "HTTP/")).head? = some 104 := by decide +kernel
      rw [hhttp] at hhead
      exact Option.some.inj hhead

/-- The line of a cookie is no status line. -/
theorem cookie_not_statusLine (cookie : Bytes) :
    isStatusLine (cutTrailing (bytesOf "Set-Cookie: " ++ cookie)) = false := by
  by_contra hstatus
  rw [Bool.not_eq_false] at hstatus
  have hhead : bytesOf "Set-Cookie: " ++ cookie
      = 83 :: ((bytesOf "Set-Cookie: ").tail ++ cookie) := by
    have : bytesOf "Set-Cookie: " = 83 :: (bytesOf "Set-Cookie: ").tail := by decide +kernel
    rw [← List.cons_append, ← this]
  have hpre := cutTrailing_isPrefix (bytesOf "Set-Cookie: " ++ cookie)
  rw [hhead] at hpre hstatus
  have := isStatusLine_head hpre hstatus
  revert this
  decide

end Toxic
