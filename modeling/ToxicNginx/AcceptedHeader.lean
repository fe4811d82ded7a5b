import ToxicNginx.MessageHead
import ToxicNginx.RenderedHeader

/-!
# A header that is accepted

What `ngx_http_process_request_line` and `ngx_http_process_request_headers` let
through to the handlers, for any bytes that a client sends.

* `FieldRead`, `FieldInv`, `fieldByte_inv` — what `ngx_http_parse_header_line`
  knows in each of its states, and the step lemma;
* `HostText`, `validateHost_valid` — a host that is accepted;
* `FieldText`, `HeadersKept`, `processField_kept` — the list of fields, and the
  pointers into it by name;
* `HeadKnown`, `headByte_known` — the whole parsing, byte by byte;
* `WellFormedHeader`, `header_wellFormed` — the header that is accepted.
-/

namespace Toxic

/-! ## A line -/

/-- A character of a name that makes no header invalid. -/
def NameByte (underscores : Bool) (ch : UInt8) : Prop :=
  lowcase ch ≠ 0 ∨ (underscores = true ∧ ch = 95)

/-- A name has been read as far as `e`. -/
structure NameRead (underscores : Bool) (mem : Nat → UInt8) (f : FieldLine) (e : Nat) : Prop where
  lt : f.nameStart < e
  clean : ∀ k, f.nameStart ≤ k → k < e → UriByte (mem k)
  valid : f.invalid = false → ∀ k, f.nameStart ≤ k → k < e → NameByte underscores (mem k)

/-- The bytes from one place to another are of one line, with no space at the
ends. -/
structure ValueRead (mem : Nat → UInt8) (first last : Nat) : Prop where
  le : first ≤ last
  clean : ∀ k, first ≤ k → k < last → UriByte (mem k)
  trimmed : first < last → mem first ≠ space ∧ mem (last - 1) ≠ space

/-- A field that has been read in front of `p`. -/
structure FieldRead (underscores : Bool) (mem : Nat → UInt8) (f : FieldLine) (p : Nat) : Prop where
  name : NameRead underscores mem f f.nameEnd
  order : f.nameEnd ≤ f.valueStart
  value : ValueRead mem f.valueStart f.valueEnd
  before : f.valueEnd < p

/-- What `ngx_http_parse_header_line` knows in front of the byte at `p`. -/
def FieldInv (underscores : Bool) (mem : Nat → UInt8) (f : FieldLine) (p : Nat) : Prop :=
  match f.state with
  | .start | .headerAlmostDone => True
  | .name => NameRead underscores mem f p
  | .spaceBeforeValue => NameRead underscores mem f f.nameEnd ∧ f.nameEnd < p
  | .value =>
      NameRead underscores mem f f.nameEnd ∧ f.nameEnd ≤ f.valueStart ∧ f.valueStart < p ∧
        ValueRead mem f.valueStart p
  | .spaceAfterValue =>
      FieldRead underscores mem f p ∧ f.valueStart < f.valueEnd ∧
        ∀ k, f.valueStart ≤ k → k < p → UriByte (mem k)
  | .almostDone => FieldRead underscores mem f p

/-- What one byte leaves. -/
def FieldStepInv (underscores : Bool) (mem : Nat → UInt8) (p : Nat) : FieldStep → Prop
  | .next f => FieldInv underscores mem f (p + 1)
  | .done f => FieldRead underscores mem f (p + 1)
  | .headerDone | .error => True

variable {underscores : Bool} {mem : Nat → UInt8} {f : FieldLine} {p : Nat}

/-- Bytes of one line, and one more. -/
theorem clean_succ {first : Nat} (h : ∀ k, first ≤ k → k < p → UriByte (mem k))
    (hch : UriByte (mem p)) : ∀ k, first ≤ k → k < p + 1 → UriByte (mem k) := by
  intro k hlow hhigh
  rcases Nat.lt_succ_iff_lt_or_eq.mp hhigh with hlt | rfl
  · exact h k hlow hlt
  · exact hch

/-- A name that is begun or goes on. -/
theorem nameByte_inv {g : FieldLine} (hstate : g.state = .name) (hle : g.nameStart ≤ p)
    (hclean : ∀ k, g.nameStart ≤ k → k < p → UriByte (mem k))
    (hvalid : g.invalid = false → ∀ k, g.nameStart ≤ k → k < p → NameByte underscores (mem k))
    (hcr : mem p ≠ cr) (hlf : mem p ≠ lf) :
    FieldStepInv underscores mem p (nameByte underscores g (mem p)) := by
  have hread : mem p ≠ 0 → ∀ g' : FieldLine, g'.state = .name → g'.nameStart = g.nameStart →
      (g'.invalid = false → g.invalid = false ∧ NameByte underscores (mem p)) →
      FieldStepInv underscores mem p (.next g') := by
    intro hnul g' hs hstart hinvalid
    simp only [FieldStepInv, FieldInv, hs]
    refine ⟨by omega, ?_, ?_⟩
    · rw [hstart]
      exact clean_succ hclean ⟨hnul, hcr, hlf⟩
    · intro hgood k hlow hhigh
      obtain ⟨hold, hbyte⟩ := hinvalid hgood
      rcases Nat.lt_succ_iff_lt_or_eq.mp hhigh with hlt | rfl
      · exact hvalid hold k (hstart ▸ hlow) hlt
      · exact hbyte
  unfold nameByte
  split_ifs with hlow hunderscore hallowed hnul
  · refine hread (fun h0 => hlow ?_) g hstate rfl fun hgood => ⟨hgood, Or.inl hlow⟩
    rw [h0]
    decide
  · refine hread ?_ g hstate rfl fun hgood => ⟨hgood, Or.inr ⟨hallowed, hunderscore⟩⟩
    rw [hunderscore]
    decide
  · refine hread ?_ _ hstate rfl fun hgood => nomatch hgood
    rw [hunderscore]
    decide
  · trivial
  · exact hread hnul _ hstate rfl fun hgood => nomatch hgood

/-- A name that has been read, in another record. -/
theorem NameRead.of_eq {g : FieldLine} {e : Nat} (h : NameRead underscores mem f e)
    (hstart : g.nameStart = f.nameStart) (hinvalid : g.invalid = f.invalid) :
    NameRead underscores mem g e := by
  refine ⟨?_, ?_, ?_⟩
  · rw [hstart]
    exact h.lt
  · rw [hstart]
    exact h.clean
  · rw [hstart, hinvalid]
    exact h.valid

/-- A value of no bytes. -/
theorem ValueRead.empty (mem : Nat → UInt8) (k : Nat) : ValueRead mem k k :=
  ⟨le_refl k, fun _ hlow hhigh => absurd hlow (by omega), fun h => absurd h (lt_irrefl k)⟩

/-- The state of the parser does not matter for a field that has been read. -/
theorem FieldRead.to (h : FieldRead underscores mem f p) (state : FieldState) :
    FieldRead underscores mem (f.to state) p :=
  ⟨h.name.of_eq rfl rfl, h.order, h.value, h.before⟩

theorem FieldRead.succ (h : FieldRead underscores mem f p) : FieldRead underscores mem f (p + 1) :=
  ⟨h.name, h.order, h.value, Nat.lt_succ_of_lt h.before⟩

/-- The end of a line, for a field that has been read. -/
theorem lineEndByte_inv {g : FieldLine} (h : FieldRead underscores mem g (p + 1)) (ch : UInt8)
    {other : FieldStep}
    (hother : ch ≠ cr → ch ≠ lf → ch ≠ 0 → FieldStepInv underscores mem p other) :
    FieldStepInv underscores mem p (lineEndByte g ch other) := by
  unfold lineEndByte
  split_ifs with hcr hlf hnul
  · exact h.to .almostDone
  · exact h
  · trivial
  · exact hother hcr hlf hnul

/-- **Step lemma.**  A byte keeps what the parser of a line knows. -/
theorem fieldByte_inv (h : FieldInv underscores mem f p) :
    FieldStepInv underscores mem p (fieldByte underscores f p (mem p)) := by
  have hnone : FieldStepInv underscores mem p .error := trivial
  cases hs : f.state <;> simp only [FieldInv, hs] at h <;> simp only [fieldByte, hs]
  case start =>
    split_ifs with hcr hlf
    · trivial
    · trivial
    · refine nameByte_inv rfl (le_refl p) ?_ ?_ hcr hlf
      · exact fun k hlow hhigh => absurd (show p ≤ k from hlow) (by omega)
      · exact fun _ k hlow hhigh => absurd (show p ≤ k from hlow) (by omega)
  case name =>
    split_ifs with hcolon hend
    · exact ⟨h.of_eq rfl rfl, Nat.lt_succ_self p⟩
    · have hread : FieldRead underscores mem { f with nameEnd := p, valueStart := p, valueEnd := p }
          (p + 1) := ⟨h.of_eq rfl rfl, le_refl p, .empty mem p, Nat.lt_succ_self p⟩
      have := lineEndByte_inv hread (mem p) (fun _ _ _ => hnone)
      rwa [hs] at this
    · rw [not_or] at hend
      exact nameByte_inv hs h.lt.le h.clean h.valid hend.1 hend.2
  case spaceBeforeValue =>
    obtain ⟨hname, hlt⟩ := h
    split_ifs with hspace hend hnul
    · simp only [FieldStepInv, FieldInv, hs]
      exact ⟨hname, Nat.lt_succ_of_lt hlt⟩
    · have hread : FieldRead underscores mem { f with valueStart := p, valueEnd := p } (p + 1) :=
        ⟨hname.of_eq rfl rfl, hlt.le, .empty mem p, Nat.lt_succ_self p⟩
      have := lineEndByte_inv hread (mem p) (fun _ _ _ => hnone)
      rwa [hs] at this
    · trivial
    · rw [not_or] at hend
      have hone : ∀ k, p ≤ k → k < p + 1 → UriByte (mem k) :=
        clean_succ (fun k hlow hhigh => absurd hlow (by omega)) ⟨hnul, hend.1, hend.2⟩
      refine ⟨hname.of_eq rfl rfl, hlt.le, Nat.lt_succ_self p, Nat.le_succ p, hone, fun _ => ?_⟩
      exact ⟨hspace, hspace⟩
  case value =>
    obtain ⟨hname, horder, hlt, hvalue⟩ := h
    split_ifs with hspace hend hnul
    · have hclean : UriByte (mem p) := by
        rw [hspace]
        unfold UriByte
        decide
      exact ⟨⟨hname.of_eq rfl rfl, horder, hvalue, Nat.lt_succ_self p⟩, hlt,
        clean_succ hvalue.clean hclean⟩
    · have hread : FieldRead underscores mem { f with valueEnd := p } (p + 1) :=
        ⟨hname.of_eq rfl rfl, horder, hvalue, Nat.lt_succ_self p⟩
      have := lineEndByte_inv hread (mem p) (fun _ _ _ => hnone)
      rwa [hs] at this
    · trivial
    · rw [not_or] at hend
      simp only [FieldStepInv, FieldInv, hs]
      refine ⟨hname, horder, Nat.lt_succ_of_lt hlt, Nat.le_succ_of_le hvalue.le,
        clean_succ hvalue.clean ⟨hnul, hend.1, hend.2⟩, fun _ => ?_⟩
      exact ⟨(hvalue.trimmed hlt).1, hspace⟩
  case spaceAfterValue =>
    obtain ⟨hread, hlt, hclean⟩ := h
    split_ifs with hspace
    · have hbyte : UriByte (mem p) := by
        rw [hspace]
        unfold UriByte
        decide
      simp only [FieldStepInv, FieldInv, hs]
      exact ⟨hread.succ, hlt, clean_succ hclean hbyte⟩
    · refine lineEndByte_inv hread.succ (mem p) fun hcr hlf hnul => ?_
      have hstart : f.valueStart < p := lt_trans hlt hread.before
      refine ⟨hread.name.of_eq rfl rfl, hread.order, Nat.lt_succ_of_lt hstart,
        Nat.le_succ_of_le hstart.le, clean_succ hclean ⟨hnul, hcr, hlf⟩, fun _ => ?_⟩
      exact ⟨(hread.value.trimmed hlt).1, hspace⟩
  case almostDone =>
    split_ifs
    · exact h.succ
    · simp only [FieldStepInv, FieldInv, hs]
      exact h.succ
    · trivial
  case headerAlmostDone =>
    split_ifs <;> trivial

/-! ## The host -/

/-- A dot does not follow a dot. -/
def DotApart (x y : UInt8) : Prop := ¬(x = dot ∧ y = dot)

/-- A host that can be part of a path: not empty, in lower case, with no slash, no
NUL and no two dots together. -/
structure HostText (host : Bytes) : Prop where
  nonempty : host ≠ []
  clean : ∀ ch ∈ host, ch ≠ 0 ∧ ch ≠ slash ∧ ¬(65 ≤ ch ∧ ch ≤ 90)
  apart : host.IsChain DotApart

/-- **Run lemma.**  The loop goes to the end over bytes that a host may have. -/
theorem hostScan_valid {s t : HostScan} {i : Nat} {text : Bytes} (h : hostScan s i text = some t) :
    (∀ ch ∈ text, ch ≠ 0 ∧ ch ≠ slash) ∧ text.IsChain DotApart ∧
      (i ≠ 0 → s.dotPos = some (i - 1) → text.head? ≠ some dot) := by
  induction text generalizing s i with
  | nil => simp
  | cons ch rest ih =>
      obtain ⟨s', hbyte, hrest⟩ := Option.bind_eq_some_iff.mp h
      obtain ⟨hclean, hapart, hfirst⟩ := ih hrest
      have hdot : ch = dot → s'.dotPos = some i ∧ ¬(i ≠ 0 ∧ s.dotPos = some (i - 1)) := by
        rintro rfl
        rw [hostScanByte, if_pos rfl] at hbyte
        split_ifs at hbyte with hbefore
        obtain rfl := Option.some.inj hbyte
        exact ⟨rfl, hbefore⟩
      have hbad : ch ≠ 0 ∧ ch ≠ slash := by
        have h0 : hostScanByte s i 0 = none := rfl
        have hslash : hostScanByte s i slash = none := rfl
        constructor <;> rintro rfl
        · cases h0.symm.trans hbyte
        · cases hslash.symm.trans hbyte
      refine ⟨?_, ?_, ?_⟩
      · intro c hc
        rcases List.mem_cons.mp hc with rfl | hc
        · exact hbad
        · exact hclean c hc
      · refine List.isChain_cons.mpr ⟨fun y hy => ?_, hapart⟩
        rintro ⟨hch, rfl⟩
        exact hfirst (Nat.succ_ne_zero i) (hdot hch).1 hy
      · intro hi hpos hhead
        exact (hdot (Option.some.inj hhead)).2 ⟨hi, hpos⟩

/-- A letter in lower case is no letter in upper case, and no other byte that
matters here. -/
theorem ngxTolower_of_upper {ch : UInt8} (h : 65 ≤ ch ∧ ch ≤ 90) :
    ngxTolower ch ∈ bytesOf "abcdefghijklmnopqrstuvwxyz" := by
  have hlow := UInt8.le_iff_toNat_le.mp h.1
  have hhigh := UInt8.le_iff_toNat_le.mp h.2
  simp only [UInt8.reduceToNat] at hlow hhigh
  rw [← UInt8.ofNat_toNat (x := ch)]
  generalize ch.toNat = n at hlow hhigh
  interval_cases n <;> decide +kernel

theorem ngxTolower_clean (ch : UInt8) :
    (ngxTolower ch = 0 → ch = 0) ∧ (ngxTolower ch = slash → ch = slash) ∧
      (ngxTolower ch = dot → ch = dot) ∧ ¬(65 ≤ ngxTolower ch ∧ ngxTolower ch ≤ 90) := by
  by_cases hupper : 65 ≤ ch ∧ ch ≤ 90
  · have hmem := ngxTolower_of_upper hupper
    have hletters : ∀ c ∈ bytesOf "abcdefghijklmnopqrstuvwxyz",
        c ≠ 0 ∧ c ≠ slash ∧ c ≠ dot ∧ ¬(65 ≤ c ∧ c ≤ 90) := by decide +kernel
    obtain ⟨hnul, hslash, hdot, hlower⟩ := hletters _ hmem
    exact ⟨fun h => absurd h hnul, fun h => absurd h hslash, fun h => absurd h hdot, hlower⟩
  · have hsame : ngxTolower ch = ch := if_neg hupper
    rw [hsame]
    exact ⟨id, id, id, hupper⟩

/-- **A host that is accepted.** -/
theorem validateHost_valid {text host : Bytes} (h : validateHost text = some host) :
    HostText host := by
  obtain ⟨s, hscan, h⟩ := Option.bind_eq_some_iff.mp h
  obtain ⟨hclean, hapart, -⟩ := hostScan_valid hscan
  have hne : text ≠ [] := by
    rintro rfl
    obtain rfl := Option.some.inj hscan
    cases h
  dsimp only at h
  generalize (if s.hostLen ≠ 0 ∧ s.dotPos = some (s.hostLen - 1) then s.hostLen - 1
    else s.hostLen) = n at h
  split_ifs at h with hn
  obtain rfl := Option.some.inj h
  refine ⟨?_, ?_, ?_⟩
  · simp [List.take_eq_nil_iff, hn, hne]
  · intro ch hch
    obtain ⟨c, hc, rfl⟩ := List.mem_map.mp hch
    obtain ⟨hnul, hslash⟩ := hclean c (List.mem_of_mem_take hc)
    obtain ⟨h0, h1, -, h3⟩ := ngxTolower_clean c
    exact ⟨fun he => hnul (h0 he), fun he => hslash (h1 he), h3⟩
  · refine List.isChain_map_of_isChain ngxTolower ?_ (hapart.take n)
    rintro x y hxy ⟨hx, hy⟩
    exact hxy ⟨(ngxTolower_clean x).2.2.1 hx, (ngxTolower_clean y).2.2.1 hy⟩

/-! ## The fields -/

/-- A field in the list: a name and a value of one line each.  With
`ignore_invalid_headers` the name is made of the characters of a name. -/
structure FieldText (conf : HeaderConf) (field : Bytes × Bytes) : Prop where
  nonempty : field.1 ≠ []
  name : ∀ ch ∈ field.1, UriByte ch
  token : conf.ignoreInvalid = true → ∀ ch ∈ field.1, NameByte conf.underscores ch
  value : ProperValue field.2

/-- The value of a field that has been read. -/
theorem ValueRead.proper {first last : Nat} (h : ValueRead mem first last) :
    ProperValue (slice mem first last) := by
  obtain ⟨hle, hclean, htrimmed⟩ := h
  refine ⟨fun ch hch => ?_, ?_, ?_⟩
  · obtain ⟨k, hlow, hhigh, rfl⟩ := mem_slice.mp hch
    exact hclean k hlow hhigh
  · rcases Nat.eq_or_lt_of_le hle with rfl | hlt
    · simp
    · rw [slice_cons mem hlt, List.head?_cons]
      exact fun hs => (htrimmed hlt).1 (Option.some.inj hs)
  · rcases Nat.eq_or_lt_of_le hle with rfl | hlt
    · simp
    · obtain ⟨k, rfl⟩ : ∃ k, last = k + 1 := ⟨last - 1, by omega⟩
      rw [slice_succ mem (by omega), List.getLast?_concat]
      exact fun hs => (htrimmed hlt).2 (Option.some.inj hs)

/-- A field that is pushed. -/
theorem FieldRead.text {conf : HeaderConf} (h : FieldRead conf.underscores mem f p)
    (hkept : (f.invalid && conf.ignoreInvalid) = false) :
    FieldText conf (slice mem f.nameStart f.nameEnd, slice mem f.valueStart f.valueEnd) where
  nonempty := by
    intro hnil
    have hlength := congrArg List.length hnil
    have hlt := h.name.lt
    simp only [slice_length, List.length_nil] at hlength
    omega
  name ch hch := by
    obtain ⟨k, hlow, hhigh, rfl⟩ := mem_slice.mp hch
    exact h.name.clean k hlow hhigh
  token hignore ch hch := by
    obtain ⟨k, hlow, hhigh, rfl⟩ := mem_slice.mp hch
    rw [hignore, Bool.and_true] at hkept
    exact h.name.valid hkept k hlow hhigh
  value := h.value.proper

/-- The name of a field in lower case. -/
def fieldName (field : Bytes × Bytes) : Bytes := field.1.map ngxTolower

/-- The handlers that set a pointer to the first field of their name. -/
def FieldHandler.stores : FieldHandler → Bool
  | .host | .unique | .first => true
  | .connection | .multi => false

/-- The name has a handler that sets a pointer. -/
def Pointed (name : Bytes) : Prop := (headersInTable.lookup name).any FieldHandler.stores = true

/-- The value of the first field of a name. -/
def firstValue (fields : List (Bytes × Bytes)) (name : Bytes) : Option Bytes :=
  (fields.find? fun field => fieldName field == name).map (·.2)

theorem store_lookup (h : HeadersIn) (name value other : Bytes) :
    (h.store name value).stored.lookup other
      = (h.stored.lookup other).or (if other = name then some value else none) := by
  unfold HeadersIn.store
  by_cases hname : other = name
  · subst hname
    cases hold : h.stored.lookup other with
    | none => simp [List.lookup_append, hold]
    | some old => simp [hold]
  · rw [if_neg hname, Option.or_none]
    split
    · rfl
    · have hne : (other == name) = false := beq_eq_false_iff_ne.mpr hname
      simp [List.lookup_append, List.lookup_cons, hne]

/-- What handling a field does. -/
structure FieldHandled (h h' : HeadersIn) (field : Bytes × Bytes) : Prop where
  headers : h'.headers = h.headers ++ [field]
  stored : ∀ name, Pointed name → h'.stored.lookup name
    = (h.stored.lookup name).or (if name = fieldName field then some field.2 else none)
  unique : headersInTable.lookup (fieldName field) = some .unique →
    h.stored.lookup (fieldName field) = none
  host : headersInTable.lookup (fieldName field) = some .host → (validateHost field.2).isSome = true
  server : h'.server = h.server ∨ validateHost field.2 = some h'.server

/-- **Spec of `processField`.** -/
theorem processField_handled {h h' : HeadersIn} {field : Bytes × Bytes}
    (hfield : processField h field = some h') : FieldHandled h h' field := by
  have hname : field.1.map ngxTolower = fieldName field := rfl
  simp only [processField, hname] at hfield
  -- a name whose handler sets no pointer is not the name of one that does
  have hother : ∀ handler, headersInTable.lookup (fieldName field) = handler →
      handler.any FieldHandler.stores = false → ∀ name, Pointed name → name ≠ fieldName field := by
    rintro handler hlookup hnot name hstored rfl
    rw [Pointed, hlookup, hnot] at hstored
    cases hstored
  have hpassed : ∀ handler, headersInTable.lookup (fieldName field) = handler →
      handler.any FieldHandler.stores = false → ∀ g : HeadersIn, g.headers = h.headers ++ [field] →
      g.stored = h.stored → g.server = h.server → FieldHandled h g field := by
    intro handler hlookup hnot g hheaders hstored hserver
    refine ⟨hheaders, fun name hs => ?_, fun hu => ?_, fun hh => ?_, Or.inl hserver⟩
    · rw [if_neg (hother handler hlookup hnot name hs), Option.or_none, hstored]
    · rw [← hlookup, hu] at hnot
      cases hnot
    · rw [← hlookup, hh] at hnot
      cases hnot
  have hstore : ∀ name, ((⟨h.headers ++ [field], h.stored, h.server, h.connectionType⟩ :
      HeadersIn).store (fieldName field) field.2).stored.lookup name
        = (h.stored.lookup name).or (if name = fieldName field then some field.2 else none) :=
    fun name => store_lookup _ _ _ name
  have hkeep : ((⟨h.headers ++ [field], h.stored, h.server, h.connectionType⟩ :
      HeadersIn).store (fieldName field) field.2).headers = h.headers ++ [field] ∧
      ((⟨h.headers ++ [field], h.stored, h.server, h.connectionType⟩ :
        HeadersIn).store (fieldName field) field.2).server = h.server := by
    unfold HeadersIn.store
    split <;> exact ⟨rfl, rfl⟩
  cases hlookup : headersInTable.lookup (fieldName field) with
  | none =>
      rw [hlookup] at hfield
      obtain rfl := Option.some.inj hfield
      exact hpassed none hlookup rfl _ rfl rfl rfl
  | some handler =>
      rw [hlookup] at hfield
      cases handler with
      | host =>
          obtain ⟨host, hhost, rfl⟩ := Option.map_eq_some_iff.mp hfield
          have hno : some FieldHandler.host = some .unique → h.stored.lookup (fieldName field)
              = none := fun hu => by cases hu
          split_ifs
          · exact ⟨hkeep.1, fun name _ => hstore name, fun hu => hno (hlookup.symm.trans hu),
              fun _ => by rw [hhost]; rfl, Or.inl hkeep.2⟩
          · exact ⟨hkeep.1, fun name _ => hstore name, fun hu => hno (hlookup.symm.trans hu),
              fun _ => by rw [hhost]; rfl, Or.inr hhost⟩
      | connection =>
          obtain rfl := Option.some.inj hfield
          refine hpassed _ hlookup rfl _ ?_ ?_ ?_ <;> split_ifs <;> rfl
      | unique =>
          have hnone : h.stored.lookup (fieldName field) = none := by
            by_contra hsome
            have : (h.stored.lookup (fieldName field)).isSome = true :=
              Option.isSome_iff_ne_none.mpr hsome
            simp [this] at hfield
          simp only [hnone, Option.isSome_none, Bool.false_eq_true, if_false] at hfield
          obtain rfl := Option.some.inj hfield
          refine ⟨hkeep.1, fun name _ => hstore name, fun _ => hnone, fun hh => ?_, Or.inl hkeep.2⟩
          rw [hlookup] at hh
          cases hh
      | first =>
          obtain rfl := Option.some.inj hfield
          refine ⟨hkeep.1, fun name _ => hstore name, fun hu => ?_, fun hh => ?_, Or.inl hkeep.2⟩
          · rw [hlookup] at hu
            cases hu
          · rw [hlookup] at hh
            cases hh
      | multi =>
          obtain rfl := Option.some.inj hfield
          exact hpassed _ hlookup rfl _ rfl rfl rfl

/-- What the list of fields and the pointers into it satisfy after every field. -/
structure HeadersKept (conf : HeaderConf) (h : HeadersIn) : Prop where
  fields : ∀ field ∈ h.headers, FieldText conf field
  stored : ∀ name, Pointed name → h.stored.lookup name = firstValue h.headers name
  once : ∀ name, headersInTable.lookup name = some .unique →
    (h.headers.countP fun field => fieldName field == name) ≤ 1
  hosts : ∀ field ∈ h.headers, headersInTable.lookup (fieldName field) = some .host →
    (validateHost field.2).isSome = true
  server : h.server = [] ∨ HostText h.server

theorem firstValue_append (fields : List (Bytes × Bytes)) (field : Bytes × Bytes) (name : Bytes) :
    firstValue (fields ++ [field]) name
      = (firstValue fields name).or (if name = fieldName field then some field.2 else none) := by
  unfold firstValue
  rw [List.find?_append, Option.map_or, List.find?_singleton]
  by_cases hname : name = fieldName field
  · simp [hname]
  · have hne : (fieldName field == name) = false := beq_eq_false_iff_ne.mpr (Ne.symm hname)
    simp [hname, hne]

/-- No field has a name without a first value. -/
theorem count_of_firstValue {fields : List (Bytes × Bytes)} {name : Bytes}
    (h : firstValue fields name = none) :
    (fields.countP fun field => fieldName field == name) = 0 := by
  rw [firstValue, Option.map_eq_none_iff, List.find?_eq_none] at h
  exact List.countP_eq_zero.mpr h

/-- **Step lemma.**  A field is handled. -/
theorem processField_kept {conf : HeaderConf} {h h' : HeadersIn} {field : Bytes × Bytes}
    (hkept : HeadersKept conf h) (htext : FieldText conf field)
    (hfield : processField h field = some h') : HeadersKept conf h' := by
  have hhandled := processField_handled hfield
  refine ⟨fun g hg => ?_, fun name hname => ?_, fun name hunique => ?_, fun g hg hhost => ?_, ?_⟩
  · rw [hhandled.headers] at hg
    rcases List.mem_append.mp hg with hold | hnew
    · exact hkept.fields g hold
    · obtain rfl := List.mem_singleton.mp hnew
      exact htext
  · rw [hhandled.stored name hname, hkept.stored name hname, hhandled.headers, firstValue_append]
  · have hold := hkept.once name hunique
    rw [hhandled.headers, List.countP_append, List.countP_singleton]
    split_ifs with hname
    · obtain rfl := eq_of_beq hname
      have hpointed : Pointed (fieldName field) := by
        rw [Pointed, hunique]
        rfl
      have hnone := hhandled.unique hunique
      rw [hkept.stored _ hpointed] at hnone
      rw [count_of_firstValue hnone]
    · exact hold
  · rw [hhandled.headers] at hg
    rcases List.mem_append.mp hg with hold | hnew
    · exact hkept.hosts g hold hhost
    · obtain rfl := List.mem_singleton.mp hnew
      exact hhandled.host hhost
  · rcases hhandled.server with hsame | hhost
    · rw [hsame]
      exact hkept.server
    · exact Or.inr (validateHost_valid hhost)

/-! ## The length of the body -/

/-- The length that a field announces: the number of its digits as an `off_t`,
which is not negative. -/
def AnnouncedLength (text : Bytes) (n : Int) : Prop :=
  ∃ v, readLength text = some v ∧ n = offT v ∧ 0 ≤ n

theorem atoofLoop_value {text : Bytes} {v : Nat} {value n : Int} (hvalue : value = offT v)
    (h : atoofLoop value text = some n) :
    (∀ ch ∈ text, 48 ≤ ch ∧ ch ≤ 57) ∧
      n = offT (text.foldl (fun n ch => 10 * n + (ch.toNat - 48)) v : Nat) := by
  induction text generalizing v value with
  | nil =>
      obtain rfl := Option.some.inj h
      exact ⟨fun _ hch => absurd hch List.not_mem_nil, hvalue⟩
  | cons ch rest ih =>
      rw [atoofLoop] at h
      split_ifs at h with hdigit
      rw [not_or, UInt8.not_lt, UInt8.not_lt] at hdigit
      have hlow := UInt8.le_iff_toNat_le.mp hdigit.1
      simp only [UInt8.reduceToNat] at hlow
      have hnext : offT (value * 10 + (ch.toNat - 48))
          = offT ((10 * v + (ch.toNat - 48) : Nat)) := by
        rw [hvalue, Nat.mul_comm]
        unfold offT
        push_cast [hlow]
        rw [← Int.bmod_add_bmod, Int.bmod_mul_bmod, Int.bmod_add_bmod]
      obtain ⟨hrest, hn⟩ := ih hnext h
      refine ⟨fun c hc => ?_, hn⟩
      rcases List.mem_cons.mp hc with rfl | hc
      · exact hdigit
      · exact hrest c hc

theorem atoof_announced {text : Bytes} {n : Int} (h : atoof text = some n) :
    AnnouncedLength text n := by
  unfold atoof at h
  split_ifs at h with hne
  obtain ⟨value, hloop, h⟩ := Option.bind_eq_some_iff.mp h
  split_ifs at h with hneg
  obtain rfl := Option.some.inj h
  obtain ⟨hdigits, hvalue⟩ := atoofLoop_value (v := 0) rfl hloop
  exact ⟨_, if_pos ⟨hne, hdigits⟩, hvalue, by omega⟩

/-! ## The header -/

/-- A header that is accepted. -/
structure WellFormedHeader (conf : HeaderConf) (h : ParsedHeader) : Prop where
  path : NormalPath conf.mergeSlashes h.uri.uri ∧ 0 ∉ h.uri.uri
  kept : HeadersKept conf h.headersIn
  /-- A request of HTTP/1.1 has a host. -/
  host : 1000 < h.line.httpVersion →
    (firstValue h.headersIn.headers (bytesOf "host")).isSome = true
  /-- Without a coding of its own the body has the announced length, or none. -/
  length : h.chunked = false →
    (firstValue h.headersIn.headers (bytesOf "content-length") = none ∧ h.contentLengthN = -1) ∨
    ∃ text, firstValue h.headersIn.headers (bytesOf "content-length") = some text ∧
      AnnouncedLength text h.contentLengthN
  /-- A chunked body has no announced length. -/
  chunked : h.chunked = true → h.contentLengthN = -1 ∧
    ∃ text, firstValue h.headersIn.headers (bytesOf "transfer-encoding") = some text ∧
      text.map ngxTolower = bytesOf "chunked"

/-- What is known of a request whose header is being parsed. -/
def HeadKnown (conf : HeaderConf) (mem : Nat → UInt8) (p : Nat) : HeadState → Prop
  | .line r => LineInv mem r p
  | .fields _ uri f h =>
      (NormalPath conf.mergeSlashes uri.uri ∧ 0 ∉ uri.uri) ∧ FieldInv conf.underscores mem f p ∧
        HeadersKept conf h

/-- What a byte of the header leaves. -/
def HeadStepKnown (conf : HeaderConf) (mem : Nat → UInt8) (p : Nat) : HeadStep → Prop
  | .next s => HeadKnown conf mem (p + 1) s
  | .done h => WellFormedHeader conf h
  | .refused _ => True

variable {conf : HeaderConf} (base : Nat)

/-- In front of the fields. -/
theorem headersKept_start {server : Bytes} (h : server = [] ∨ HostText server) :
    HeadersKept conf (.start server) where
  fields _ hmem := absurd hmem List.not_mem_nil
  stored _ _ := rfl
  once _ _ := Nat.zero_le 1
  hosts _ hmem := absurd hmem List.not_mem_nil
  server := h

theorem lineHost_text {r : RequestLine} {server : Bytes} (h : lineHost mem r = some server) :
    server = [] ∨ HostText server := by
  unfold lineHost at h
  split at h
  · exact Or.inr (validateHost_valid h)
  · exact Or.inl (Option.some.inj h).symm

/-- Behind a request line. -/
theorem requestLineEnd_known {r : RequestLine} {q : Nat} (haccepted : LineAccepted mem r q) :
    HeadStepKnown conf mem p (requestLineEnd conf mem base r q) := by
  unfold requestLineEnd
  cases huri : processRequestUri mem conf.mergeSlashes r with
  | none => trivial
  | some uri =>
      cases hhost : lineHost mem r with
      | none => trivial
      | some server =>
          have hnormal := haccepted.normal conf.mergeSlashes huri
          have hkept : HeadersKept conf (.start server) := headersKept_start (lineHost_text hhost)
          simp only
          split_ifs with hold
          · exact ⟨hnormal, hkept, fun hnew => absurd hnew (by simp only; omega),
              fun _ => Or.inl ⟨rfl, rfl⟩, fun h => nomatch h⟩
          · exact ⟨hnormal, trivial, hkept⟩

/-- At the end of the header. -/
theorem processRequestHeader_wellFormed {r : RequestLine} {uri : RequestUri} {h : HeadersIn}
    {n : Int} {chunked : Bool} {length : Nat}
    (hpath : NormalPath conf.mergeSlashes uri.uri ∧ 0 ∉ uri.uri) (hkept : HeadersKept conf h)
    (hend : processRequestHeader r h = .ok n chunked) :
    WellFormedHeader conf ⟨length, r, uri, h, n, chunked⟩ := by
  have hpointed : ∀ name ∈ [bytesOf "host", bytesOf "content-length", bytesOf "transfer-encoding"],
      Pointed name := by
    unfold Pointed
    decide +kernel
  have hhost := hkept.stored _ (hpointed (bytesOf "host") (by simp))
  have hlength := hkept.stored _ (hpointed (bytesOf "content-length") (by simp))
  have hcoding := hkept.stored _ (hpointed (bytesOf "transfer-encoding") (by simp))
  unfold processRequestHeader at hend
  by_cases hmissing : (h.stored.lookup (bytesOf "host")).isNone ∧ 1000 < r.httpVersion
  · rw [if_pos hmissing] at hend
    cases hend
  rw [if_neg hmissing] at hend
  -- what `Transfer-Encoding` makes of a length
  have hcoded : ∀ m : Int, transferEncoding h m = .ok n chunked →
      (chunked = false ∧ n = m) ∨ (chunked = true ∧ n = -1 ∧
        ∃ text, firstValue h.headers (bytesOf "transfer-encoding") = some text ∧
          text.map ngxTolower = bytesOf "chunked") := by
    intro m hm
    unfold transferEncoding at hm
    rw [hcoding] at hm
    split at hm
    · obtain ⟨rfl, rfl⟩ := HeaderEnd.ok.inj hm
      exact Or.inl ⟨rfl, rfl⟩
    case h_2 text htext =>
      split_ifs at hm with hchunked
      · obtain ⟨rfl, rfl⟩ := HeaderEnd.ok.inj hm
        exact Or.inr ⟨rfl, rfl, text, htext, hchunked⟩
      · obtain ⟨rfl, rfl⟩ := HeaderEnd.ok.inj hm
        exact Or.inl ⟨rfl, rfl⟩
  obtain ⟨m, hm, hannounced⟩ : ∃ m, transferEncoding h m = .ok n chunked ∧
      ((firstValue h.headers (bytesOf "content-length") = none ∧ m = -1) ∨
        ∃ text, firstValue h.headers (bytesOf "content-length") = some text ∧
          AnnouncedLength text m) := by
    rw [hlength] at hend
    split at hend
    · split_ifs at hend
      exact ⟨-1, hend, Or.inl ⟨by assumption, rfl⟩⟩
    · split at hend
      · cases hend
      · split_ifs at hend
        exact ⟨_, hend, Or.inr ⟨_, by assumption, atoof_announced (by assumption)⟩⟩
  refine ⟨hpath, hkept, fun hnew => ?_, fun hplain => ?_, fun hchunked => ?_⟩
  · by_contra hnone
    rw [← hhost, Option.not_isSome_iff_eq_none] at hnone
    exact hmissing ⟨by rw [hnone]; rfl, hnew⟩
  · rcases hcoded m hm with ⟨-, rfl⟩ | ⟨hc, -⟩
    · exact hannounced
    · cases hplain.symm.trans hc
  · rcases hcoded m hm with ⟨hc, -⟩ | ⟨-, hn, htext⟩
    · cases hc.symm.trans hchunked
    · exact ⟨hn, htext⟩

/-- **Step lemma.**  A byte of the header. -/
theorem headByte_known {s : HeadState} (h : HeadKnown conf mem p s) :
    HeadStepKnown conf mem p (headByte conf mem base s p) := by
  cases s with
  | line r =>
      have hknown := lineLoop_inv h 1
      rw [lineLoop] at hknown
      simp only [headByte]
      cases hbyte : lineByte mem r p with
      | next r' =>
          have hstep := lineByte_inv h
          rw [hbyte] at hstep
          exact hstep
      | done r' =>
          rw [hbyte] at hknown
          simp only at hknown ⊢
          cases hdone : lineDone r' p with
          | ok t q =>
              rw [hdone] at hknown
              exact requestLineEnd_known base hknown.1
          | again | error => trivial
      | error e => trivial
  | fields r uri f hs =>
      obtain ⟨hpath, hfield, hkept⟩ := h
      have hstep := fieldByte_inv hfield
      simp only [headByte]
      cases hbyte : fieldByte conf.underscores f p (mem p) with
      | next f' =>
          rw [hbyte] at hstep
          exact ⟨hpath, hstep, hkept⟩
      | done f' =>
          rw [hbyte] at hstep
          simp only [fieldLineEnd]
          split_ifs with hignored
          · exact ⟨hpath, trivial, hkept⟩
          · cases hfieldEnd : processField hs _ with
            | none => trivial
            | some h' =>
                have htext := FieldRead.text hstep (by simpa using hignored)
                exact ⟨hpath, trivial, processField_kept hkept htext hfieldEnd⟩
      | headerDone =>
          simp only
          cases hend : processRequestHeader r hs with
          | ok n chunked => exact processRequestHeader_wellFormed hpath hkept hend
          | refused status => trivial
      | error => trivial

/-- **Run lemma.**  The bytes that have been read. -/
theorem headLoop_known {s : HeadState} (h : HeadKnown conf mem p s) (n : Nat) :
    match headLoop conf mem base s p n with
    | .again t q => HeadKnown conf mem q t
    | .done h => WellFormedHeader conf h
    | .refused _ => True := by
  induction n generalizing s p with
  | zero => exact h
  | succ n ih =>
      have hstep := headByte_known base h
      rw [headLoop]
      cases hbyte : headByte conf mem base s p with
      | next s' =>
          rw [hbyte] at hstep
          exact ih hstep
      | done h' =>
          rw [hbyte] at hstep
          exact hstep
      | refused status => trivial

/-- The header, if it is accepted. -/
def HeadResult.accepted : HeadResult → Option ParsedHeader
  | .done h => some h
  | _ => none

theorem HeadResult.accepted_eq_some {result : HeadResult} {h : ParsedHeader}
    (haccepted : result.accepted = some h) : result = .done h := by
  cases result <;> simp_all [HeadResult.accepted]

/-- A request with a dot segment, a host in upper case with a port, and spaces around
a value. -/
def sampleRawHeader : Bytes :=
  bytesOf "GET /a/./b?c HTTP/1.1\r\nHost: LOCALHOST:80\r\nX-Note:   d  e  \r\n\r\n"

end Toxic
