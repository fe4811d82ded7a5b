import ToxicNginx.HeaderStores

/-!
# The head of a message, read back

What a client takes a response for: the bytes up to the first empty line are the
head, and its lines name the fields.  As for `ngx_http_parse_header_line`, a line
ends with a newline, and a carriage return in front of it belongs to the end.

* `readHead` — the lines of the head and the bytes behind it;
* `isNamed`, `valuesOf` — the values of the fields with a name;
* `readLength` — the number that a `Content-Length` says;
* `readHead_append`, `readHead_lines` — a text behind the head, and whole lines in
  front of it;
* `isNamed_field`, `readLength_decimal` — a field of nginx and its length.
-/

namespace Toxic

/-- A line without the carriage return at its end. -/
def chomp (line : Bytes) : Bytes := if line.getLast? = some 13 then line.dropLast else line

/-- The lines up to the first empty one and the bytes behind it, where `line` is
the line that is being read; `none` when there is no empty line. -/
def readHead (line : Bytes) : Bytes → Option (List Bytes × Bytes)
  | [] => none
  | c :: text =>
      if c = 10 then
        if chomp line = [] then some ([], text)
        else (readHead [] text).map fun head => (chomp line :: head.1, head.2)
      else readHead (line ++ [c]) text

/-- A field line with this name. -/
def isNamed (name line : Bytes) : Bool :=
  match nameOf line with
  | some key => eqNoCase key name
  | none => false

/-- The values of the fields with this name, without the blanks around them. -/
def valuesOf (name : Bytes) (lines : List Bytes) : List Bytes :=
  (lines.filter (isNamed name)).map fun line => trimBlanks (restOf line)

/-- The number that the digits of a text say. -/
def readLength (text : Bytes) : Option Nat :=
  if text ≠ [] ∧ ∀ c ∈ text, 48 ≤ c ∧ c ≤ 57 then
    some (text.foldl (fun n c => 10 * n + (c.toNat - 48)) 0)
  else none

@[simp] theorem valuesOf_append (name : Bytes) (lines lines' : List Bytes) :
    valuesOf name (lines ++ lines') = valuesOf name lines ++ valuesOf name lines' := by
  simp [valuesOf]

@[simp] theorem valuesOf_nil (name : Bytes) : valuesOf name [] = [] := rfl

/-- A line that is added. -/
theorem valuesOf_cons (name line : Bytes) (lines : List Bytes) :
    valuesOf name (line :: lines)
      = (if isNamed name line then [trimBlanks (restOf line)] else []) ++ valuesOf name lines := by
  by_cases h : isNamed name line = true <;> simp [valuesOf, h]

/-- The carriage return of a line end. -/
@[simp] theorem chomp_cr (line : Bytes) : chomp (line ++ [13]) = line := by
  simp [chomp]

/-- What follows a head changes nothing of it. -/
theorem readHead_append {line text : Bytes} {head : List Bytes × Bytes}
    (h : readHead line text = some head) (more : Bytes) :
    readHead line (text ++ more) = some (head.1, head.2 ++ more) := by
  induction text generalizing line head with
  | nil => cases h
  | cons c text ih =>
      rw [List.cons_append, readHead]
      rw [readHead] at h
      by_cases hend : c = 10
      · rw [if_pos hend] at h ⊢
        by_cases hempty : chomp line = []
        · rw [if_pos hempty] at h ⊢
          obtain rfl := Option.some.inj h
          rfl
        · rw [if_neg hempty] at h ⊢
          obtain ⟨inner, hinner, rfl⟩ := Option.map_eq_some_iff.mp h
          rw [ih hinner]
          rfl
      · rw [if_neg hend] at h ⊢
        exact ih h

/-- A text that ends with a newline and an empty line has a head. -/
theorem readHead_isSome (line text : Bytes) :
    (readHead line (text ++ 10 :: crlf)).isSome = true := by
  induction text generalizing line with
  | nil =>
      have hcrlf : readHead [] crlf = some ([], []) := by decide
      rw [List.nil_append, readHead, if_pos rfl]
      by_cases hempty : chomp line = []
      · rw [if_pos hempty]
        rfl
      · rw [if_neg hempty, hcrlf]
        rfl
  | cons c text ih =>
      rw [List.cons_append, readHead]
      by_cases hend : c = 10
      · rw [if_pos hend]
        by_cases hempty : chomp line = []
        · rw [if_pos hempty]
          rfl
        · rw [if_neg hempty, Option.isSome_map]
          exact ih []
      · rw [if_neg hend]
        exact ih _

/-- The rest of a line, up to its line end. -/
theorem readHead_rest {rest : Bytes} (line more : Bytes) (hrest : 10 ∉ rest) :
    readHead line (rest ++ (crlf ++ more)) =
      if line ++ rest = [] then some ([], more)
      else (readHead [] more).map fun head => ((line ++ rest) :: head.1, head.2) := by
  induction rest generalizing line with
  | nil =>
      have hcr : (13 : UInt8) ≠ 10 := by decide
      rw [List.nil_append, List.append_nil, crlf, List.cons_append, readHead, if_neg hcr,
        List.cons_append, readHead, if_pos rfl, chomp_cr]
      rfl
  | cons c rest ih =>
      rw [List.mem_cons, not_or] at hrest
      have hline : line ++ [c] ++ rest = line ++ c :: rest := by simp
      rw [List.cons_append, readHead, if_neg (Ne.symm hrest.1), ih _ hrest.2, hline]

/-- The text of lines that nginx ends. -/
def endedLines (lines : List Bytes) : Bytes := lines.flatMap (· ++ crlf)

/-- **Whole lines** in front of a text stand in front of the lines of its head. -/
theorem readHead_lines {lines : List Bytes} (hlines : ∀ line ∈ lines, line ≠ [] ∧ 10 ∉ line)
    (more : Bytes) :
    readHead [] (endedLines lines ++ more)
      = (readHead [] more).map fun head => (lines ++ head.1, head.2) := by
  induction lines with
  | nil => simp [endedLines]
  | cons line lines ih =>
      obtain ⟨hne, hend⟩ := hlines line List.mem_cons_self
      have hsplit : endedLines (line :: lines) ++ more
          = line ++ (crlf ++ (endedLines lines ++ more)) := by
        simp [endedLines]
      rw [hsplit, readHead_rest [] _ hend, List.nil_append, if_neg hne,
        ih fun l hl => hlines l (List.mem_cons_of_mem _ hl), Option.map_map]
      rfl

/-- A colon ends the name of a line. -/
theorem nameOf_field {key : Bytes} (hkey : 58 ∉ key) (value : Bytes) :
    nameOf (key ++ 58 :: value) = some key ∧ restOf (key ++ 58 :: value) = value := by
  have hindex : (key ++ 58 :: value).idxOf 58 = key.length := by
    rw [List.idxOf_append_of_notMem hkey, List.idxOf_cons_self, Nat.add_zero]
  have hmem : (58 : UInt8) ∈ key ++ 58 :: value := by simp
  constructor
  · rw [nameOf, if_pos hmem, hindex, List.take_left' rfl]
  · rw [restOf, hindex, List.drop_append]
    simp

/-- A blank in front of a value does not count. -/
theorem trimBlanks_blank (value : Bytes) : trimBlanks (32 :: value) = trimBlanks value := rfl

/-- **A field** as nginx writes it: its name and its value. -/
theorem isNamed_field {key : Bytes} (hkey : 58 ∉ key) (value name : Bytes) :
    isNamed name (key ++ bytesOf ": " ++ value) = eqNoCase key name ∧
      trimBlanks (restOf (key ++ bytesOf ": " ++ value)) = trimBlanks value := by
  have hcolon : key ++ bytesOf ": " ++ value = key ++ 58 :: 32 :: value := by
    have : bytesOf ": " = [58, 32] := by decide
    rw [this, List.append_assoc]
    rfl
  obtain ⟨hname, hrest⟩ := nameOf_field hkey (32 :: value)
  rw [hcolon, isNamed, hname, hrest]
  exact ⟨rfl, trimBlanks_blank value⟩

/-- A name begins with the first letter of the line. -/
theorem isNamed_head {c n : UInt8} (h : toLower c ≠ toLower n) (line name : Bytes) :
    isNamed (n :: name) (c :: line) = false := by
  unfold isNamed
  cases hkey : nameOf (c :: line) with
  | none => rfl
  | some key =>
      unfold nameOf at hkey
      split at hkey
      next =>
        obtain rfl := Option.some.inj hkey
        dsimp only
        rw [eqNoCase, beq_eq_false_iff_ne]
        cases hindex : (c :: line).idxOf 58 with
        | zero => simp
        | succ k =>
            rw [List.take_succ_cons, List.map_cons, List.map_cons]
            intro hsame
            exact h (List.cons.inj hsame).1
      next => cases hkey

/-- The digits of a number. -/
theorem mem_decimal {n : Nat} {c : UInt8} (hc : c ∈ decimal n) : 48 ≤ c ∧ c ≤ 57 := by
  obtain ⟨d, hd, rfl⟩ := List.mem_map.mp hc
  have hdigit := Nat.isDigit_of_mem_toDigits (by decide) (by decide) hd
  obtain ⟨hbyte, _⟩ := digit_byte hdigit
  rw [Char.isDigit_iff_toNat] at hdigit
  rw [UInt8.le_iff_toNat_le, UInt8.le_iff_toNat_le, hbyte]
  exact hdigit

/-- There is a digit. -/
theorem decimal_ne_nil (n : Nat) : decimal n ≠ [] := by
  simp [decimal]

/-- A number is no more than its digits. -/
theorem trimBlanks_decimal (n : Nat) : trimBlanks (decimal n) = decimal n := by
  have hblank : ∀ c ∈ decimal n, ¬ isBlank c = true := by
    intro c hc
    have := mem_decimal hc
    unfold isBlank
    grind
  have hkept : ∀ text : Bytes, (∀ c ∈ text, ¬ isBlank c = true) →
      text.dropWhile isBlank = text := by
    intro text htext
    cases text with
    | nil => rfl
    | cons c text => exact List.dropWhile_cons_of_neg (htext c List.mem_cons_self)
  unfold trimBlanks
  rw [hkept _ hblank, hkept _ fun c hc => hblank c (List.mem_reverse.mp hc), List.reverse_reverse]

/-- **The length** that nginx writes is read back. -/
theorem readLength_decimal (n : Nat) : readLength (decimal n) = some n := by
  unfold readLength
  rw [if_pos ⟨decimal_ne_nil n, fun c hc => mem_decimal hc⟩, foldl_decimal]

end Toxic
