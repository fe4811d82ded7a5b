import ToxicNginx.OutputChain

/-!
# The key of a request

`toxic_random_string` draws the key under which a request registers its
callbacks, into a block of exactly as many bytes as the key has letters; the
key is then read as a C string, by `strlen` and by the `strcmp` of
`toxic_output`.  Memory behind the pointer is a function of the offset: the
block are the offsets below its length, and what lies behind is arbitrary.

* `toxicRandomString` — the loop, which draws again while the first character
  is a digit; `toxicRandomString_returns`, `toxicRandomString_letters` — it
  returns, and what it has written;
* `StrlenReads`, `StrcmpReads` — the offsets the two functions look at;
* `KeySafe` — what the key of a request must be;
* `keySafe_never` — no key is, as its end lies behind its block.
-/

namespace Toxic

/-- `alphanum`, the letters before the digits. -/
def alphanum : Bytes :=
  (List.range 26).map (fun i => (65 + i).toUInt8) ++
    ((List.range 26).map (fun i => (97 + i).toUInt8) ++
      (List.range 10).map fun i => (48 + i).toUInt8)

/-- `isdigit`. -/
def isDigit (c : UInt8) : Bool := decide (48 ≤ c ∧ c ≤ 57)

/-- The loop of `toxic_random_string` at index `i` after `k` calls of `rand()`.
Where the first character is a digit, `i--` and `i++` leave the index. -/
def drawKey (rand : Nat → Nat) (length : Nat) :
    Nat → Nat → Nat → (Nat → UInt8) → Option (Nat → UInt8)
  | fuel, k, i, retVal =>
      if i < length then
        match fuel with
        | 0 => none
        | fuel + 1 =>
            let c := alphanum.getD (rand k % 62) 0
            drawKey rand length fuel (k + 1) (if i = 0 ∧ isDigit c then i else i + 1)
              (Function.update retVal i c)
      else some retVal

/-- `toxic_random_string(length)`, with the previous contents of the memory
`malloc` points to. -/
def toxicRandomString (rand : Nat → Nat) (fuel length : Nat) (memory : Nat → UInt8) :
    Option (Nat → UInt8) :=
  drawKey rand length fuel 0 0 memory

/-- `strlen(s)` looks at the offset `i`. -/
def StrlenReads (s : Nat → UInt8) (i : Nat) : Prop := ∀ j < i, s j ≠ 0

/-- `strcmp(index, s)` looks at the offset `i` of `s`. -/
def StrcmpReads (index s : Nat → UInt8) (i : Nat) : Prop := ∀ j < i, s j ≠ 0 ∧ index j = s j

/-- What must hold of the key that a request has drawn: it is a C string of
`length` characters, all of its readers stay inside its block, and a chunk
under the key gets to the callback, whatever index a chunk is written under. -/
structure KeyUsable (length : Nat) (key : Nat → UInt8) : Prop where
  alphanumeric : ∀ i < length, key i ∈ alphanum
  letterFirst : isDigit (key 0) = false
  terminated : key length = 0
  strlen : ∀ i, StrlenReads key i → i < length
  strcmp : ∀ index i, StrcmpReads index key i → i < length
  delivered : ∀ a str o, str.length < 2 ^ 32 →
    toxicOutput [⟨some ((List.range length).map key)⟩] (some ((List.range length).map key)) a str o
      = callbackOutput a str o
  inBounds : ∀ index a str o,
    toxicOutput [⟨some ((List.range length).map key)⟩] index a str o ≠ .error .outOfBounds

/-- `toxic_random_string` returns, and with a usable key. -/
def KeySafe (rand : Nat → Nat) (length : Nat) (memory : Nat → UInt8) : Prop :=
  ∃ fuel key, toxicRandomString rand fuel length memory = some key ∧ KeyUsable length key

/-- Every draw is one of the characters. -/
theorem alphanum_getD_mem (n : Nat) : alphanum.getD (n % 62) 0 ∈ alphanum := by
  have hlen : n % 62 < alphanum.length := Nat.mod_lt n (by decide)
  rw [List.getD_eq_getElem _ _ hlen]
  exact List.getElem_mem hlen

/-- No character is a NUL byte. -/
theorem ne_zero_of_mem_alphanum {c : UInt8} (hc : c ∈ alphanum) : c ≠ 0 := by
  intro hzero
  have hnat : c.toNat = 0 := by rw [hzero, UInt8.toNat_zero]
  simp only [alphanum, List.mem_append, List.mem_map, List.mem_range] at hc
  rcases hc with ⟨i, hi, rfl⟩ | ⟨i, hi, rfl⟩ | ⟨i, hi, rfl⟩ <;> simp at hnat <;> omega

/-- The digits are the characters from 52 on. -/
theorem isDigit_alphanum_iff (n : Nat) :
    isDigit (alphanum.getD (n % 62) 0) = false ↔ n % 62 < 52 := by
  have hlt := Nat.mod_lt n (by decide : 62 > 0)
  generalize n % 62 = i at hlt
  have hdigit : ∀ c : UInt8, isDigit c = false ↔ ¬ (48 ≤ c.toNat ∧ c.toNat ≤ 57) := by
    intro c
    simp [isDigit, UInt8.le_iff_toNat_le]
  rw [hdigit, List.getD_eq_getElem?_getD, alphanum]
  simp only [List.getElem?_append, List.length_map, List.length_range, List.getElem?_map]
  by_cases hupper : i < 26
  · simp [hupper]
    omega
  · by_cases hlower : i - 26 < 26
    · simp [hupper, hlower]
      omega
    · have hten : i - 26 - 26 < 10 := by omega
      simp [hupper, hlower, hten]
      omega

/-- The key up to the index `i` is drawn: characters, the first no digit, and
the memory behind the block is as it was. -/
structure Drawn (length i : Nat) (memory retVal : Nat → UInt8) : Prop where
  alphanumeric : ∀ j < i, retVal j ∈ alphanum
  letterFirst : 0 < i → isDigit (retVal 0) = false
  behind : ∀ j, length ≤ j → retVal j = memory j

/-- One more character, or the first one again. -/
theorem Drawn.step {length i : Nat} {memory retVal : Nat → UInt8} {c : UInt8}
    (h : Drawn length i memory retVal) (hi : i < length) (hc : c ∈ alphanum) :
    Drawn length (if i = 0 ∧ isDigit c then i else i + 1) memory (Function.update retVal i c) := by
  have hbehind : ∀ j, length ≤ j → Function.update retVal i c j = memory j := by
    intro j hj
    rw [Function.update_of_ne (by omega)]
    exact h.behind j hj
  by_cases hagain : i = 0 ∧ isDigit c
  · obtain ⟨rfl, hdigit⟩ := hagain
    rw [if_pos ⟨rfl, hdigit⟩]
    exact ⟨fun j hj => absurd hj (Nat.not_lt_zero j), fun hj => absurd hj (Nat.lt_irrefl 0),
      hbehind⟩
  · rw [if_neg hagain]
    refine ⟨fun j hj => ?_, fun _ => ?_, hbehind⟩
    · by_cases hji : j = i
      · rw [hji, Function.update_self]
        exact hc
      · rw [Function.update_of_ne hji]
        exact h.alphanumeric j (by omega)
    · by_cases hzero : i = 0
      · subst hzero
        rw [Function.update_self]
        simpa using hagain
      · rw [Function.update_of_ne (Ne.symm hzero)]
        exact h.letterFirst (Nat.pos_of_ne_zero hzero)

/-- **What the loop has written** when it is left. -/
theorem drawKey_drawn {rand : Nat → Nat} {length fuel k i : Nat} {memory retVal key : Nat → UInt8}
    (h : Drawn length i memory retVal) (hi : i ≤ length)
    (hrun : drawKey rand length fuel k i retVal = some key) : Drawn length length memory key := by
  induction fuel generalizing k i retVal with
  | zero =>
      unfold drawKey at hrun
      by_cases hlt : i < length
      · simp [hlt] at hrun
      · rw [if_neg hlt] at hrun
        obtain rfl := Option.some.inj hrun
        obtain rfl : i = length := by omega
        exact h
  | succ fuel ih =>
      unfold drawKey at hrun
      by_cases hlt : i < length
      · rw [if_pos hlt] at hrun
        refine ih (h.step hlt (alphanum_getD_mem (rand k))) ?_ hrun
        split <;> omega
      · rw [if_neg hlt] at hrun
        obtain rfl := Option.some.inj hrun
        obtain rfl : i = length := by omega
        exact h

/-- Behind the first character every draw is kept. -/
theorem drawKey_rest (rand : Nat → Nat) (length : Nat) :
    ∀ (left k i : Nat) (retVal : Nat → UInt8), 0 < i → length ≤ i + left →
      ∃ key, drawKey rand length left k i retVal = some key
  | 0, k, i, retVal, _, hleft => by
      refine ⟨retVal, ?_⟩
      unfold drawKey
      rw [if_neg (by omega)]
  | left + 1, k, i, retVal, hi, hleft => by
      unfold drawKey
      by_cases hlt : i < length
      · have hkept : ¬(i = 0 ∧ isDigit (alphanum.getD (rand k % 62) 0)) := fun h => by omega
        simp only [if_pos hlt, if_neg hkept]
        exact drawKey_rest rand length left (k + 1) (i + 1) _ (by omega) (by omega)
      · exact ⟨retVal, if_neg hlt⟩

/-- The first character is drawn until it is a letter. -/
theorem drawKey_first (rand : Nat → Nat) (length : Nat) :
    ∀ (wait k : Nat) (retVal : Nat → UInt8), rand (k + wait) % 62 < 52 →
      ∃ key, drawKey rand length (wait + length + 1) k 0 retVal = some key
  | 0, k, retVal, hletter => by
      have hfirst : isDigit (alphanum.getD (rand k % 62) 0) = false :=
        (isDigit_alphanum_iff (rand k)).mpr hletter
      unfold drawKey
      by_cases hlt : 0 < length
      · simp only [if_pos hlt, hfirst, Bool.false_eq_true, and_false, if_false]
        exact drawKey_rest rand length (0 + length) (k + 1) (0 + 1) _ (by omega) (by omega)
      · exact ⟨retVal, if_neg hlt⟩
  | wait + 1, k, retVal, hletter => by
      have hshift : rand (k + 1 + wait) % 62 < 52 := by
        rwa [show k + 1 + wait = k + (wait + 1) by omega]
      have hfuel : wait + 1 + length + 1 = (wait + length + 1) + 1 := by omega
      rw [hfuel]
      unfold drawKey
      by_cases hlt : 0 < length
      · simp only [if_pos hlt]
        by_cases hdigit : isDigit (alphanum.getD (rand k % 62) 0) = true
        · simp only [hdigit, and_self, if_true]
          exact drawKey_first rand length wait (k + 1) _ hshift
        · rw [if_neg fun h => hdigit h.2]
          exact drawKey_rest rand length _ (k + 1) (0 + 1) _ (by omega) (by omega)
      · exact ⟨retVal, if_neg hlt⟩

/-- **The key is drawn** as soon as one of the draws is a letter. -/
theorem toxicRandomString_returns {rand : Nat → Nat} (length : Nat) (memory : Nat → UInt8)
    (hletter : ∃ k, rand k % 62 < 52) :
    ∃ fuel key, toxicRandomString rand fuel length memory = some key := by
  obtain ⟨k, hk⟩ := hletter
  obtain ⟨key, hkey⟩ := drawKey_first rand length k 0 memory (by rwa [Nat.zero_add])
  exact ⟨_, key, hkey⟩

/-- **The key is made of characters**, and the memory behind its block is as it
was. -/
theorem toxicRandomString_letters {rand : Nat → Nat} {fuel length : Nat}
    {memory key : Nat → UInt8} (h : toxicRandomString rand fuel length memory = some key) :
    Drawn length length memory key :=
  drawKey_drawn ⟨fun j hj => absurd hj (Nat.not_lt_zero j), fun hj => absurd hj (Nat.lt_irrefl 0),
    fun _ _ => rfl⟩ (Nat.zero_le length) h

/-- The key ends where it should exactly if the byte behind its block is a NUL
byte by chance. -/
theorem toxicRandomString_terminated_iff {rand : Nat → Nat} {fuel length : Nat}
    {memory key : Nat → UInt8} (h : toxicRandomString rand fuel length memory = some key) :
    key length = 0 ↔ memory length = 0 := by
  rw [(toxicRandomString_letters h).behind length (Nat.le_refl length)]

/-- **The readers leave the block**: `strlen` looks at the byte behind it. -/
theorem strlen_leaves_block {rand : Nat → Nat} {fuel length : Nat} {memory key : Nat → UInt8}
    (h : toxicRandomString rand fuel length memory = some key) : StrlenReads key length :=
  fun j hj => ne_zero_of_mem_alphanum ((toxicRandomString_letters h).alphanumeric j hj)

/-- The search for any other index reads `callbacks[1]`. -/
theorem toxicOutput_outOfBounds {key index : Bytes} (hne : index ≠ key) (a : Allocs)
    (str : Bytes) (o : Output) :
    toxicOutput [⟨some key⟩] (some index) a str o = .error .outOfBounds := by
  have hkey : ¬ (some key = some index) := fun h => hne (Option.some.inj h).symm
  simp only [toxicOutput, searchCallback, List.getElem?_cons_zero, if_neg hkey]
  rfl

/-- **No key is safe.**  Whatever `rand()` gives and whatever the memory has
held, `strlen` reads the byte behind the block of the key. -/
theorem keySafe_never (rand : Nat → Nat) (length : Nat) (memory : Nat → UInt8) :
    ¬ KeySafe rand length memory := by
  rintro ⟨fuel, key, hrun, husable⟩
  exact Nat.lt_irrefl length (husable.strlen length (strlen_leaves_block hrun))

/-- A key of ten letters with an `X` behind its block is no string of ten
characters. -/
theorem key_runs_on : ¬ KeySafe (fun _ => 0) 10 (fun i => if i = 10 then 88 else 0) := by
  rintro ⟨fuel, key, hrun, husable⟩
  have hbehind := (toxicRandomString_terminated_iff hrun).mp husable.terminated
  exact absurd hbehind (by decide)

end Toxic
