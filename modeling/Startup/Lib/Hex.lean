import Startup.Lib.Numeral

/-!
# Hexadecimal digits

Bytes as two digits each, and `strtol` for the base 16 in the "C" locale.

* `digit`, `digitValue`: the digits that `%x` prints, and what a digit of either case denotes.
* `byteDigits`: `%02x`.
* `strtol`: as for the other bases, with an optional `0x` before the digits.
* `strtol_pair`: a text of two characters that is read to its end.
-/

namespace Startup.Lib.Hex

open Numeral

/-- `isxdigit`. -/
def isHexDigit (c : Char) : Bool :=
  (48 ≤ c.toNat && c.toNat ≤ 57) || (65 ≤ c.toNat && c.toNat ≤ 70) ||
    (97 ≤ c.toNat && c.toNat ≤ 102)

/-- What a digit denotes. -/
def digitValue (c : Char) : Nat :=
  if c.toNat ≤ 57 then c.toNat - 48 else if c.toNat ≤ 70 then c.toNat - 55 else c.toNat - 87

/-- The digit for a number below 16, in lower case. -/
def digit (n : Nat) : Char := Char.ofNat (if n < 10 then 48 + n else 87 + n)

/-- `%02x`. -/
def byteDigits (b : UInt8) : List Char := [digit (b.toNat / 16), digit (b.toNat % 16)]

/-- What a list of digits denotes. -/
def magnitude (ds : List Char) : Nat := ds.foldl (fun n c => 16 * n + digitValue c) 0

/-- Without the `0x` that may stand before the digits. -/
def dropPrefix : List Char → List Char
  | '0' :: x :: c :: s =>
    if (x = 'x' || x = 'X') && isHexDigit c then c :: s else '0' :: x :: c :: s
  | s => s

/-- The digits that a text begins with, behind white space, a sign and `0x`. -/
def leadingDigits (s : List Char) : List Char :=
  (dropPrefix (splitSign (s.dropWhile isSpace)).2).takeWhile isHexDigit

/-- The number that a text begins with, which is 0 where there is none. -/
def leading (s : List Char) : Int :=
  if (splitSign (s.dropWhile isSpace)).1 then -(magnitude (leadingDigits s) : Int)
  else magnitude (leadingDigits s)

/-- Where `endptr` points to: behind the number, or to the start where there is none. -/
def rest (s : List Char) : List Char :=
  if leadingDigits s = [] then s
  else (dropPrefix (splitSign (s.dropWhile isSpace)).2).dropWhile isHexDigit

/-- `strtol` with the base 16. -/
def strtol (s : List Char) : Conversion :=
  if leading s < longMin then ⟨longMin, true, rest s⟩
  else if longMax < leading s then ⟨longMax, true, rest s⟩
  else ⟨leading s, false, rest s⟩

/-- The conversion to a byte. -/
def toByte (v : Int) : UInt8 := UInt8.ofNat (v % 256).toNat

example : strtol "-0xFg".toList = ⟨-15, false, "g".toList⟩ := by decide

variable {a b c : Char} {n : Nat}

/-! ## Digits -/

theorem digit_facts : ∀ n < 16, isHexDigit (digit n) = true ∧ digitValue (digit n) = n := by
  decide

theorem isHexDigit_cases (h : isHexDigit c = true) : c.toNat < 103 := by
  simp [isHexDigit] at h
  omega

/-- The digit of what a digit denotes is the digit itself, in lower case. -/
theorem digit_digitValue (h : isHexDigit c = true) :
    digit (digitValue c) = c.toLower ∧ digitValue c < 16 := by
  have hall : ∀ n < 103, isHexDigit (Char.ofNat n) = true →
      digit (digitValue (Char.ofNat n)) = (Char.ofNat n).toLower ∧
        digitValue (Char.ofNat n) < 16 := by decide
  have hc := hall c.toNat (isHexDigit_cases h)
  rw [Char.ofNat_toNat] at hc
  exact hc h

theorem not_isSpace_of_isHexDigit (h : isHexDigit c = true) : isSpace c = false := by
  simp [isHexDigit] at h
  simp [isSpace]
  omega

/-! ## Two characters -/

/-- White space or a sign, and a digit. -/
def isSigned (a b : Char) : Bool :=
  (isSpace a || a = '+' || a = '-') && isHexDigit b

/-- A text of two characters without white space or a sign in front. -/
theorem split_pair (ha : isSpace a = false) (hplus : a ≠ '+') (hminus : a ≠ '-') :
    splitSign ([a, b].dropWhile isSpace) = (false, [a, b]) := by
  rw [List.dropWhile_cons_of_neg (by simp [ha])]
  rcases splitSign_cases [a, b] with h | ⟨t, ht, -⟩ | ⟨t, ht, -⟩
  · exact h
  · cases ht
    exact absurd rfl hplus
  · cases ht
    exact absurd rfl hminus

/-- Behind white space or a sign, one character is left to be read, unless it is one of these. -/
theorem rest_signed (ha : isSpace a = true ∨ a = '+' ∨ a = '-') :
    rest [a, b] = [] ↔ isHexDigit b = true := by
  have hbody : ∃ negative t, splitSign ([a, b].dropWhile isSpace) = (negative, t) ∧
      (t = [b] ∨ t = [] ∧ isHexDigit b = false) := by
    rcases ha with ha | rfl | rfl
    · rw [List.dropWhile_cons_of_pos ha]
      by_cases hb : isSpace b = true
      · refine ⟨_, _, by rw [List.dropWhile_cons_of_pos hb]; rfl, .inr ⟨rfl, ?_⟩⟩
        by_contra hhex
        rw [not_isSpace_of_isHexDigit (Bool.not_eq_false _ ▸ hhex)] at hb
        cases hb
      · rw [List.dropWhile_cons_of_neg hb]
        rcases splitSign_cases [b] with h | ⟨t, ht, h⟩ | ⟨t, ht, h⟩
        · exact ⟨_, _, h, .inl rfl⟩
        · cases ht
          exact ⟨_, _, h, .inr ⟨rfl, by decide⟩⟩
        · cases ht
          exact ⟨_, _, h, .inr ⟨rfl, by decide⟩⟩
    · exact ⟨_, _, rfl, .inl rfl⟩
    · exact ⟨_, _, rfl, .inl rfl⟩
  obtain ⟨negative, t, hsign, rfl | ⟨rfl, hb⟩⟩ := hbody
  · by_cases hb : isHexDigit b = true
    · simp [rest, leadingDigits, hsign, dropPrefix, hb]
    · simp [rest, leadingDigits, hsign, dropPrefix, hb]
  · simp [rest, leadingDigits, hsign, dropPrefix, hb]

theorem rest_pair : rest [a, b] = [] ↔
    (isHexDigit a = true ∧ isHexDigit b = true) ∨ isSigned a b = true := by
  by_cases ha : isSpace a = true ∨ a = '+' ∨ a = '-'
  · have hnot : isHexDigit a = false := by
      by_contra hhex
      have hhex : isHexDigit a = true := by simpa using hhex
      rcases ha with ha | rfl | rfl
      · rw [not_isSpace_of_isHexDigit hhex] at ha
        cases ha
      · cases hhex
      · cases hhex
    have hsigned : (isSpace a || a = '+' || a = '-') = true := by simpa [or_assoc] using ha
    rw [rest_signed ha, hnot, isSigned, hsigned]
    simp
  · rw [not_or, not_or, Bool.not_eq_true] at ha
    have hsign := split_pair (b := b) ha.1 ha.2.1 ha.2.2
    simp only [rest, leadingDigits, hsign, dropPrefix, isSigned, ha]
    by_cases hhex : isHexDigit a = true
    · by_cases hb : isHexDigit b = true
      · simp [hhex, hb]
      · simp [hhex, hb]
    · simp [hhex]

/-- Two digits and less are no large number. -/
theorem magnitude_lt (ds : List Char) (h : ds.length ≤ 2)
    (hds : ∀ c ∈ ds, isHexDigit c = true) : magnitude ds < 256 := by
  match ds, h with
  | [], _ => decide
  | [a], _ =>
    have ha := (digit_digitValue (hds a (by simp))).2
    simp only [magnitude, List.foldl_cons, List.foldl_nil]
    omega
  | [a, b], _ =>
    have ha := (digit_digitValue (hds a (by simp))).2
    have hb := (digit_digitValue (hds b (by simp))).2
    simp only [magnitude, List.foldl_cons, List.foldl_nil]
    omega

theorem splitSign_length (s : List Char) : (splitSign s).2.length ≤ s.length := by
  rcases splitSign_cases s with h | ⟨t, rfl, h⟩ | ⟨t, rfl, h⟩ <;> simp [h]

theorem dropPrefix_length (s : List Char) : (dropPrefix s).length ≤ s.length := by
  unfold dropPrefix
  split
  · split <;> simp
  · exact Nat.le_refl _

/-- Two characters are converted without an overflow. -/
theorem strtol_pair_eq : strtol [a, b] = ⟨leading [a, b], false, rest [a, b]⟩ := by
  have hlength : (leadingDigits [a, b]).length ≤ 2 := by
    have hdrop := ([a, b].dropWhile_sublist isSpace).length_le
    have hsign := splitSign_length ([a, b].dropWhile isSpace)
    have hprefix := dropPrefix_length (splitSign ([a, b].dropWhile isSpace)).2
    have htake := ((dropPrefix (splitSign ([a, b].dropWhile isSpace)).2).takeWhile_sublist
      isHexDigit).length_le
    rw [List.length_cons, List.length_cons, List.length_nil] at hdrop
    unfold leadingDigits
    omega
  have hlt := magnitude_lt _ hlength fun c hc => List.mem_takeWhile_imp hc
  have hleading : -256 < leading [a, b] ∧ leading [a, b] < 256 := by
    unfold leading
    split <;> omega
  unfold strtol
  rw [if_neg (by unfold longMin; omega), if_neg (by unfold longMax; omega)]

/-- What two characters that are read to their end can be. -/
theorem strtol_pair :
    ((strtol [a, b]).erange = false ∧ (strtol [a, b]).endptr = []) ↔
      (isHexDigit a = true ∧ isHexDigit b = true) ∨ isSigned a b = true := by
  rw [strtol_pair_eq, ← rest_pair]
  simp

/-- Two digits denote a byte. -/
theorem strtol_digits (ha : isHexDigit a = true) (hb : isHexDigit b = true) :
    (strtol [a, b]).value = (16 * digitValue a + digitValue b : Nat) := by
  have hplus : a ≠ '+' := by
    rintro rfl
    cases ha
  have hminus : a ≠ '-' := by
    rintro rfl
    cases ha
  have hsign := split_pair (b := b) (not_isSpace_of_isHexDigit ha) hplus hminus
  rw [strtol_pair_eq]
  simp [leading, leadingDigits, hsign, dropPrefix, ha, hb, magnitude]

end Startup.Lib.Hex
