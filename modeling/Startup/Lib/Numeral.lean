import Mathlib.Data.Nat.Digits.Defs
import Mathlib.Data.List.TakeWhile
import Mathlib.Tactic.Common

/-!
# Numbers in texts, as the C library reads them

`strtol` and `strtoul` on a machine whose `long` has 64 bits, in the "C" locale
and for a base up to ten, and the conversions between the integer types.  A text is
the list of the characters before its NUL.

* `Literal base s v`: the text `s` is a numeral of the base, with an optional sign,
  and denotes `v`.
* `leading base s`: the number that `s` begins with, behind white space.
* `Literal.strtol`, `Literal.strtoul`: a literal is read to its end.
* `rest_eq_nil_iff`: what else is read to its end.
-/

namespace Startup.Lib.Numeral

/-! ## Integer types -/

/-- `LONG_MIN`. -/
def longMin : Int := -2 ^ 63

/-- `LONG_MAX`. -/
def longMax : Int := 2 ^ 63 - 1

/-- `ULONG_MAX`. -/
def ulongMax : Int := 2 ^ 64 - 1

/-- `INT_MAX`. -/
def intMax : Int := 2 ^ 31 - 1

/-- The conversion to `int`. -/
def toInt (v : Int) : Int := v.bmod (2 ^ 32)

/-- The conversion to `unsigned int`. -/
def toUnsigned (v : Int) : Int := v % 2 ^ 32

/-- The conversion to `long`. -/
def toLong (v : Int) : Int := v.bmod (2 ^ 64)

theorem toInt_eq_self {v : Int} (hlo : -2 ^ 31 ≤ v) (hhi : v ≤ intMax) : toInt v = v := by
  unfold intMax at hhi
  unfold toInt
  apply Int.bmod_eq_of_le
  · omega
  · omega

theorem toInt_le (v : Int) : toInt v ≤ intMax := by
  have hlt : v.bmod (2 ^ 32) < (2 ^ 32 + 1) / 2 := Int.bmod_lt (by decide)
  unfold toInt intMax
  omega

theorem toLong_eq_self {v : Int} (hlo : longMin ≤ v) (hhi : v ≤ longMax) : toLong v = v := by
  unfold longMin at hlo
  unfold longMax at hhi
  unfold toLong
  apply Int.bmod_eq_of_le
  · omega
  · omega

theorem toUnsigned_eq_self {v : Int} (hlo : 0 ≤ v) (hhi : v < 2 ^ 32) : toUnsigned v = v :=
  Int.emod_eq_of_lt hlo hhi

/-! ## Numerals -/

/-- `isspace`. -/
def isSpace (c : Char) : Bool := c.toNat == 32 || (9 ≤ c.toNat && c.toNat ≤ 13)

/-- A digit of the base. -/
def isDigitOf (base : Nat) (c : Char) : Bool := 48 ≤ c.toNat && c.toNat < 48 + base

/-- What a list of digits denotes. -/
def magnitude (base : Nat) (ds : List Char) : Nat :=
  Nat.ofDigits base (ds.reverse.map fun c => c.toNat - 48)

/-- A numeral of the base, with an optional sign, and what it denotes. -/
inductive Literal (base : Nat) : List Char → Int → Prop where
  | plain {ds : List Char} (hne : ds ≠ []) (hds : ∀ c ∈ ds, isDigitOf base c = true) :
      Literal base ds (magnitude base ds)
  | plus {ds : List Char} (hne : ds ≠ []) (hds : ∀ c ∈ ds, isDigitOf base c = true) :
      Literal base ('+' :: ds) (magnitude base ds)
  | minus {ds : List Char} (hne : ds ≠ []) (hds : ∀ c ∈ ds, isDigitOf base c = true) :
      Literal base ('-' :: ds) (-(magnitude base ds : Int))

/-- A number that is written in digits only. -/
def Digits (base : Nat) (s : List Char) : Prop := s ≠ [] ∧ ∀ c ∈ s, isDigitOf base c = true

instance (s : List Char) : Decidable (Digits base s) :=
  decidable_of_iff (s ≠ [] ∧ s.all (isDigitOf base) = true) (by rw [Digits, List.all_eq_true])

/-! ## Reading -/

/-- An optional sign, whether it is a minus. -/
def splitSign : List Char → Bool × List Char
  | '-' :: s => (true, s)
  | '+' :: s => (false, s)
  | s => (false, s)

/-- The digits that a text begins with, behind white space and a sign. -/
def leadingDigits (base : Nat) (s : List Char) : List Char :=
  (splitSign (s.dropWhile isSpace)).2.takeWhile (isDigitOf base)

/-- The number that a text begins with, which is 0 where there is none. -/
def leading (base : Nat) (s : List Char) : Int :=
  if (splitSign (s.dropWhile isSpace)).1 then -(magnitude base (leadingDigits base s) : Int)
  else magnitude base (leadingDigits base s)

/-- Where `endptr` points to: behind the number, or to the start where there is none. -/
def rest (base : Nat) (s : List Char) : List Char :=
  if leadingDigits base s = [] then s
  else (splitSign (s.dropWhile isSpace)).2.dropWhile (isDigitOf base)

/-- What a conversion returns, whether it sets `errno` to `ERANGE`, and where it leaves
`endptr`. -/
structure Conversion where
  value : Int
  erange : Bool
  endptr : List Char
  deriving DecidableEq, Repr

/-- `strtol`. -/
def strtol (base : Nat) (s : List Char) : Conversion :=
  if leading base s < longMin then ⟨longMin, true, rest base s⟩
  else if longMax < leading base s then ⟨longMax, true, rest base s⟩
  else ⟨leading base s, false, rest base s⟩

/-- The `unsigned long` that `strtoul` makes of a number. -/
def unsignedLong (v : Int) : Int := if ulongMax < v.natAbs then ulongMax else v % 2 ^ 64

/-- `strtoul`, which takes a sign as well. -/
def strtoul (base : Nat) (s : List Char) : Conversion :=
  if ulongMax < (leading base s).natAbs then ⟨ulongMax, true, rest base s⟩
  else ⟨leading base s % 2 ^ 64, false, rest base s⟩

example : strtol 10 " -12foo".toList = ⟨-12, false, "foo".toList⟩ := by decide

variable {base : Nat} {s ds : List Char} {v w : Int} {c : Char}

/-! ## Literals are read to their end -/

theorem not_isSpace_of_isDigitOf (h : isDigitOf base c = true) : isSpace c = false := by
  simp [isDigitOf] at h
  simp [isSpace]
  omega

theorem splitSign_of_isDigitOf (h : isDigitOf base c = true) :
    splitSign (c :: ds) = (false, c :: ds) := by
  unfold splitSign
  split
  · rename_i heq
    cases heq
    simp [isDigitOf] at h
  · rename_i heq
    cases heq
    simp [isDigitOf] at h
  · rfl

theorem takeWhile_digits (hds : ∀ c ∈ ds, isDigitOf base c = true) :
    ds.takeWhile (isDigitOf base) = ds :=
  List.takeWhile_eq_self_iff.mpr hds

theorem dropWhile_digits (hds : ∀ c ∈ ds, isDigitOf base c = true) :
    ds.dropWhile (isDigitOf base) = [] :=
  List.dropWhile_eq_nil_iff.mpr hds

/-- What is read of a text that is its sign and digits, behind white space. -/
theorem leading_of_splitSign {negative : Bool}
    (hsign : splitSign (s.dropWhile isSpace) = (negative, ds)) (hne : ds ≠ [])
    (hds : ∀ c ∈ ds, isDigitOf base c = true) :
    leading base s = (if negative then -(magnitude base ds : Int) else magnitude base ds) ∧
      rest base s = [] := by
  have hdigits : leadingDigits base s = ds := by
    rw [leadingDigits, hsign]
    exact takeWhile_digits hds
  constructor
  · rw [leading, hdigits, hsign]
  · rw [rest, hdigits, if_neg hne, hsign]
    exact dropWhile_digits hds

/-- A literal is read to its end, also behind white space. -/
theorem Literal.leading {blanks : List Char} (hlit : Literal base s v)
    (hblanks : ∀ c ∈ blanks, isSpace c = true) :
    leading base (blanks ++ s) = v ∧ rest base (blanks ++ s) = [] := by
  have hdrop : (blanks ++ s).dropWhile isSpace = s.dropWhile isSpace :=
    List.dropWhile_append_of_pos hblanks
  cases hlit with
  | plain hne hds =>
    obtain ⟨c, ds', hcons⟩ := List.exists_cons_of_ne_nil hne
    have hc : isDigitOf base c = true := hds c (by simp [hcons])
    have hsign : splitSign ((blanks ++ s).dropWhile isSpace) = (false, s) := by
      rw [hdrop, hcons, List.dropWhile_cons_of_neg (by simp [not_isSpace_of_isDigitOf hc])]
      exact splitSign_of_isDigitOf hc
    exact leading_of_splitSign hsign hne hds
  | @plus ds hne hds =>
    have hsign : splitSign ((blanks ++ '+' :: ds).dropWhile isSpace) = (false, ds) := by
      rw [hdrop]
      rfl
    exact leading_of_splitSign hsign hne hds
  | @minus ds hne hds =>
    have hsign : splitSign ((blanks ++ '-' :: ds).dropWhile isSpace) = (true, ds) := by
      rw [hdrop]
      rfl
    exact leading_of_splitSign hsign hne hds

theorem Literal.leading_eq (hlit : Literal base s v) : Numeral.leading base s = v := by
  have hblanks : ∀ c ∈ ([] : List Char), isSpace c = true := by simp
  exact (hlit.leading hblanks).1

theorem Literal.rest_eq (hlit : Literal base s v) : rest base s = [] := by
  have hblanks : ∀ c ∈ ([] : List Char), isSpace c = true := by simp
  exact (hlit.leading hblanks).2

theorem Digits.literal (h : Digits base s) : Literal base s (magnitude base s) := .plain h.1 h.2

theorem Digits.not_mem (h : Digits base s) (hc : isDigitOf base c = false) : c ∉ s := by
  intro hmem
  rw [h.2 c hmem] at hc
  contradiction

theorem Literal.strtol (hlit : Literal base s v) (hlo : longMin ≤ v) (hhi : v ≤ longMax) :
    strtol base s = ⟨v, false, []⟩ := by
  rw [Numeral.strtol, hlit.leading_eq, hlit.rest_eq, if_neg (by omega), if_neg (by omega)]

theorem Literal.strtoul (hlit : Literal base s v) (hlo : 0 ≤ v) (hhi : v ≤ ulongMax) :
    strtoul base s = ⟨v, false, []⟩ := by
  have hmod : v % 2 ^ 64 = v := by
    unfold ulongMax at hhi
    omega
  rw [Numeral.strtoul, hlit.leading_eq, hlit.rest_eq, if_neg (by omega), hmod]

@[simp] theorem strtoul_value : (strtoul base s).value = unsignedLong (leading base s) := by
  unfold Numeral.strtoul unsignedLong
  split_ifs <;> rfl

@[simp] theorem strtoul_endptr : (strtoul base s).endptr = rest base s := by
  unfold Numeral.strtoul
  split_ifs <;> rfl

theorem unsignedLong_eq_self (hlo : 0 ≤ v) (hhi : v ≤ ulongMax) : unsignedLong v = v := by
  unfold ulongMax at hhi
  unfold unsignedLong ulongMax
  rw [if_neg (by omega)]
  omega

/-! ## What is read before a character that ends a number -/

theorem splitSign_append (t u : List Char) (hc : c ≠ '-' ∧ c ≠ '+') :
    splitSign (t ++ c :: u) = ((splitSign t).1, (splitSign t).2 ++ c :: u) := by
  cases t with
  | nil =>
    rw [List.nil_append, splitSign.eq_3]
    · rfl
    · intro s h
      exact hc.1 (List.cons.inj h).1
    · intro s h
      exact hc.2 (List.cons.inj h).1
  | cons d t =>
    by_cases hminus : d = '-'
    · subst hminus
      rfl
    by_cases hplus : d = '+'
    · subst hplus
      rfl
    · rw [List.cons_append]
      rw [splitSign.eq_3 _ (by simp [hminus]) (by simp [hplus]),
        splitSign.eq_3 _ (by simp [hminus]) (by simp [hplus])]
      rfl

/-- A character that is no part of a number ends it: what is read is what is read of the text
before it. -/
theorem read_append (t u : List Char) (hspace : isSpace c = false) (hsign : c ≠ '-' ∧ c ≠ '+')
    (hdigit : isDigitOf base c = false) :
    leading base (t ++ c :: u) = leading base t ∧
      rest base (t ++ c :: u) = rest base t ++ c :: u := by
  have hdrop : (t ++ c :: u).dropWhile isSpace = t.dropWhile isSpace ++ c :: u := by
    rw [List.dropWhile_append]
    split
    · rename_i hnil
      rw [List.dropWhile_cons_of_neg (by simp [hspace]), List.isEmpty_iff.mp hnil]
      rfl
    · rfl
  have hsplit := splitSign_append (t.dropWhile isSpace) u hsign
  have htake (l : List Char) :
      (l ++ c :: u).takeWhile (isDigitOf base) = l.takeWhile (isDigitOf base) := by
    rw [List.takeWhile_append]
    split
    · rename_i hall
      rw [List.takeWhile_cons_of_neg (by simp [hdigit]), List.append_nil]
      exact (List.IsPrefix.eq_of_length (List.takeWhile_prefix _) hall).symm
    · rfl
  have hbehind (l : List Char) :
      (l ++ c :: u).dropWhile (isDigitOf base) = l.dropWhile (isDigitOf base) ++ c :: u := by
    rw [List.dropWhile_append]
    split
    · rename_i hnil
      rw [List.dropWhile_cons_of_neg (by simp [hdigit]), List.isEmpty_iff.mp hnil]
      rfl
    · rfl
  have hdigits : leadingDigits base (t ++ c :: u) = leadingDigits base t := by
    rw [leadingDigits, hdrop, hsplit]
    exact htake _
  constructor
  · rw [leading, hdigits, hdrop, hsplit]
    rfl
  · rw [rest, hdigits, hdrop, hsplit]
    simp only [hbehind]
    rw [rest]
    split <;> rfl

/-! ## What else is read to its end -/

theorem splitSign_cases (s : List Char) :
    splitSign s = (false, s) ∨ (∃ t, s = '+' :: t ∧ splitSign s = (false, t)) ∨
      ∃ t, s = '-' :: t ∧ splitSign s = (true, t) := by
  unfold splitSign
  split
  · exact .inr (.inr ⟨_, rfl, rfl⟩)
  · exact .inr (.inl ⟨_, rfl, rfl⟩)
  · exact .inl rfl

/-- What is read to its end is empty, or a literal behind white space. -/
theorem rest_eq_nil_iff :
    rest base s = [] ↔
      s = [] ∨ ∃ blanks lit v, s = blanks ++ lit ∧ (∀ c ∈ blanks, isSpace c = true) ∧
        Literal base lit v := by
  constructor
  · intro h
    unfold rest at h
    split at h
    · exact .inl h
    · rename_i hne
      have hsplit : s = s.takeWhile isSpace ++ s.dropWhile isSpace := by simp
      have hall : ∀ c ∈ s.takeWhile isSpace, isSpace c = true :=
        fun c hc => List.mem_takeWhile_imp hc
      have hds : ∀ c ∈ (splitSign (s.dropWhile isSpace)).2, isDigitOf base c = true :=
        List.dropWhile_eq_nil_iff.mp h
      have hnil : (splitSign (s.dropWhile isSpace)).2 ≠ [] := by
        intro hnil
        simp [leadingDigits, hnil] at hne
      right
      rcases splitSign_cases (s.dropWhile isSpace) with hs | ⟨t, ht, hs⟩ | ⟨t, ht, hs⟩
      · rw [hs] at hds hnil
        exact ⟨_, _, _, hsplit, hall, .plain hnil hds⟩
      · rw [hs] at hds hnil
        rw [ht] at hsplit
        exact ⟨_, _, _, hsplit, hall, .plus hnil hds⟩
      · rw [hs] at hds hnil
        rw [ht] at hsplit
        exact ⟨_, _, _, hsplit, hall, .minus hnil hds⟩
  · intro h
    rcases h with rfl | ⟨blanks, lit, v, rfl, hblanks, hlit⟩
    · rfl
    · exact (hlit.leading hblanks).2

end Startup.Lib.Numeral
