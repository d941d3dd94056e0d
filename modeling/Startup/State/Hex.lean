import Startup.Lib.Hex
import Startup.State.Fields

/-!
# Data in the state (`init/state.c`)

Output of a job that is not in its log yet, and D-Bus messages, are kept as hexadecimal text.

* `stateDataToHex`, `stateHexToData`: the two directions.
* `hexLoop_ok`: the texts that are decoded.
* `hexCodec_iff`: data is read back, and a text is taken for what it encodes unless a pair of it
  has white space or a sign in front of a digit.
-/

namespace Startup

open Lib Lib.Hex

/-- `state_data_to_hex`. -/
def stateDataToHex (data : List UInt8) : Except Fault (List Char) := do
  nihAssert .stateDataToHex (data.length ≠ 0)
  .ok (data.flatMap byteDigits)

/-- The body of the loop of `state_hex_to_data`, for the text `str`. -/
def hexByte (a b : Char) : Restored UInt8 :=
  let str := [a, b].takeWhile (· ≠ '\x00')
  if (strtol str).erange ∨ (strtol str).endptr ≠ [] then notRestored
  else .ok (toByte (strtol str).value)

/-- The loop of `state_hex_to_data`. -/
def hexLoop : List Char → Restored (List UInt8)
  | a :: b :: hex => do
    let byte ← hexByte a b
    let decoded ← hexLoop hex
    .ok (byte :: decoded)
  | _ => .ok []

/-- `state_hex_to_data`: the data, and its length. -/
def stateHexToData (hex : List Char) : Restored (List UInt8 × Nat) := do
  restoreAssert .stateHexToData (hex.length ≠ 0)
  restoreAssert .stateHexToData (hex.length % 2 = 0)
  let decoded ← hexLoop hex
  restoreAssert .stateHexToData (decoded.length = hex.length / 2)
  .ok (decoded, decoded.length)

/-! ## What the codec is for -/

/-- Data is read back, with its length. -/
def HexRoundTrips (data : List UInt8) : Prop :=
  ∃ hex, stateDataToHex data = .ok hex ∧ stateHexToData hex = .ok (data, data.length)

/-- A text is decoded exactly if it has only hexadecimal digits, and encoding the result gives the
text again, in lower case. -/
def HexExact (hex : List Char) : Prop :=
  ((∃ r, stateHexToData hex = .ok r) ↔ ∀ c ∈ hex, isHexDigit c = true) ∧
    ∀ r, stateHexToData hex = .ok r → stateDataToHex r.1 = .ok (hex.map Char.toLower)

/-- The pairs that are decoded one by one. -/
def hexPairs : List Char → List (Char × Char)
  | a :: b :: hex => (a, b) :: hexPairs hex
  | _ => []

/-- A pair with white space or a sign in front of a digit stands in a text only where another pair
is neither of this kind nor two digits. -/
def NoSignedPair (hex : List Char) : Prop :=
  (∃ p ∈ hexPairs hex, isSigned p.1 p.2 = true) →
    ∃ p ∈ hexPairs hex,
      ¬(isHexDigit p.1 = true ∧ isHexDigit p.2 = true) ∧ isSigned p.1 p.2 = false

variable {a b : Char} {hex : List Char} {data : List UInt8}

/-! ## One pair -/

theorem hexByte_eq (ha : a ≠ '\x00') (hb : b ≠ '\x00') :
    hexByte a b = if (strtol [a, b]).erange ∨ (strtol [a, b]).endptr ≠ [] then notRestored
      else .ok (toByte (strtol [a, b]).value) := by
  simp [hexByte, ha, hb]

/-- The pairs that are decoded. -/
theorem hexByte_ok (ha : a ≠ '\x00') (hb : b ≠ '\x00') :
    (∃ byte, hexByte a b = .ok byte) ↔
      (isHexDigit a = true ∧ isHexDigit b = true) ∨ isSigned a b = true := by
  rw [hexByte_eq ha hb, ← strtol_pair]
  by_cases h : (strtol [a, b]).erange = true ∨ (strtol [a, b]).endptr ≠ []
  · rw [if_pos h]
    constructor
    · intro hok
      obtain ⟨byte, hok⟩ := hok
      cases hok
    · intro hread
      rw [hread.1, hread.2] at h
      simp at h
  · rw [if_neg h]
    rw [not_or, Bool.not_eq_true, not_not] at h
    exact ⟨fun _ => h, fun _ => ⟨_, rfl⟩⟩

theorem not_nul_of_isHexDigit (h : isHexDigit a = true) : a ≠ '\x00' := by
  rintro rfl
  cases h

/-- Two digits are decoded to the byte that they encode. -/
theorem hexByte_digits (ha : isHexDigit a = true) (hb : isHexDigit b = true) :
    ∃ byte, hexByte a b = .ok byte ∧ byteDigits byte = [a.toLower, b.toLower] ∧
      byte.toNat = 16 * digitValue a + digitValue b := by
  have hread := strtol_pair.mpr (.inl ⟨ha, hb⟩)
  obtain ⟨hlower_a, hlt_a⟩ := digit_digitValue ha
  obtain ⟨hlower_b, hlt_b⟩ := digit_digitValue hb
  have hnat : (toByte (strtol [a, b]).value).toNat = 16 * digitValue a + digitValue b := by
    rw [strtol_digits ha hb, toByte, UInt8.toNat_ofNat']
    omega
  refine ⟨toByte (strtol [a, b]).value, ?_, ?_, hnat⟩
  · rw [hexByte_eq (not_nul_of_isHexDigit ha) (not_nul_of_isHexDigit hb), hread.1, hread.2]
    simp
  · have hdiv : (16 * digitValue a + digitValue b) / 16 = digitValue a := by omega
    have hmod : (16 * digitValue a + digitValue b) % 16 = digitValue b := by omega
    rw [byteDigits, hnat, hdiv, hmod, hlower_a, hlower_b]

/-- The digits of a byte are decoded to it. -/
theorem hexByte_byteDigits (byte : UInt8) :
    hexByte (digit (byte.toNat / 16)) (digit (byte.toNat % 16)) = .ok byte := by
  have hlt := byte.toNat_lt
  obtain ⟨ha, hvalue_a⟩ := digit_facts (byte.toNat / 16) (by omega)
  obtain ⟨hb, hvalue_b⟩ := digit_facts (byte.toNat % 16) (by omega)
  obtain ⟨byte', hok, -, hnat⟩ := hexByte_digits ha hb
  have heq : byte' = byte := by
    apply UInt8.toNat.inj
    rw [hnat, hvalue_a, hvalue_b]
    omega
  rw [hok, heq]

/-! ## The loop -/

/-- What is encoded is decoded again. -/
theorem hexLoop_flatMap (data : List UInt8) : hexLoop (data.flatMap byteDigits) = .ok data := by
  induction data with
  | nil => rfl
  | cons byte data ih =>
    rw [List.flatMap_cons]
    show (hexByte _ _ >>= fun byte => hexLoop (data.flatMap byteDigits) >>= fun decoded =>
      .ok (byte :: decoded)) = _
    rw [hexByte_byteDigits, ih]
    rfl

theorem hexLoop_cons (a b : Char) (hex : List Char) :
    hexLoop (a :: b :: hex) = hexByte a b >>= fun byte => hexLoop hex >>= fun decoded =>
      .ok (byte :: decoded) := rfl

theorem short_cases (h : ∀ (a b : Char) (s : List Char), hex = a :: b :: s → False) :
    hex = [] ∨ ∃ c, hex = [c] := by
  rcases hex with - | ⟨a, - | ⟨b, s⟩⟩
  · exact .inl rfl
  · exact .inr ⟨a, rfl⟩
  · exact absurd rfl (h a b s)

/-- Each pair gives one byte. -/
theorem hexLoop_length (h : hexLoop hex = .ok data) : data.length = hex.length / 2 := by
  induction hex using hexLoop.induct generalizing data with
  | case1 a b hex ih =>
    rw [hexLoop_cons] at h
    cases hbyte : hexByte a b with
    | error e =>
      rw [hbyte] at h
      cases h
    | ok byte =>
      cases hloop : hexLoop hex with
      | error e =>
        rw [hbyte, hloop] at h
        cases h
      | ok decoded =>
        rw [hbyte, hloop] at h
        cases h
        rw [List.length_cons, List.length_cons, List.length_cons, ih hloop]
        omega
  | case2 hex hshort =>
    rcases short_cases hshort with rfl | ⟨c, rfl⟩
    · cases h
      rfl
    · cases h
      simp

/-- The texts that are decoded: every pair is. -/
theorem hexLoop_ok (hnul : '\x00' ∉ hex) :
    (∃ data, hexLoop hex = .ok data) ↔
      ∀ p ∈ hexPairs hex,
        (isHexDigit p.1 = true ∧ isHexDigit p.2 = true) ∨ isSigned p.1 p.2 = true := by
  induction hex using hexLoop.induct with
  | case1 a b hex ih =>
    simp only [List.mem_cons, not_or] at hnul
    rw [hexPairs, List.forall_mem_cons, ← ih hnul.2.2, ← hexByte_ok (Ne.symm hnul.1)
      (Ne.symm hnul.2.1), hexLoop_cons]
    cases hexByte a b with
    | error e => simp [bind, Except.bind]
    | ok byte =>
      cases hexLoop hex with
      | error e => simp [bind, Except.bind]
      | ok decoded => simp [bind, Except.bind]
  | case2 hex hshort =>
    rcases short_cases hshort with rfl | ⟨c, rfl⟩
    · simp [hexLoop, hexPairs]
    · simp [hexLoop, hexPairs]

/-- A text of digits is decoded to the data that it encodes. -/
theorem hexLoop_digits (heven : hex.length % 2 = 0) (h : ∀ c ∈ hex, isHexDigit c = true) :
    ∃ data, hexLoop hex = .ok data ∧ data.flatMap byteDigits = hex.map Char.toLower := by
  induction hex using hexLoop.induct with
  | case1 a b hex ih =>
    rw [List.forall_mem_cons, List.forall_mem_cons] at h
    rw [List.length_cons, List.length_cons] at heven
    obtain ⟨byte, hbyte, hlower, -⟩ := hexByte_digits h.1 h.2.1
    obtain ⟨data, hloop, hmap⟩ := ih (by omega) h.2.2
    refine ⟨byte :: data, ?_, ?_⟩
    · rw [hexLoop_cons, hbyte, hloop]
      rfl
    · rw [List.flatMap_cons, hlower, hmap]
      rfl
  | case2 hex hshort =>
    rcases short_cases hshort with rfl | ⟨c, rfl⟩
    · exact ⟨[], rfl, rfl⟩
    · cases heven

theorem forall_hexPairs (heven : hex.length % 2 = 0) (p : Char → Bool) :
    (∀ c ∈ hex, p c = true) ↔ ∀ q ∈ hexPairs hex, p q.1 = true ∧ p q.2 = true := by
  induction hex using hexLoop.induct with
  | case1 a b hex ih =>
    rw [List.length_cons, List.length_cons] at heven
    rw [hexPairs, List.forall_mem_cons, List.forall_mem_cons, List.forall_mem_cons,
      ih (by omega), and_assoc]
  | case2 hex hshort =>
    rcases short_cases hshort with rfl | ⟨c, rfl⟩
    · simp [hexPairs]
    · cases heven

/-! ## The codec -/

/-- No assertion fails for a text of the right length. -/
theorem stateHexToData_eq (hne : hex ≠ []) (heven : hex.length % 2 = 0) :
    stateHexToData hex = (hexLoop hex).map fun data => (data, data.length) := by
  have hlength : hex.length ≠ 0 := by simpa using hne
  unfold stateHexToData
  cases hloop : hexLoop hex with
  | error e => simp [restoreAssert, check, hlength, heven, bind, Except.bind, Except.map]
  | ok data =>
    have hdata := hexLoop_length hloop
    simp [restoreAssert, check, hlength, heven, hdata, bind, Except.bind, Except.map]

theorem stateDataToHex_eq (h : data ≠ []) :
    stateDataToHex data = .ok (data.flatMap byteDigits) := by
  have hlength : data.length ≠ 0 := by simpa using h
  simp [stateDataToHex, nihAssert, check, hlength, bind, Except.bind]

theorem hexRoundTrips (h : data ≠ []) : HexRoundTrips data := by
  refine ⟨_, stateDataToHex_eq h, ?_⟩
  have hlength : (data.flatMap byteDigits).length = 2 * data.length := by
    simp [byteDigits, Nat.mul_comm]
  have hpos := List.length_pos_iff.mpr h
  rw [stateHexToData_eq (List.ne_nil_of_length_pos (by omega)) (by omega), hexLoop_flatMap]
  rfl

theorem not_isHexDigit_of_isSigned (h : isSigned a b = true) : isHexDigit a = false := by
  by_contra hhex
  have hhex : isHexDigit a = true := by simpa using hhex
  simp only [isSigned, not_isSpace_of_isHexDigit hhex, Bool.false_or, Bool.and_eq_true,
    Bool.or_eq_true, decide_eq_true_eq] at h
  rcases h.1 with rfl | rfl
  · cases hhex
  · cases hhex

/-- Data is read back; and a text is decoded exactly if it is of digits, unless all its pairs are
decoded and one of them is no pair of digits. -/
theorem hexCodec_iff (hdata : data ≠ []) (hne : hex ≠ []) (heven : hex.length % 2 = 0)
    (hnul : '\x00' ∉ hex) : HexRoundTrips data ∧ (HexExact hex ↔ NoSignedPair hex) := by
  refine ⟨hexRoundTrips hdata, ?_⟩
  have hresult : ∀ r, stateHexToData hex = .ok r ↔
      ∃ decoded, hexLoop hex = .ok decoded ∧ r = (decoded, decoded.length) := by
    intro r
    rw [stateHexToData_eq hne heven]
    cases hexLoop hex with
    | error e => simp [Except.map]
    | ok decoded => simp [Except.map, eq_comm]
  have hok : (∃ r, stateHexToData hex = .ok r) ↔
      ∀ p ∈ hexPairs hex,
        (isHexDigit p.1 = true ∧ isHexDigit p.2 = true) ∨ isSigned p.1 p.2 = true := by
    rw [← hexLoop_ok hnul]
    simp [hresult]
  have hdigits := forall_hexPairs heven isHexDigit
  constructor
  · intro h hsigned
    obtain ⟨p, hp, hsigned⟩ := hsigned
    by_contra hother
    have hall : ∀ q ∈ hexPairs hex,
        (isHexDigit q.1 = true ∧ isHexDigit q.2 = true) ∨ isSigned q.1 q.2 = true := by
      intro q hq
      by_contra hq'
      rw [not_or, Bool.not_eq_true] at hq'
      exact hother ⟨q, hq, hq'⟩
    have hpair := hdigits.mp (h.1.mp (hok.mpr hall)) p hp
    rw [not_isHexDigit_of_isSigned hsigned] at hpair
    cases hpair.1
  · intro h
    have hexact : (∃ r, stateHexToData hex = .ok r) ↔ ∀ c ∈ hex, isHexDigit c = true := by
      rw [hok, hdigits]
      constructor
      · intro hall p hp
        rcases hall p hp with hpair | hsigned
        · exact hpair
        · obtain ⟨q, hq, hnot, hnone⟩ := h ⟨p, hp, hsigned⟩
          rcases hall q hq with hpair | hsigned'
          · exact absurd hpair hnot
          · rw [hnone] at hsigned'
            cases hsigned'
      · exact fun hall p hp => .inl (hall p hp)
    refine ⟨hexact, ?_⟩
    intro r hr
    obtain ⟨data, hloop, hlower⟩ := hexLoop_digits heven (hexact.mp ⟨r, hr⟩)
    obtain ⟨decoded, hloop', rfl⟩ := (hresult r).mp hr
    rw [hloop] at hloop'
    cases hloop'
    have hlength := hexLoop_length hloop
    have hpos := List.length_pos_iff.mpr hne
    have hdata_ne : data ≠ [] := List.ne_nil_of_length_pos (by omega)
    rw [stateDataToHex_eq hdata_ne, hlower]

/-- A byte, and a text in upper case. -/
theorem hexCodec_iff_upperCase :
    HexRoundTrips [0, 255] ∧ (HexExact "0AfF".toList ↔ NoSignedPair "0AfF".toList) :=
  hexCodec_iff (by decide) (by decide) (by decide) (by decide)

/-- A minus sign is taken for a part of the data. -/
theorem signedPair_decoded :
    stateHexToData "-f".toList = .ok ([241], 1) ∧ ¬ HexExact "-f".toList := by
  have hok : stateHexToData "-f".toList = .ok ([241], 1) := by decide
  refine ⟨hok, ?_⟩
  intro h
  have hdigit := h.1.mp ⟨_, hok⟩ '-' (by decide)
  cases hdigit

end Startup
