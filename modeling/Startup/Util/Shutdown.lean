import Startup.Lib.Numeral

/-!
# The time that `shutdown` is given (`util/shutdown.c`)

`main` makes a number of minutes of `TIME` and counts them down with a timer that fires once a
minute.  A text is the list of the characters before its NUL.

* `parseTime`: the number of minutes, or the value that is refused.
* `Means`: what the help text says that `TIME` may be, and what it means then.
* `Taken`: what `strtoul` and the checks behind it let pass for a number.
* `parseTime_iff`: the texts with which the program does what it says.
* `timerCallback_down`: the machine goes down when that many minutes have passed.
-/

namespace Startup.Shutdown

open Lib.Numeral

/-! ## Reading the argument -/

/-- `tm_hour` and `tm_min` of `localtime`. -/
structure TimeOfDay where
  hour : Nat
  min : Nat
  hour_lt : hour < 24
  min_lt : min < 60

/-- The minutes since midnight. -/
def TimeOfDay.minutes (tm : TimeOfDay) : Int := tm.hour * 60 + tm.min

/-- "illegal hour value", "illegal minute value" and "illegal time value" -/
inductive TimeError where
  | illegalHour
  | illegalMinute
  | illegalTime
  deriving DecidableEq, Repr

/-- Clock time.  The current time is subtracted, and a whole day is added where that goes
negative. -/
def clockTime (tm : TimeOfDay) (text : List Char) : Except TimeError Int :=
  let hour := strtoul 10 text
  let hours := toLong hour.value
  if hour.endptr.head? ≠ some ':' ∨ hours < 0 ∨ 23 < hours then .error .illegalHour
  else
    let minute := strtoul 10 hour.endptr.tail
    let mins := toLong minute.value
    if minute.endptr ≠ [] ∨ mins < 0 ∨ 59 < mins then .error .illegalMinute
    else
      let delay := toInt (hours * 60 + mins - tm.minutes)
      .ok (if delay < 0 then delay + 1440 else delay)

/-- Delay in minutes, which is an `int`. -/
def delayTime (text : List Char) : Except TimeError Int :=
  let number := strtoul 10 text
  let delay := toInt number.value
  if number.endptr ≠ [] ∨ delay < 0 then .error .illegalTime
  else .ok delay

/-- What `main` makes of the time argument. -/
def parseTime (tm : TimeOfDay) (text : List Char) : Except TimeError Int :=
  if text = "now".toList then .ok 0
  else if ':' ∈ text then clockTime tm text
  else delayTime text

/-! ## What the argument may be -/

/-- The forms of `TIME`, and the minutes that each means at a time of the day. -/
inductive Means (tm : TimeOfDay) : List Char → Int → Prop where
  | now : Means tm "now".toList 0
  | minutes {ds : List Char} (hds : Digits 10 ds) (hmax : (magnitude 10 ds : Int) ≤ intMax) :
      Means tm ds (magnitude 10 ds)
  | plus {ds : List Char} (hds : Digits 10 ds) (hmax : (magnitude 10 ds : Int) ≤ intMax) :
      Means tm ('+' :: ds) (magnitude 10 ds)
  | clock {hh mm : List Char} (hhh : Digits 10 hh) (hmm : Digits 10 mm)
      (hhour : magnitude 10 hh ≤ 23) (hmin : magnitude 10 mm ≤ 59) :
      Means tm (hh ++ ':' :: mm)
        ((magnitude 10 hh * 60 + magnitude 10 mm - tm.minutes) % 1440)

/-- The text is empty or a literal behind white space, and what `strtoul` and the conversion to
the type of the variable leave of its number is in range. -/
def Taken (reduce : Int → Int) (max : Int) (s : List Char) : Prop :=
  s = [] ∨ ∃ blanks lit v, s = blanks ++ lit ∧ (∀ c ∈ blanks, isSpace c = true) ∧
    Literal 10 lit v ∧ 0 ≤ reduce (unsignedLong v) ∧ reduce (unsignedLong v) ≤ max

/-- The part before the first colon. -/
def hourPart (text : List Char) : List Char := text.takeWhile (· != ':')

/-- The part behind the first colon. -/
def minutePart (text : List Char) : List Char := (text.dropWhile (· != ':')).tail

/-- What is taken for numbers is written as a number of that size. -/
def WrittenOut (text : List Char) : Prop :=
  if ':' ∈ text then
    Taken toLong 23 (hourPart text) → Taken toLong 59 (minutePart text) →
      Digits 10 (hourPart text) ∧ Digits 10 (minutePart text)
  else
    Taken toInt intMax text →
      ∃ ds, (text = ds ∨ text = '+' :: ds) ∧ Digits 10 ds ∧ (magnitude 10 ds : Int) ≤ intMax

/-! ## What is taken -/

variable {tm : TimeOfDay} {text hh mm s : List Char} {d max v : Int} {reduce : Int → Int}

theorem taken_iff (hzero : reduce 0 = 0) (hmax : 0 ≤ max) :
    Taken reduce max s ↔
      rest 10 s = [] ∧ 0 ≤ reduce (unsignedLong (leading 10 s)) ∧
        reduce (unsignedLong (leading 10 s)) ≤ max := by
  rw [rest_eq_nil_iff]
  constructor
  · intro h
    rcases h with rfl | ⟨blanks, lit, v, rfl, hblanks, hlit, hlo, hhi⟩
    · have hnone : reduce (unsignedLong (leading 10 [])) = 0 := hzero
      rw [hnone]
      exact ⟨.inl rfl, le_rfl, hmax⟩
    · rw [(hlit.leading hblanks).1]
      exact ⟨.inr ⟨blanks, lit, v, rfl, hblanks, hlit⟩, hlo, hhi⟩
  · intro h
    obtain ⟨h, hlo, hhi⟩ := h
    rcases h with rfl | ⟨blanks, lit, v, rfl, hblanks, hlit⟩
    · exact .inl rfl
    · rw [(hlit.leading hblanks).1] at hlo hhi
      exact .inr ⟨blanks, lit, v, rfl, hblanks, hlit, hlo, hhi⟩

theorem clock_taken_iff (hmax : 0 ≤ max) :
    Taken toLong max s ↔ rest 10 s = [] ∧ 0 ≤ toLong (unsignedLong (leading 10 s)) ∧
      toLong (unsignedLong (leading 10 s)) ≤ max :=
  taken_iff rfl hmax

theorem delay_taken_iff :
    Taken toInt intMax s ↔ rest 10 s = [] ∧ 0 ≤ toInt (unsignedLong (leading 10 s)) := by
  rw [taken_iff rfl (by decide)]
  constructor
  · intro h
    exact ⟨h.1, h.2.1⟩
  · intro h
    exact ⟨h.1, h.2, toInt_le _⟩

/-- Of a number of hours or minutes that is taken, nothing is lost. -/
theorem toLong_unsignedLong (hv : 0 ≤ v) (hpos : 0 ≤ toLong (unsignedLong v)) :
    toLong (unsignedLong v) = v := by
  have hbig : toLong ulongMax = -1 := by decide
  unfold unsignedLong at hpos ⊢
  split at hpos
  · rw [hbig] at hpos
    contradiction
  · rename_i hfits
    rw [if_neg hfits]
    unfold ulongMax at hfits
    have hmod : v % ((2 ^ 64 : Nat) : Int) = v := Int.emod_eq_of_lt hv (by omega)
    have hmod' : v % 2 ^ 64 = v := hmod
    rw [hmod'] at hpos ⊢
    unfold toLong at hpos ⊢
    rw [Int.bmod_def, hmod] at hpos ⊢
    split at hpos
    · rename_i hlow
      rw [if_pos hlow]
    · omega

/-- A number that is small enough is taken as it is. -/
theorem toLong_unsignedLong_of_le (hv : 0 ≤ v) (hmax : v ≤ 59) :
    toLong (unsignedLong v) = v := by
  rw [unsignedLong_eq_self hv (by unfold ulongMax; omega)]
  exact toLong_eq_self (by unfold longMin; omega) (by unfold longMax; omega)

theorem toInt_unsignedLong_of_le (hv : 0 ≤ v) (hmax : v ≤ intMax) :
    toInt (unsignedLong v) = v := by
  unfold intMax at hmax
  rw [unsignedLong_eq_self hv (by unfold ulongMax; omega)]
  exact toInt_eq_self (by omega) hmax

/-! ## Clock times -/

theorem mem_of_mem_rest {c : Char} (h : c ∈ rest 10 s) : c ∈ s := by
  have hsign : ∀ t : List Char, (splitSign t).2 <:+ t := by
    intro t
    rcases splitSign_cases t with hs | ⟨u, rfl, hs⟩ | ⟨u, rfl, hs⟩
    · exact hs.symm ▸ List.suffix_refl t
    · exact hs.symm ▸ List.suffix_cons _ _
    · exact hs.symm ▸ List.suffix_cons _ _
  unfold rest at h
  split at h
  · exact h
  · have hmem := (hsign _).subset ((List.dropWhile_suffix _).subset h)
    exact (List.dropWhile_suffix _).subset hmem

/-- The conversion of the hours stops at the first colon. -/
theorem read_hours :
    leading 10 (hh ++ ':' :: mm) = leading 10 hh ∧
      rest 10 (hh ++ ':' :: mm) = rest 10 hh ++ ':' :: mm :=
  read_append hh mm (by decide) (by decide) (by decide)

theorem head?_rest (mm : List Char) (hcolon : ':' ∉ hh) :
    (rest 10 hh ++ ':' :: mm).head? = some ':' ↔ rest 10 hh = [] := by
  cases hrest : rest 10 hh with
  | nil => simp
  | cons c t =>
    have hmem : c ∈ hh := mem_of_mem_rest (by simp [hrest])
    have hne : c ≠ ':' := by
      intro heq
      rw [heq] at hmem
      exact hcolon hmem
    simp [hne]

/-- The delay is the difference modulo a day. -/
theorem wrap_day {hours mins : Int} (hhour : 0 ≤ hours ∧ hours ≤ 23)
    (hmin : 0 ≤ mins ∧ mins ≤ 59) :
    (if toInt (hours * 60 + mins - tm.minutes) < 0
      then toInt (hours * 60 + mins - tm.minutes) + 1440
      else toInt (hours * 60 + mins - tm.minutes)) =
      (hours * 60 + mins - tm.minutes) % 1440 := by
  have hday : 0 ≤ tm.minutes ∧ tm.minutes < 1440 := by
    have h := tm.hour_lt
    have h' := tm.min_lt
    unfold TimeOfDay.minutes
    omega
  rw [toInt_eq_self (by omega) (by unfold intMax; omega)]
  omega

theorem clockTime_ok_iff (tm : TimeOfDay) (hcolon : ':' ∉ hh) :
    clockTime tm (hh ++ ':' :: mm) = .ok d ↔
      Taken toLong 23 hh ∧ Taken toLong 59 mm ∧
        d = (toLong (unsignedLong (leading 10 hh)) * 60 +
          toLong (unsignedLong (leading 10 mm)) - tm.minutes) % 1440 := by
  have hhead := head?_rest mm hcolon
  rw [clock_taken_iff (by decide), clock_taken_iff (by decide)]
  simp only [clockTime, strtoul_value, strtoul_endptr, read_hours.1, read_hours.2]
  split
  · rename_i hbad
    constructor
    · intro h
      contradiction
    · intro h
      obtain ⟨⟨hend, hlo, hhi⟩, -⟩ := h
      rcases hbad with hbad | hbad | hbad
      · exact absurd (hhead.mpr hend) hbad
      · omega
      · omega
  · rename_i hgood
    push Not at hgood
    obtain ⟨hend, hlo, hhi⟩ := hgood
    rw [hhead.mp hend, List.nil_append, List.tail_cons]
    split
    · rename_i hbad
      constructor
      · intro h
        contradiction
      · intro h
        obtain ⟨-, ⟨hend', hlo', hhi'⟩, -⟩ := h
        rcases hbad with hbad | hbad | hbad
        · exact absurd hend' hbad
        · omega
        · omega
    · rename_i hgood'
      push Not at hgood'
      rw [wrap_day ⟨hlo, hhi⟩ hgood'.2, Except.ok.injEq]
      constructor
      · intro h
        exact ⟨⟨rfl, hlo, hhi⟩, hgood', h.symm⟩
      · intro h
        exact h.2.2.symm

theorem delayTime_ok_iff :
    delayTime text = .ok d ↔
      Taken toInt intMax text ∧ d = toInt (unsignedLong (leading 10 text)) := by
  rw [delay_taken_iff]
  simp only [delayTime, strtoul_value, strtoul_endptr]
  split
  · rename_i hbad
    constructor
    · intro h
      contradiction
    · intro h
      rcases hbad with hbad | hbad
      · exact absurd h.1.1 hbad
      · omega
  · rename_i hgood
    push Not at hgood
    rw [Except.ok.injEq]
    constructor
    · intro h
      exact ⟨hgood, h.symm⟩
    · intro h
      exact h.2.symm

/-! ## When the argument is read as it is written -/

/-- A text with a colon is its two parts. -/
theorem parts_eq (hcolon : ':' ∈ text) :
    text = hourPart text ++ ':' :: minutePart text ∧ ':' ∉ hourPart text := by
  have hsplit : text.takeWhile (· != ':') ++ text.dropWhile (· != ':') = text := by simp
  have hhour : ':' ∉ hourPart text := by
    intro hmem
    simpa using List.mem_takeWhile_imp hmem
  refine ⟨?_, hhour⟩
  cases hdrop : text.dropWhile (· != ':') with
  | nil =>
    rw [hdrop, List.append_nil] at hsplit
    rw [← hsplit] at hcolon
    contradiction
  | cons c t =>
    have hc : c = ':' := by
      have hhead := List.head_dropWhile_not (· != ':') (l := text) (by simp [hdrop])
      simpa [hdrop] using hhead
    rw [hdrop, hc] at hsplit
    rw [minutePart, hdrop, List.tail_cons]
    exact hsplit.symm

/-- The first colon tells the parts. -/
theorem parts_append (mm : List Char) (hcolon : ':' ∉ hh) :
    hourPart (hh ++ ':' :: mm) = hh ∧ minutePart (hh ++ ':' :: mm) = mm := by
  have hall : ∀ c ∈ hh, (c != ':') = true := by
    intro c hc
    have hne : c ≠ ':' := by
      intro heq
      rw [heq] at hc
      exact hcolon hc
    simpa using hne
  constructor
  · rw [hourPart, List.takeWhile_append_of_pos hall]
    simp
  · rw [minutePart, List.dropWhile_append_of_pos hall]
    simp

/-- What a text with a colon means is a clock time. -/
theorem means_clock_iff (hcolon : ':' ∉ hh) :
    Means tm (hh ++ ':' :: mm) d ↔
      Digits 10 hh ∧ Digits 10 mm ∧ magnitude 10 hh ≤ 23 ∧ magnitude 10 mm ≤ 59 ∧
        d = (magnitude 10 hh * 60 + magnitude 10 mm - tm.minutes) % 1440 := by
  constructor
  · intro h
    generalize htext : hh ++ ':' :: mm = text at h
    have hmem : ':' ∈ text := by simp [← htext]
    cases h with
    | now => exact absurd hmem (by decide)
    | minutes hds => exact absurd hmem (hds.not_mem (by decide))
    | plus hds => exact absurd (List.mem_of_ne_of_mem (by decide) hmem) (hds.not_mem (by decide))
    | @clock hh' mm' hhh hmm hhour hmin =>
      have hparts := parts_append mm hcolon
      have hparts' := parts_append mm' (hhh.not_mem (c := ':') (by decide))
      rw [htext] at hparts
      rw [← hparts.1, ← hparts.2, hparts'.1, hparts'.2]
      exact ⟨hhh, hmm, hhour, hmin, rfl⟩
  · intro h
    obtain ⟨hhh, hmm, hhour, hmin, rfl⟩ := h
    exact .clock hhh hmm hhour hmin

/-- What any other text means is `now` or a number of minutes. -/
theorem means_delay_iff (hcolon : ':' ∉ text) (hnow : text ≠ "now".toList) :
    Means tm text d ↔
      ∃ ds, (text = ds ∨ text = '+' :: ds) ∧ Digits 10 ds ∧ (magnitude 10 ds : Int) ≤ intMax ∧
        d = magnitude 10 ds := by
  constructor
  · intro h
    cases h with
    | now => exact absurd rfl hnow
    | minutes hds hmax => exact ⟨_, .inl rfl, hds, hmax, rfl⟩
    | plus hds hmax => exact ⟨_, .inr rfl, hds, hmax, rfl⟩
    | clock => exact absurd (by simp) hcolon
  · intro h
    obtain ⟨ds, htext | htext, hds, hmax, rfl⟩ := h
    · rw [htext]
      exact .minutes hds hmax
    · rw [htext]
      exact .plus hds hmax

/-- A part in digits that is taken is in the range of the check. -/
theorem digits_taken (h : Digits 10 s) (hmax : 0 ≤ max ∧ max ≤ 59) :
    Taken toLong max s ↔ (magnitude 10 s : Int) ≤ max := by
  rw [clock_taken_iff hmax.1, h.literal.rest_eq, h.literal.leading_eq]
  constructor
  · intro h
    obtain ⟨-, hpos, hle⟩ := h
    rwa [toLong_unsignedLong (by omega) hpos] at hle
  · intro h
    rw [toLong_unsignedLong_of_le (by omega) (by omega)]
    exact ⟨rfl, by omega, h⟩

/-- The minutes that a clock time of digits is read as. -/
theorem digits_clock (hhh : Digits 10 hh) (hhour : magnitude 10 hh ≤ 59) :
    toLong (unsignedLong (leading 10 hh)) = magnitude 10 hh := by
  rw [hhh.literal.leading_eq]
  exact toLong_unsignedLong_of_le (by omega) (by omega)

theorem clockTime_iff (tm : TimeOfDay) (mm : List Char) (hcolon : ':' ∉ hh) :
    (∀ d, clockTime tm (hh ++ ':' :: mm) = .ok d ↔ Means tm (hh ++ ':' :: mm) d) ↔
      (Taken toLong 23 hh → Taken toLong 59 mm → Digits 10 hh ∧ Digits 10 mm) := by
  constructor
  · intro h hhour hmin
    have hok := (clockTime_ok_iff tm hcolon).mpr ⟨hhour, hmin, rfl⟩
    have hmeans := (means_clock_iff hcolon).mp ((h _).mp hok)
    exact ⟨hmeans.1, hmeans.2.1⟩
  · intro h d
    rw [clockTime_ok_iff tm hcolon, means_clock_iff hcolon]
    constructor
    · intro hok
      obtain ⟨hhour, hmin, rfl⟩ := hok
      obtain ⟨hhh, hmm⟩ := h hhour hmin
      have hh23 := (digits_taken hhh (by decide)).mp hhour
      have hm59 := (digits_taken hmm (by decide)).mp hmin
      rw [digits_clock hhh (by omega), digits_clock hmm (by omega)]
      exact ⟨hhh, hmm, by omega, by omega, rfl⟩
    · intro hmeans
      obtain ⟨hhh, hmm, hh23, hm59, rfl⟩ := hmeans
      rw [digits_clock hhh (by omega), digits_clock hmm (by omega)]
      exact ⟨(digits_taken hhh (by decide)).mpr (by omega),
        (digits_taken hmm (by decide)).mpr (by omega), rfl⟩

/-- Minutes as they are documented are read to their end, and none is lost. -/
theorem delay_documented {ds : List Char} (htext : text = ds ∨ text = '+' :: ds)
    (hds : Digits 10 ds) (hmax : (magnitude 10 ds : Int) ≤ intMax) :
    Taken toInt intMax text ∧ toInt (unsignedLong (leading 10 text)) = magnitude 10 ds := by
  have hlit : Literal 10 text (magnitude 10 ds) := by
    rcases htext with rfl | rfl
    · exact hds.literal
    · exact .plus hds.1 hds.2
  have hvalue := toInt_unsignedLong_of_le (v := magnitude 10 ds) (by omega) hmax
  rw [delay_taken_iff, hlit.rest_eq, hlit.leading_eq, hvalue]
  exact ⟨⟨rfl, by omega⟩, rfl⟩

theorem delayTime_iff (hcolon : ':' ∉ text) (hnow : text ≠ "now".toList) :
    (∀ d, delayTime text = .ok d ↔ Means tm text d) ↔
      (Taken toInt intMax text →
        ∃ ds, (text = ds ∨ text = '+' :: ds) ∧ Digits 10 ds ∧
          (magnitude 10 ds : Int) ≤ intMax) := by
  constructor
  · intro h htaken
    have hok := delayTime_ok_iff.mpr ⟨htaken, rfl⟩
    obtain ⟨ds, htext, hds, hmax, -⟩ := (means_delay_iff hcolon hnow).mp ((h _).mp hok)
    exact ⟨ds, htext, hds, hmax⟩
  · intro h d
    rw [delayTime_ok_iff, means_delay_iff hcolon hnow]
    constructor
    · intro hok
      obtain ⟨htaken, rfl⟩ := hok
      obtain ⟨ds, htext, hds, hmax⟩ := h htaken
      exact ⟨ds, htext, hds, hmax, (delay_documented htext hds hmax).2⟩
    · intro hmeans
      obtain ⟨ds, htext, hds, hmax, rfl⟩ := hmeans
      have hread := delay_documented htext hds hmax
      exact ⟨hread.1, hread.2.symm⟩

/-- The argument is accepted in the documented forms only, with the minutes that they mean,
exactly where nothing else is taken for a number. -/
theorem parseTime_iff (tm : TimeOfDay) (text : List Char) :
    (∀ d, parseTime tm text = .ok d ↔ Means tm text d) ↔ WrittenOut text := by
  unfold parseTime WrittenOut
  by_cases hnow : text = "now".toList
  · have hcolon : ':' ∉ text := by
      rw [hnow]
      decide
    have hread : rest 10 text ≠ [] := by
      rw [hnow]
      decide
    rw [if_pos hnow, if_neg hcolon]
    constructor
    · intro h htaken
      exact absurd (delay_taken_iff.mp htaken).1 hread
    · intro h d
      constructor
      · intro hd
        cases hd
        rw [hnow]
        exact .now
      · intro hmeans
        generalize htext : text = t at hmeans
        cases hmeans with
        | now => rfl
        | minutes hds => exact absurd (htext ▸ hds.literal.rest_eq) hread
        | @plus ds hds =>
          have hlit : Literal 10 ('+' :: ds) (magnitude 10 ds) := .plus hds.1 hds.2
          exact absurd (htext ▸ hlit.rest_eq) hread
        | clock => exact absurd (by simp [htext]) hcolon
  · simp only [if_neg hnow]
    by_cases hcolon : ':' ∈ text
    · obtain ⟨heq, hhour⟩ := parts_eq hcolon
      simp only [if_pos hcolon]
      have h := clockTime_iff tm (minutePart text) hhour
      rwa [← heq] at h
    · simp only [if_neg hcolon]
      exact delayTime_iff hcolon hnow

/-- 2³² minutes are none at all. -/
theorem parseTime_wraps :
    ¬∀ (tm : TimeOfDay) (text : List Char) (d : Int),
      parseTime tm text = .ok d ↔ Means tm text d := by
  intro h
  have hok : parseTime ⟨0, 0, by decide, by decide⟩ "4294967296".toList = .ok 0 := by decide
  have hmeans := (h _ _ _).mp hok
  obtain ⟨ds, htext, -, -, hzero⟩ := (means_delay_iff (by decide) (by decide)).mp hmeans
  rcases htext with rfl | htext
  · exact absurd hzero (by decide)
  · simp at htext

/-! ## Counting down -/

/-- The delay, whether logins are refused, the delays that users were told of, and whether the
machine is going down. -/
structure Countdown where
  delay : Int
  nologin : Bool
  walls : List Int
  down : Bool

/-- What `main` does with the delay before it waits.  A delay of 0 is not waited for. -/
def Countdown.start (delay : Int) : Countdown where
  delay := delay
  nologin := false
  walls := [delay]
  down := delay = 0

/-- "Only warn at particular intervals" -/
def warns (delay : Int) : Bool :=
  if delay < 10 then true
  else if delay < 60 then delay % 15 = 0
  else if delay < 180 then delay % 30 = 0
  else delay % 60 = 0

/-- `timer_callback`, which is not called any more when the machine is going down. -/
def timerCallback (c : Countdown) : Countdown :=
  if c.down then c
  else
    { delay := c.delay - 1
      nologin := c.nologin || decide (c.delay - 1 ≤ 5)
      walls := if warns (c.delay - 1) then c.walls ++ [c.delay - 1] else c.walls
      down := c.delay - 1 = 0 }

/-- What holds of a delay of `d` minutes when `n` of them have passed. -/
structure Counting (d : Int) (n : Nat) (c : Countdown) : Prop where
  delay_eq : c.delay = if d ≤ n then 0 else d - n
  down_iff : c.down = true ↔ d ≤ n
  refused (hwaited : 0 < n ∧ 0 < d) (hlast : d - n ≤ 5) : c.nologin = true
  told (m : Nat) (hm : 0 < m ∧ m ≤ n) (hd : m ≤ d) (hwarns : warns (d - m) = true) :
    d - m ∈ c.walls

theorem Counting.timerCallback {n : Nat} {c : Countdown} (h : Counting d n c) :
    Counting d (n + 1) (timerCallback c) := by
  have hdelay := h.delay_eq
  unfold Shutdown.timerCallback
  split
  · rename_i hdown
    have hle := h.down_iff.mp hdown
    constructor
    · omega
    · simp only [hdown, true_iff]
      omega
    · intro hwaited _
      exact h.refused (by omega) (by omega)
    · intro m hm hmd
      exact h.told m (by omega) hmd
  · rename_i hup
    have hlt : ¬d ≤ n := fun hle => hup (h.down_iff.mpr hle)
    constructor
    · dsimp only
      omega
    · dsimp only
      rw [decide_eq_true_eq]
      omega
    · intro _ hlast
      simp only [Bool.or_eq_true, decide_eq_true_eq]
      omega
    · intro m hm hmd hwarns
      dsimp only
      by_cases hnew : m = n + 1
      · have heq : c.delay - 1 = d - m := by omega
        rw [heq, hwarns]
        simp
      · have hold := h.told m (by omega) hmd hwarns
        split
        · exact List.mem_append_left _ hold
        · exact hold

/-- The machine goes down when the minutes of the delay have passed, and not before. -/
theorem counting (hd : 0 ≤ d) (n : Nat) : Counting d n (timerCallback^[n] (.start d)) := by
  induction n with
  | zero =>
    constructor
    · simp only [Function.iterate_zero, id, Countdown.start]
      omega
    · simp only [Function.iterate_zero, id, Countdown.start, decide_eq_true_eq]
      omega
    · intro hwaited
      omega
    · intro m hm
      omega
  | succ n ih =>
    rw [Function.iterate_succ_apply']
    exact ih.timerCallback

end Startup.Shutdown
