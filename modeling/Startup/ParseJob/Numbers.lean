import Startup.ParseJob.Stanzas

/-!
# Numbers in stanzas (`init/parse_job.c`)

The arguments of `kill timeout`, `respawn limit`, `nice`, `oom`, `oom score`, `umask` and
`limit` are texts that a handler converts, stores in the class and then checks.  What is
documented is in `errors.h` and in the manual.

* `Slot`: an argument, with the conversion, the type of the variable, the check, and the
  numbers that are documented.
* `Slot.Documents`: a text is what is documented, and denotes a number.
* `readSlots`: the numbers that are stored one after the other, up to a refusal.
* `Outcome.Reads`: a handler does what the reading of its arguments says.
* `numericStanza_iff`: when a line is handled as documented.
-/

namespace Startup.ParseJob

open Lib Numeral

/-! ## Arguments -/

/-- A numeric argument: `strtol` or `strtoul`, with the base, the conversion to the type of
the variable, and the numbers that the check lets pass; the numbers that are documented; a word
that stands for a number; and what is stored of the number, if that does not overflow.
Documented numbers are read exactly. -/
structure Slot where
  base : Nat
  signed : Bool
  reduce : Int → Int
  lo : Int
  hi : Int
  docLo : Int
  docHi : Int
  keyword : Option (String × Int) := none
  scale : Int → Int := id
  fits : Int → Bool := fun _ => true
  exact (v : Int) (hlo : docLo ≤ v) (hhi : v ≤ docHi) :
    (if signed then longMin else 0) ≤ v ∧ v ≤ (if signed then longMax else ulongMax) ∧
      reduce v = v ∧ lo ≤ v ∧ v ≤ hi ∧ fits v = true
  keyword_unread : ∀ w ∈ keyword, rest base w.1.toList ≠ []

/-- "expected number of seconds", in a `time_t` -/
def seconds : Slot where
  base := 10
  signed := true
  reduce := id
  lo := 0
  hi := longMax
  docLo := 0
  docHi := longMax
  exact v hlo hhi := by
    simp only [longMin, longMax, if_true, id, true_and, and_true] at *
    omega
  keyword_unread := by simp

/-- "'unlimited' or integer", in an `int` -/
def count : Slot where
  base := 10
  signed := true
  reduce := toInt
  lo := 0
  hi := intMax
  docLo := 0
  docHi := intMax
  exact v hlo hhi := by
    have hv : toInt v = v := toInt_eq_self (by omega) hhi
    simp only [longMin, longMax, intMax, if_true, and_true] at *
    omega
  keyword_unread := by simp

/-- "expected -20 to 19" -/
def niceValue : Slot where
  base := 10
  signed := true
  reduce := toInt
  lo := -20
  hi := 19
  docLo := -20
  docHi := 19
  exact v hlo hhi := by
    have hv : toInt v = v := toInt_eq_self (by omega) (by unfold intMax; omega)
    simp only [longMin, longMax, if_true, and_true] at *
    omega
  keyword_unread := by simp

/-- "expected octal integer", which is a file creation mask -/
def mask : Slot where
  base := 8
  signed := false
  reduce := toUnsigned
  lo := 0
  hi := 0o777
  docLo := 0
  docHi := 0o777
  exact v hlo hhi := by
    have hv : toUnsigned v = v := toUnsigned_eq_self hlo (by omega)
    simp only [ulongMax, if_false, Bool.false_eq_true, and_true] at *
    omega
  keyword_unread := by simp

/-- "expected -999 to 1000 or 'never'" -/
def oomScoreValue : Slot where
  base := 10
  signed := true
  reduce := toInt
  lo := -1000
  hi := 1000
  docLo := -999
  docHi := 1000
  keyword := some ("never", -1000)
  exact v hlo hhi := by
    have hv : toInt v = v := toInt_eq_self (by omega) (by unfold intMax; omega)
    simp only [longMin, longMax, if_true, and_true] at *
    omega
  keyword_unread := by decide

/-- "expected -16 to 15 or 'never'", scaled to the score -/
def oomAdjustment : Slot where
  base := 10
  signed := true
  reduce := toInt
  lo := -17
  hi := 15
  docLo := -16
  docHi := 15
  keyword := some ("never", -1000)
  scale := fun v => (v * 1000).tdiv (if v < 0 then 17 else 15)
  fits := fun v => decide (-2 ^ 31 ≤ v * 1000 ∧ v * 1000 ≤ intMax)
  exact v hlo hhi := by
    have hv : toInt v = v := toInt_eq_self (by omega) (by unfold intMax; omega)
    have hfits : -2 ^ 31 ≤ v * 1000 ∧ v * 1000 ≤ intMax := by
      unfold intMax
      omega
    have hlong : longMin ≤ v ∧ v ≤ longMax := by
      simp only [longMin, longMax]
      omega
    exact ⟨hlong.1, hlong.2, hv, by omega, hhi, decide_eq_true hfits⟩
  keyword_unread := by decide

/-- "expected 'unlimited' or integer", in a `rlim_t` -/
def limitNumber : Slot where
  base := 10
  signed := false
  reduce := id
  lo := 0
  hi := ulongMax
  docLo := 0
  docHi := ulongMax
  keyword := some ("unlimited", ulongMax)
  exact v hlo hhi := by
    simp only [if_false, Bool.false_eq_true, id, true_and, and_true]
    omega
  keyword_unread := by decide

/-- A text is what is documented, and what is to be stored. -/
inductive Slot.Documents (k : Slot) (text : String) : Int → Prop where
  | keyword {v : Int} (h : k.keyword = some (text, v)) : k.Documents text v
  | literal {n : Int} (hlit : Literal k.base text.toList n) (hlo : k.docLo ≤ n)
      (hhi : n ≤ k.docHi) : k.Documents text (k.scale n)

def Slot.conversion (k : Slot) (text : String) : Conversion :=
  if k.signed then strtol k.base text.toList else strtoul k.base text.toList

/-- The number that a text begins with, as far as the library and the variable hold it. -/
def Slot.number (k : Slot) (text : String) : Int := k.reduce (k.conversion text).value

def Slot.keyword? (k : Slot) (text : String) : Option Int :=
  k.keyword.bind fun w => if text = w.1 then some w.2 else none

/-- What is stored. -/
def Slot.value (k : Slot) (text : String) : Int :=
  (k.keyword? text).getD (k.scale (k.number text))

def Slot.overflows (k : Slot) (text : String) : Bool :=
  (k.keyword? text).isNone && !k.fits (k.number text)

/-- The text passes the check: it is read to its end, its number is in the range of the
library, and what the variable holds of that is in the range of the check. -/
def Slot.takes (k : Slot) (text : String) : Bool :=
  (k.keyword? text).isSome ||
    (!(k.conversion text).erange && decide ((k.conversion text).endptr = []) &&
      decide (k.lo ≤ k.number text ∧ k.number text ≤ k.hi))

/-- What a handler stores of its arguments, in the order of the fields, and whether an `int`
overflows on the way and whether the line is accepted. -/
structure Reading where
  written : List Int
  overflow : Bool
  taken : Bool
  deriving DecidableEq, Repr

/-- The arguments are converted and checked one after the other; there must not be more. -/
def readSlots : List Slot → List Word → Reading
  | [], rest => ⟨[], false, rest.isEmpty⟩
  | _ :: _, [] => ⟨[], false, false⟩
  | k :: ks, arg :: rest =>
    if k.overflows arg.text then ⟨[], true, false⟩
    else if k.takes arg.text then
      { readSlots ks rest with written := k.value arg.text :: (readSlots ks rest).written }
    else ⟨[k.value arg.text], false, false⟩

/-- Every argument is what is documented. -/
inductive DocumentedAs : List Slot → List Word → List Int → Prop where
  | nil : DocumentedAs [] [] []
  | cons {k : Slot} {ks : List Slot} {arg : Word} {args : List Word} {v : Int} {vs : List Int}
      (h : k.Documents arg.text v) (hs : DocumentedAs ks args vs) :
      DocumentedAs (k :: ks) (arg :: args) (v :: vs)

variable {k : Slot} {ks : List Slot} {text : String} {v : Int} {vs : List Int}
  {args : List Word}

/-- What the check lets pass beside the word: the empty text, and literals also behind white
space, whose number is in the range of the library and then, as the variable holds it, in that
of the check. -/
theorem Slot.takes_iff (hword : k.keyword? text = none) :
    k.takes text = true ↔
      (text.toList = [] ∨ ∃ blanks lit v, text.toList = blanks ++ lit ∧
        (∀ c ∈ blanks, isSpace c = true) ∧ Literal k.base lit v) ∧
      (k.conversion text).erange = false ∧ k.lo ≤ k.number text ∧ k.number text ≤ k.hi := by
  have hend : (k.conversion text).endptr = rest k.base text.toList := by
    unfold Slot.conversion strtol strtoul
    split_ifs <;> rfl
  rw [← rest_eq_nil_iff, Slot.takes, hword, hend]
  simp only [Option.isSome_none, Bool.false_or, Bool.and_eq_true, Bool.not_eq_true',
    decide_eq_true_eq]
  rw [and_assoc, and_left_comm]

/-- A text whose end is reached is not the word. -/
theorem Slot.keyword?_of_rest (h : rest k.base text.toList = []) : k.keyword? text = none := by
  unfold Slot.keyword?
  cases hk : k.keyword with
  | none => rfl
  | some w =>
    have hunread := k.keyword_unread w hk
    have hne : text ≠ w.1 := by
      intro heq
      rw [heq] at h
      exact hunread h
    simp [hne]

/-- What is documented is taken for what it denotes. -/
theorem Slot.Documents.read (h : k.Documents text v) :
    k.takes text = true ∧ k.value text = v ∧ k.overflows text = false := by
  cases h with
  | keyword hk =>
    have hword : k.keyword? text = some v := by simp [Slot.keyword?, hk]
    simp [Slot.takes, Slot.value, Slot.overflows, hword]
  | @literal n hlit hlo hhi =>
    obtain ⟨hmin, hmax, hreduce, hpass, hpass', hfits⟩ := k.exact n hlo hhi
    have hword := k.keyword?_of_rest hlit.rest_eq
    have hconv : k.conversion text = ⟨n, false, []⟩ := by
      unfold Slot.conversion
      cases hsigned : k.signed with
      | true =>
        rw [hsigned, if_pos rfl] at hmin hmax
        exact hlit.strtol hmin hmax
      | false =>
        rw [hsigned, if_neg (by simp)] at hmin hmax
        exact hlit.strtoul hmin hmax
    have hnumber : k.number text = n := by rw [Slot.number, hconv, hreduce]
    simp [Slot.takes, Slot.value, Slot.overflows, hword, hconv, hnumber, hpass, hpass', hfits]

theorem DocumentedAs.read (h : DocumentedAs ks args vs) :
    readSlots ks args = ⟨vs, false, true⟩ := by
  induction h with
  | nil => rfl
  | cons h _ ih =>
    obtain ⟨htakes, hvalue, hover⟩ := h.read
    simp [readSlots, htakes, hvalue, hover, ih]

theorem DocumentedAs.length_eq (h : DocumentedAs ks args vs) : vs.length = ks.length := by
  induction h with
  | nil => rfl
  | cons _ _ ih => simp [ih]

/-! ## Stanzas -/

/-- The stanzas with numeric arguments.  `oom score` is a form of `oom`. -/
inductive NumericStanza where
  | killTimeout
  | respawnLimit
  | nice
  | oom
  | umask
  | limit (name : Word) (resource : Fin rlimitNlimits)
      (named : limitResource name.text = some resource)

namespace NumericStanza

/-- The line of a stanza with its arguments. -/
def line : NumericStanza → List Word → Line
  | killTimeout, args => { stanza := "kill", words := ⟨"timeout", "timeout"⟩ :: args }
  | respawnLimit, args => { stanza := "respawn", words := ⟨"limit", "limit"⟩ :: args }
  | nice, args => { stanza := "nice", words := args }
  | oom, args => { stanza := "oom", words := args }
  | umask, args => { stanza := "umask", words := args }
  | .limit name _ _, args => { stanza := "limit", words := name :: args }

/-- The fields that a stanza sets.  A limit that is not allocated has none. -/
def fields : NumericStanza → ClassSettings → List Int
  | killTimeout, c => [c.killTimeout]
  | respawnLimit, c => [c.respawnLimit, c.respawnInterval]
  | nice, c => [c.nice]
  | oom, c => [c.oomScoreAdj]
  | umask, c => [c.umask]
  | limit _ resource _, c => (c.limits resource).elim [] fun r => [r.rlimCur, r.rlimMax]

/-- The fields are there before the handler runs. -/
def allocated : NumericStanza → ClassSettings → Bool
  | limit _ resource _, c => (c.limits resource).isSome
  | killTimeout, _ => true
  | respawnLimit, _ => true
  | nice, _ => true
  | oom, _ => true
  | umask, _ => true

/-- The arguments of a stanza, which may start with a word. -/
def reading : NumericStanza → List Word → Reading
  | killTimeout, args => readSlots [seconds] args
  | respawnLimit, arg :: rest =>
    if arg.text = "unlimited" then ⟨[0, 0], false, rest.isEmpty⟩
    else readSlots [count, seconds] (arg :: rest)
  | respawnLimit, [] => readSlots [count, seconds] []
  | nice, args => readSlots [niceValue] args
  | oom, arg :: rest =>
    if arg.text = "score" then readSlots [oomScoreValue] rest
    else readSlots [oomAdjustment] (arg :: rest)
  | oom, [] => readSlots [oomAdjustment] []
  | umask, args => readSlots [mask] args
  | limit _ _ _, args => readSlots [limitNumber, limitNumber] args

/-- The documented forms of a stanza, with the numbers that they set. -/
inductive Documented : NumericStanza → List Word → List Int → Prop where
  | killTimeout {args : List Word} {vs : List Int} (h : DocumentedAs [seconds] args vs) :
      Documented killTimeout args vs
  | unlimited {arg : Word} (h : arg.text = "unlimited") : Documented respawnLimit [arg] [0, 0]
  | respawnLimit {args : List Word} {vs : List Int} (h : DocumentedAs [count, seconds] args vs) :
      Documented respawnLimit args vs
  | nice {args : List Word} {vs : List Int} (h : DocumentedAs [niceValue] args vs) :
      Documented nice args vs
  | oom {args : List Word} {vs : List Int} (h : DocumentedAs [oomAdjustment] args vs) :
      Documented oom args vs
  | oomScore {arg : Word} {args : List Word} {vs : List Int} (hword : arg.text = "score")
      (h : DocumentedAs [oomScoreValue] args vs) : Documented oom (arg :: args) vs
  | umask {args : List Word} {vs : List Int} (h : DocumentedAs [mask] args vs) :
      Documented umask args vs
  | limit {name : Word} {resource : Fin rlimitNlimits}
      {named : limitResource name.text = some resource} {args : List Word} {vs : List Int}
      (h : DocumentedAs [limitNumber, limitNumber] args vs) :
      Documented (limit name resource named) args vs

/-- The stanza is accepted exactly in its documented forms, and sets what they denote, without
an overflow; where it is rejected, the class keeps what it had. -/
def AsDocumented (x : Setup) (s : NumericStanza) (c : ClassSettings) (args : List Word) : Prop :=
  let o := parseStanza x c (s.line args)
  o.error ≠ some .overflow ∧ (o.error = none ↔ ∃ vs, s.Documented args vs) ∧
    (∀ vs, s.Documented args vs → s.fields o.cls = vs) ∧
    (o.error ≠ none → s.fields o.cls = s.fields c)

/-- The stanza is refused, and all that is stored by then is what the class has. -/
def Unspoilt (s : NumericStanza) (c : ClassSettings) (args : List Word) : Prop :=
  (s.reading args).taken = false ∧ (s.reading args).overflow = false ∧
    (s.reading args).written <+: s.fields c ∧ s.allocated c = true

end NumericStanza

/-! ## What the handlers do -/

/-- A handler does what a reading says: it writes its numbers over the fields. -/
structure Outcome.Reads (o : Outcome) (fields : ClassSettings → List Int) (old : List Int)
    (r : Reading) : Prop where
  overflow_iff : o.error = some .overflow ↔ r.overflow = true
  taken_iff : o.error = none ↔ r.taken = true
  fields_eq (h : r.overflow = false) : fields o.cls = r.written ++ old.drop r.written.length

variable {x : Setup} {c c' : ClassSettings} {arg : Word} {rest : List Word} {e : StanzaError}
  {fields : ClassSettings → List Int} {old : List Int} {o : Outcome}

theorem strtol_le (base : Nat) (s : List Char) : (strtol base s).value ≤ longMax := by
  have hlong : longMin ≤ longMax := by decide
  unfold strtol
  split_ifs with hmin hmax
  · exact hlong
  · exact le_rfl
  · exact not_lt.mp hmax

theorem strtoul_le (base : Nat) (s : List Char) :
    0 ≤ (strtoul base s).value ∧ (strtoul base s).value ≤ ulongMax := by
  unfold strtoul ulongMax
  split_ifs <;> dsimp only
  · omega
  · omega

/-- `& ~0777` leaves nothing of the numbers up to `0777`. -/
theorem mask_eq_zero_iff {n : Nat} (h : n < 2 ^ 32) :
    n &&& (2 ^ 32 - 1 - 0o777) = 0 ↔ n ≤ 0o777 := by
  have hhigh : n &&& (2 ^ 9 * (2 ^ 23 - 1)) = 2 ^ 9 * (n / 2 ^ 9) := by
    apply Nat.eq_of_testBit_eq
    intro i
    rw [Nat.testBit_and, Nat.testBit_two_pow_mul, Nat.testBit_two_pow_mul,
      Nat.testBit_two_pow_sub_one, Nat.testBit_div_two_pow]
    by_cases hlow : 9 ≤ i
    · by_cases hi : i < 32
      · simp [hlow, show i - 9 < 23 by omega]
      · have hbit : n.testBit i = false :=
          Nat.testBit_lt_two_pow (lt_of_lt_of_le h (Nat.pow_le_pow_right (by decide) (by omega)))
        simp [hlow, hbit]
    · simp [hlow]
  have hmask : 2 ^ 32 - 1 - 0o777 = 2 ^ 9 * (2 ^ 23 - 1) := by decide
  rw [hmask, hhigh]
  omega

/-- The arguments are at their end. -/
theorem reads_skipComment (hfields : fields c = old) :
    (skipComment c rest).Reads fields old (readSlots [] rest) := by
  cases rest with
  | nil =>
    exact ⟨by simp [skipComment, readSlots], by simp [skipComment, readSlots], fun _ => hfields⟩
  | cons arg rest =>
    exact ⟨by simp [skipComment, raised, readSlots], by simp [skipComment, raised, readSlots],
      fun _ => hfields⟩

/-- A number is stored and checked before the handler goes on. -/
theorem reads_slot {bad : Prop} [Decidable bad] (he : e ≠ .overflow)
    (hover : k.overflows arg.text = false) (hbad : bad ↔ k.takes arg.text = false)
    (hfields : fields c = k.value arg.text :: old.drop 1)
    (hnext : o.Reads (fun c => (fields c).drop 1) (old.drop 1) (readSlots ks rest))
    (hhead : (fields o.cls).head? = some (k.value arg.text)) :
    (if bad then raised e c else o).Reads fields old (readSlots (k :: ks) (arg :: rest)) := by
  cases htakes : k.takes arg.text with
  | false =>
    have hread : readSlots (k :: ks) (arg :: rest) = ⟨[k.value arg.text], false, false⟩ := by
      simp [readSlots, hover, htakes]
    rw [if_pos (hbad.mpr htakes), hread]
    exact ⟨by simp [raised, he], by simp [raised], fun _ => hfields⟩
  | true =>
    have hread : readSlots (k :: ks) (arg :: rest) =
        { readSlots ks rest with written := k.value arg.text :: (readSlots ks rest).written } := by
      simp [readSlots, hover, htakes]
    have hgood : ¬ bad := fun h => by simp [hbad.mp h] at htakes
    rw [if_neg hgood, hread]
    refine ⟨hnext.overflow_iff, hnext.taken_iff, fun h => ?_⟩
    have htail := hnext.fields_eq h
    obtain ⟨tail, hcons⟩ := List.head?_eq_some_iff.mp hhead
    simp [hcons] at htail
    simp [hcons, htail, Nat.add_comm]

theorem skipComment_cls (c : ClassSettings) (rest : List Word) : (skipComment c rest).cls = c := by
  cases rest <;> rfl

/-- There is no argument where one is read. -/
theorem reads_none (k : Slot) (ks : List Slot) (hfields : fields c = old) :
    (raised .expectedToken c).Reads fields old (readSlots (k :: ks) []) :=
  ⟨by simp [raised, readSlots], by simp [raised, readSlots], fun _ => hfields⟩

/-- The last number. -/
theorem reads_last {bad : Prop} [Decidable bad] (he : e ≠ .overflow)
    (hover : k.overflows arg.text = false) (hbad : bad ↔ k.takes arg.text = false)
    (hfields : fields c = k.value arg.text :: old.drop 1) :
    (if bad then raised e c else skipComment c rest).Reads fields old
      (readSlots [k] (arg :: rest)) := by
  apply reads_slot he hover hbad hfields
  · exact reads_skipComment (by simp [hfields])
  · rw [skipComment_cls, hfields]
    rfl

/-- The word in place of the last number. -/
theorem reads_word (hword : k.keyword? arg.text = some v) (hfields : fields c = v :: old.drop 1) :
    (skipComment c rest).Reads fields old (readSlots [k] (arg :: rest)) := by
  have hread : readSlots [k] (arg :: rest) = ⟨[v], false, rest.isEmpty⟩ := by
    simp [readSlots, Slot.overflows, Slot.takes, Slot.value, hword]
  rw [hread]
  cases rest with
  | nil => exact ⟨by simp [skipComment], by simp [skipComment], fun _ => hfields⟩
  | cons arg rest =>
    exact ⟨by simp [skipComment, raised], by simp [skipComment, raised], fun _ => hfields⟩

/-- The check of a handler that calls `strtol` refuses what is not taken. -/
theorem Slot.takes_eq_false_iff (hword : k.keyword? text = none) :
    k.takes text = false ↔ (k.conversion text).erange = true ∨ (k.conversion text).endptr ≠ [] ∨
      k.number text < k.lo ∨ k.hi < k.number text := by
  simp only [Slot.takes, hword, Option.isSome_none, Bool.false_or, Bool.and_eq_false_iff,
    Bool.not_eq_false', decide_eq_false_iff_not, not_and_or, not_le, or_assoc]

/-- A slot without a word and without a scale. -/
theorem Slot.value_eq (hword : k.keyword? text = none) :
    k.value text = k.scale (k.number text) := by
  rw [Slot.value, hword]
  rfl

theorem killTimeout_reads (c : ClassSettings) (args : List Word) :
    (stanzaKillTimeout c args).Reads NumericStanza.killTimeout.fields [c.killTimeout]
      (readSlots [seconds] args) := by
  cases args with
  | nil => exact reads_none _ _ rfl
  | cons arg rest =>
    have hmax : ¬ longMax < seconds.number arg.text := not_lt.mpr (strtol_le 10 arg.text.toList)
    apply reads_last (by decide) rfl _ rfl
    rw [Slot.takes_eq_false_iff rfl]
    show _ ↔ _ ∨ _ ∨ _ ∨ longMax < seconds.number arg.text
    rw [or_iff_left hmax]
    rfl

theorem nice_reads (x : Setup) (c : ClassSettings) (args : List Word) :
    (stanzaNice x c (NumericStanza.nice.line args)).Reads NumericStanza.nice.fields [c.nice]
      (readSlots [niceValue] args) := by
  cases args with
  | nil => exact reads_none _ _ rfl
  | cons arg rest =>
    apply reads_last (by decide) rfl _ rfl
    rw [Slot.takes_eq_false_iff rfl]
    rfl

theorem umask_reads (x : Setup) (c : ClassSettings) (args : List Word) :
    (stanzaUmask x c (NumericStanza.umask.line args)).Reads NumericStanza.umask.fields [c.umask]
      (readSlots [mask] args) := by
  cases args with
  | nil => exact reads_none _ _ rfl
  | cons arg rest =>
    have hrange : 0 ≤ mask.number arg.text ∧ mask.number arg.text < 2 ^ 32 :=
      ⟨Int.emod_nonneg _ (by decide), Int.emod_lt_of_pos _ (by decide)⟩
    have hbits := mask_eq_zero_iff (n := (mask.number arg.text).toNat) (by omega)
    have hcheck : (mask.number arg.text).toNat &&& (2 ^ 32 - 1 - 0o777) ≠ 0 ↔
        mask.number arg.text < 0 ∨ 0o777 < mask.number arg.text := by
      rw [ne_eq, hbits]
      omega
    apply reads_last (by decide) rfl _ rfl
    rw [Slot.takes_eq_false_iff rfl]
    exact or_congr Iff.rfl (or_congr Iff.rfl hcheck)

theorem oomScore_reads (c : ClassSettings) (args : List Word) :
    (stanzaOomScore c args).Reads NumericStanza.oom.fields [c.oomScoreAdj]
      (readSlots [oomScoreValue] args) := by
  cases args with
  | nil => exact reads_none _ _ rfl
  | cons arg rest =>
    show Outcome.Reads (if arg.text = "never" then _ else _) _ _ _
    by_cases hnever : arg.text = "never"
    · rw [if_pos hnever]
      apply reads_word (v := -1000) _ rfl
      simp [Slot.keyword?, oomScoreValue, hnever]
    · have hword : oomScoreValue.keyword? arg.text = none := by
        simp [Slot.keyword?, oomScoreValue, hnever]
      rw [if_neg hnever]
      apply reads_last (by decide) (by rw [Slot.overflows, hword]; rfl)
      · rw [Slot.takes_eq_false_iff hword]
        rfl
      · rw [Slot.value_eq hword]
        rfl

theorem oom_reads (x : Setup) (c : ClassSettings) (args : List Word) :
    (stanzaOom x c (NumericStanza.oom.line args)).Reads NumericStanza.oom.fields [c.oomScoreAdj]
      (NumericStanza.oom.reading args) := by
  cases args with
  | nil => exact reads_none oomAdjustment [] rfl
  | cons arg rest =>
    show Outcome.Reads (if arg.text = "score" then _ else if arg.text = "never" then _ else _) _ _
      (if arg.text = "score" then _ else _)
    by_cases hscore : arg.text = "score"
    · rw [if_pos hscore, if_pos hscore]
      exact oomScore_reads c rest
    rw [if_neg hscore, if_neg hscore]
    by_cases hnever : arg.text = "never"
    · rw [if_pos hnever]
      apply reads_word (v := -1000) _ rfl
      simp [Slot.keyword?, oomAdjustment, hnever]
    · have hword : oomAdjustment.keyword? arg.text = none := by
        simp [Slot.keyword?, oomAdjustment, hnever]
      have hoverflows : oomAdjustment.overflows arg.text = true ↔
          toInt (strtol 10 arg.text.toList).value * 1000 < -2 ^ 31 ∨
            intMax < toInt (strtol 10 arg.text.toList).value * 1000 := by
        rw [Slot.overflows, hword]
        simp only [Option.isNone_none, Bool.true_and, Bool.not_eq_true', oomAdjustment, Slot.number,
          Slot.conversion, if_true, decide_eq_false_iff_not]
        omega
      rw [if_neg hnever]
      dsimp only
      by_cases hover : oomAdjustment.overflows arg.text = true
      · rw [if_pos (hoverflows.mp hover)]
        exact ⟨by simp [raised, readSlots, hover], by simp [raised, readSlots, hover],
          fun h => by simp [readSlots, hover] at h⟩
      · rw [if_neg (mt hoverflows.mpr hover)]
        apply reads_last (by decide) (Bool.eq_false_iff.mpr hover)
        · rw [Slot.takes_eq_false_iff hword]
          rfl
        · rw [Slot.value_eq hword]
          rfl

/-- The numbers behind the word `limit` of `respawn`. -/
theorem respawnLimit_reads (c : ClassSettings) (args : List Word) :
    (stanzaRespawnLimit c args).Reads NumericStanza.respawnLimit.fields
      [c.respawnLimit, c.respawnInterval] (NumericStanza.respawnLimit.reading args) := by
  cases args with
  | nil => exact reads_none count [seconds] rfl
  | cons arg rest =>
    show Outcome.Reads (if arg.text ≠ "unlimited" then _ else _) _ _
      (if arg.text = "unlimited" then _ else _)
    by_cases hword : arg.text = "unlimited"
    · rw [if_neg (not_not.mpr hword), if_pos hword]
      cases rest with
      | nil => exact ⟨by simp [skipComment], by simp [skipComment], fun _ => rfl⟩
      | cons arg rest =>
        exact ⟨by simp [skipComment, raised], by simp [skipComment, raised], fun _ => rfl⟩
    · have hmax : ¬ intMax < count.number arg.text := not_lt.mpr (toInt_le _)
      rw [if_pos hword, if_neg hword]
      apply reads_slot (by decide) rfl _ rfl
      · cases rest with
        | nil => exact reads_none _ _ rfl
        | cons time rest =>
          have hmax : ¬ longMax < seconds.number time.text :=
            not_lt.mpr (strtol_le 10 time.text.toList)
          apply reads_last (by decide) rfl _ rfl
          rw [Slot.takes_eq_false_iff rfl]
          show _ ↔ _ ∨ _ ∨ _ ∨ longMax < seconds.number time.text
          rw [or_iff_left hmax]
          rfl
      · cases rest with
        | nil => rfl
        | cons time rest =>
          dsimp only
          split_ifs
          · rfl
          · rw [skipComment_cls]
            rfl
      · rw [Slot.takes_eq_false_iff rfl]
        show _ ↔ _ ∨ _ ∨ _ ∨ intMax < count.number arg.text
        rw [or_iff_left hmax]
        rfl

theorem limitValue_eq (text : String) :
    limitValue text = (limitNumber.value text, !limitNumber.takes text) := by
  by_cases hword : text = "unlimited"
  · subst hword
    rfl
  · have hnone : limitNumber.keyword? text = none := by
      simp [Slot.keyword?, limitNumber, hword]
    obtain ⟨hmin, hmax⟩ := strtoul_le 10 text.toList
    have hrange : limitNumber.lo ≤ limitNumber.number text ∧
        limitNumber.number text ≤ limitNumber.hi := ⟨hmin, hmax⟩
    rw [limitValue, if_pos hword, Slot.value_eq hnone, Slot.takes, hnone, decide_eq_true hrange]
    simp [limitNumber, Slot.number, Slot.conversion]

@[simp] theorem setLimit_limits (c : ClassSettings) (resource : Fin rlimitNlimits)
    (limit : Rlimit) : (setLimit c resource limit).limits resource = some limit :=
  Function.update_self ..

theorem limit_reads (x : Setup) (c : ClassSettings) (name : Word)
    (resource : Fin rlimitNlimits) (named : limitResource name.text = some resource)
    (args : List Word) :
    (stanzaLimitOf x c resource args).Reads (NumericStanza.limit name resource named).fields
      [((c.limits resource).getD x.fresh).rlimCur, ((c.limits resource).getD x.fresh).rlimMax]
      (readSlots [limitNumber, limitNumber] args) := by
  have hover : ∀ text, limitNumber.overflows text = false := by
    intro text
    simp [Slot.overflows, limitNumber]
  have hbad : ∀ text, (limitValue text).2 = true ↔ limitNumber.takes text = false := by
    intro text
    rw [limitValue_eq, Bool.not_eq_true']
  cases args with
  | nil => exact reads_none _ _ (by simp [NumericStanza.fields])
  | cons soft rest =>
    apply reads_slot (by decide) (hover _) (hbad _)
    · simp [NumericStanza.fields, limitValue_eq]
    · cases rest with
      | nil => exact reads_none _ _ (by simp [NumericStanza.fields])
      | cons hard rest =>
        apply reads_last (by decide) (hover _) (hbad _)
        simp [NumericStanza.fields, limitValue_eq]
    · cases rest with
      | nil => simp [NumericStanza.fields, limitValue_eq, raised]
      | cons hard rest =>
        dsimp only
        split_ifs
        · simp [NumericStanza.fields, limitValue_eq, raised]
        · rw [skipComment_cls]
          simp [NumericStanza.fields, limitValue_eq]

/-! ## The stanzas -/

namespace NumericStanza

/-- What the handler writes over: a limit is allocated first. -/
def before (x : Setup) : NumericStanza → ClassSettings → List Int
  | killTimeout, c => [c.killTimeout]
  | respawnLimit, c => [c.respawnLimit, c.respawnInterval]
  | nice, c => [c.nice]
  | oom, c => [c.oomScoreAdj]
  | umask, c => [c.umask]
  | limit _ resource _, c =>
    [((c.limits resource).getD x.fresh).rlimCur, ((c.limits resource).getD x.fresh).rlimMax]

theorem before_eq {s : NumericStanza} (h : s.allocated c = true) : s.before x c = s.fields c := by
  cases s with
  | limit name resource named =>
    obtain ⟨r, hr⟩ := Option.isSome_iff_exists.mp h
    simp [before, fields, hr]
  | _ => rfl

theorem fields_of_not_allocated {s : NumericStanza} (h : s.allocated c = false) :
    s.fields c = [] ∧ (s.before x c).length = 2 := by
  cases s with
  | limit name resource named =>
    have hnone : c.limits resource = none := by simpa [allocated] using h
    simp [before, fields, hnone]
  | _ => cases h

/-- Each handler does what the reading of its arguments says. -/
theorem parseStanza_reads (x : Setup) (s : NumericStanza) (c : ClassSettings) (args : List Word) :
    (parseStanza x c (s.line args)).Reads s.fields (s.before x c) (s.reading args) := by
  cases s with
  | killTimeout => exact killTimeout_reads c args
  | respawnLimit => exact respawnLimit_reads c args
  | nice => exact nice_reads x c args
  | oom => exact oom_reads x c args
  | umask => exact umask_reads x c args
  | limit name resource named =>
    have hline : parseStanza x c ((limit name resource named).line args) =
        stanzaLimitOf x c resource args := by
      show stanzaLimit x c ((limit name resource named).line args) = _
      unfold stanzaLimit
      dsimp only [line]
      rw [named]
    rw [hline]
    exact limit_reads x c name resource named args

end NumericStanza

theorem Slot.Documents.ne_of_rest (h : k.Documents text v) (word : String)
    (hword : ∀ w ∈ k.keyword, w.1 ≠ word) (hrest : Numeral.rest k.base word.toList ≠ []) :
    text ≠ word := by
  intro heq
  subst heq
  cases h with
  | keyword hk => exact hword _ hk rfl
  | literal hlit => exact hrest hlit.rest_eq

namespace NumericStanza

/-- A documented form is read as what it denotes. -/
theorem Documented.read {s : NumericStanza} (h : s.Documented args vs) (x : Setup)
    (c : ClassSettings) :
    s.reading args = ⟨vs, false, true⟩ ∧ vs.length = (s.before x c).length := by
  cases h with
  | killTimeout h => exact ⟨h.read, h.length_eq⟩
  | nice h => exact ⟨h.read, h.length_eq⟩
  | umask h => exact ⟨h.read, h.length_eq⟩
  | limit h => exact ⟨h.read, h.length_eq⟩
  | unlimited h => exact ⟨by simp [reading, h], rfl⟩
  | respawnLimit h =>
    refine ⟨?_, h.length_eq⟩
    cases h with
    | cons hcount hseconds =>
      have hne := hcount.ne_of_rest "unlimited" (by simp [count]) (by decide)
      rw [reading, if_neg hne]
      exact (DocumentedAs.cons hcount hseconds).read
  | oom h =>
    refine ⟨?_, h.length_eq⟩
    cases h with
    | cons hoom hnil =>
      have hne := hoom.ne_of_rest "score" (by simp [oomAdjustment]) (by decide)
      rw [reading, if_neg hne]
      exact (DocumentedAs.cons hoom hnil).read
  | oomScore hword h =>
    refine ⟨?_, h.length_eq⟩
    rw [reading, if_pos hword]
    exact h.read

end NumericStanza

/-- A line with numeric arguments is handled as documented if and only if its arguments are
documented, or it is refused without an overflow and all that is stored by then is what the
class has. -/
theorem numericStanza_iff (x : Setup) (s : NumericStanza) (c : ClassSettings) (args : List Word) :
    s.AsDocumented x c args ↔ (∃ vs, s.Documented args vs) ∨ s.Unspoilt c args := by
  have hreads := s.parseStanza_reads x c args
  constructor
  · intro ⟨hover, haccepted, hset, hkept⟩
    by_cases hdoc : ∃ vs, s.Documented args vs
    · exact .inl hdoc
    right
    have hrefused : (parseStanza x c (s.line args)).error ≠ none := mt haccepted.mp hdoc
    have htaken : (s.reading args).taken = false :=
      Bool.eq_false_iff.mpr (mt hreads.taken_iff.mpr hrefused)
    have hfits : (s.reading args).overflow = false :=
      Bool.eq_false_iff.mpr (mt hreads.overflow_iff.mpr hover)
    have hfields := hreads.fields_eq hfits
    rw [hkept hrefused] at hfields
    cases halloc : s.allocated c with
    | true =>
      rw [NumericStanza.before_eq halloc] at hfields
      exact ⟨htaken, hfits, List.prefix_iff_eq_append.mpr hfields.symm, halloc⟩
    | false =>
      -- what has just been allocated was not there before
      obtain ⟨hnil, hlength⟩ := NumericStanza.fields_of_not_allocated (x := x) halloc
      rw [hnil] at hfields
      obtain ⟨hwritten, hdrop⟩ := List.append_eq_nil_iff.mp hfields.symm
      have hbefore : s.before x c = [] := by simpa [hwritten] using hdrop
      rw [hbefore] at hlength
      cases hlength
  · intro h
    rcases h with ⟨vs, hdoc⟩ | ⟨htaken, hfits, hprefix, halloc⟩
    · obtain ⟨hread, hlength⟩ := hdoc.read x c
      have haccepted : (parseStanza x c (s.line args)).error = none :=
        hreads.taken_iff.mpr (by rw [hread])
      have hfields := hreads.fields_eq (by rw [hread])
      refine ⟨by simp [haccepted], ⟨fun _ => ⟨vs, hdoc⟩, fun _ => haccepted⟩, ?_, ?_⟩
      · intro vs' hdoc'
        obtain ⟨hread', hlength'⟩ := hdoc'.read x c
        rw [hfields, hread', hlength']
        simp
      · intro hrefused
        exact absurd haccepted hrefused
    · have hrefused : (parseStanza x c (s.line args)).error ≠ none := by
        rw [ne_eq, hreads.taken_iff, htaken]
        decide
      have hundocumented : ∀ vs, ¬ s.Documented args vs := by
        intro vs hdoc
        rw [(hdoc.read x c).1] at htaken
        cases htaken
      have hfields := hreads.fields_eq hfits
      rw [NumericStanza.before_eq halloc, List.prefix_iff_eq_append.mp hprefix] at hfields
      refine ⟨?_, ?_, fun vs hdoc => absurd hdoc (hundocumented vs), fun _ => hfields⟩
      · rw [ne_eq, hreads.overflow_iff, hfits]
        decide
      · exact ⟨fun h => absurd h hrefused, fun ⟨vs, hdoc⟩ => absurd hdoc (hundocumented vs)⟩

/-- `nice 4294967296` is accepted, and sets the nice level to 0. -/
theorem nice_wraps :
    ¬ NumericStanza.nice.AsDocumented plainSetup (jobClassNew plainSetup)
      [⟨"4294967296", "4294967296"⟩] := by
  intro ⟨_, haccepted, _⟩
  obtain ⟨vs, hdoc⟩ := haccepted.mp rfl
  cases hdoc with
  | nice h =>
    cases h with
    | cons h _ =>
      cases h with
      | keyword hword => simp [niceValue] at hword
      | @literal n hlit hlo hhi =>
        have hn : n = 4294967296 := hlit.leading_eq.symm
        simp [niceValue] at hhi
        omega

end Startup.ParseJob
