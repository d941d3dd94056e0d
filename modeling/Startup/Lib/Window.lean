import Mathlib.Data.List.Basic
import Mathlib.Data.List.Count

/-!
# Counting arrivals in windows of time

A counter that limits how often something may happen within `interval` units of
time can remember the time at which its window was opened and the number of
arrivals since.  An arrival that comes `interval` or more after the opening opens
a new window, and the old one is forgotten.  Such a counter bounds the arrivals
in each of its own windows, which follow one another without overlap; whether it
bounds them in every stretch of `interval` units is another matter.

* `Counted`: the arrivals that a counter has seen, latest first, each with the
  window and the number that it was given.
* `Counted.same_window`: what the arrivals of the current window are.
* `Counted.bounded`: every stretch is bounded where no window is opened while an
  admitted arrival is less than `interval` old (`Forgets`).
* `Counted.breaks`: where one is, arrivals at that moment break the bound.
* `Counted.all_admitted`: where the arrivals are rare enough, all are admitted.
-/

namespace Startup.Lib.Window

/-- An arrival: its time, the opening of its window and its number in it. -/
structure Arrival where
  time : Int
  opening : Int
  number : Int
  deriving DecidableEq, Repr

/-- The opening of the window and the number that an arrival is given. -/
def place (interval now opening number : Int) : Int × Int :=
  if now - opening < interval then (opening, number + 1) else (now, 1)

/-- The arrivals that a counter has seen, latest first, and what it remembers.
Time does not run backwards. -/
inductive Counted (interval : Int) : List Arrival → Int → Int → Prop where
  | nil : Counted interval [] 0 0
  | arrive {older : List Arrival} {opening number : Int} (now : Int)
      (counted : Counted interval older opening number)
      (later : ∀ a ∈ older, a.time ≤ now) (nonneg : 0 ≤ now) :
      Counted interval
        (⟨now, (place interval now opening number).1, (place interval now opening number).2⟩ ::
          older)
        (place interval now opening number).1 (place interval now opening number).2

/-- The arrival is within the limit of its window. -/
def Arrival.admitted (limit : Int) (a : Arrival) : Bool :=
  decide (a.number ≤ limit)

/-- How many of the arrivals have been admitted in the last `interval`. -/
def recent (limit interval now : Int) (older : List Arrival) : Nat :=
  older.countP fun a => a.admitted limit && decide (now - a.time < interval)

/-- How many of these belong to an earlier window than the arrival. -/
def forgotten (limit interval : Int) (a : Arrival) (older : List Arrival) : Nat :=
  older.countP fun b =>
    b.admitted limit && decide (b.opening ≠ a.opening) && decide (a.time - b.time < interval)

/-- No stretch of `interval` units has more than `limit` admitted arrivals. -/
def Bounded (limit interval : Int) (arrivals : List Arrival) : Prop :=
  ∀ start, ((arrivals.countP fun a =>
    a.admitted limit && decide (start ≤ a.time ∧ a.time < start + interval) : Nat) : Int) ≤ limit

/-- An arrival on top of `limit` admitted ones is not admitted. -/
def Refusing (limit interval : Int) (arrivals : List Arrival) : Prop :=
  ∀ a older, a :: older <:+ arrivals → limit ≤ recent limit interval a.time older →
    a.admitted limit = false

/-- An arrival at this time opens a new window, while an admitted one is less than `interval`
old. -/
def Forgets (limit interval opening now : Int) (older : List Arrival) : Prop :=
  interval ≤ now - opening ∧ ∃ a ∈ older, a.admitted limit = true ∧ now - a.time < interval

/-- When the window was opened, the admitted arrivals of earlier windows were `interval` old or
older; and so it was with the windows before it. -/
structure Remembers (limit interval : Int) (arrivals : List Arrival) (opening : Int) : Prop where
  current : ∀ a ∈ arrivals, a.admitted limit = true → a.opening ≠ opening →
    a.time + interval ≤ opening
  earlier : ∀ a older, a :: older <:+ arrivals → forgotten limit interval a older = 0

variable {limit interval : Int} {arrivals older : List Arrival} {opening number : Int}

/-! ## The current window -/

/-- What a counter knows of the arrivals it has seen: those of the current window
are as many as it has counted, and came within the window. -/
structure Current (interval : Int) (arrivals : List Arrival) (opening number : Int) : Prop where
  opened : ∀ a ∈ arrivals, a.opening ≤ opening
  count : (arrivals.countP fun a => decide (a.opening = opening) : Nat) = number
  inside : ∀ a ∈ arrivals, a.opening = opening →
    a.number ≤ number ∧ opening ≤ a.time ∧ a.time < opening + interval
  past : ∀ now, 0 ≤ now → (∀ a ∈ arrivals, a.time ≤ now) → opening ≤ now

theorem Counted.current (hinterval : 0 < interval) (h : Counted interval arrivals opening number) :
    Current interval arrivals opening number := by
  induction h with
  | nil => exact ⟨by simp, by simp, by simp, fun now hnow _ => hnow⟩
  | arrive now counted later nonneg ih =>
    rename_i older opening number
    have hcount := ih.count
    have hpast := ih.past now nonneg later
    unfold place
    split
    · rename_i hin
      refine ⟨?_, ?_, ?_, fun now' _ hlater =>
        Int.le_trans hpast (hlater ⟨now, opening, number + 1⟩ List.mem_cons_self)⟩
      · intro a ha
        rcases List.mem_cons.mp ha with rfl | ha
        · exact Int.le_refl _
        · exact ih.opened a ha
      · rw [List.countP_cons_of_pos (by simp)]
        push_cast
        omega
      · intro a ha hopening
        rcases List.mem_cons.mp ha with rfl | ha
        · exact ⟨Int.le_refl _, hpast, by dsimp only; omega⟩
        · obtain ⟨hnumber, hlow, hhigh⟩ := ih.inside a ha hopening
          exact ⟨by dsimp only; omega, hlow, hhigh⟩
    · rename_i hout
      have hnew : ∀ a ∈ older, a.opening ≠ now := by
        intro a ha heq
        have := ih.opened a ha
        omega
      refine ⟨?_, ?_, ?_, fun now' _ hlater => hlater ⟨now, now, 1⟩ List.mem_cons_self⟩
      · intro a ha
        rcases List.mem_cons.mp ha with rfl | ha
        · exact Int.le_refl _
        · have := ih.opened a ha
          dsimp only
          omega
      · rw [List.countP_cons_of_pos (by simp), List.countP_eq_zero.mpr (by simpa using hnew)]
        rfl
      · intro a ha hopening
        rcases List.mem_cons.mp ha with rfl | ha
        · exact ⟨Int.le_refl _, Int.le_refl _, by dsimp only; omega⟩
        · exact absurd hopening (hnew a ha)

/-- The arrivals before a given one, as the counter saw them. -/
theorem Counted.suffix {a : Arrival} (h : Counted interval arrivals opening number)
    (hs : a :: older <:+ arrivals) :
    ∃ opening' number', Counted interval older opening' number' ∧
      Counted interval (a :: older) a.opening a.number ∧
      (a.opening, a.number) = place interval a.time opening' number' ∧
      ∀ b ∈ older, b.time ≤ a.time := by
  induction h with
  | nil => simp at hs
  | arrive now counted later nonneg ih =>
    rcases List.suffix_cons_iff.mp hs with heq | hs
    · obtain ⟨rfl, rfl⟩ := List.cons.inj heq
      exact ⟨_, _, counted, .arrive now counted later nonneg, rfl, later⟩
    · exact ih hs

/-- The earlier arrivals of the same window: their numbers are smaller, there are
as many as the number tells, and none is as old as `interval`. -/
theorem Counted.same_window {a : Arrival} (hinterval : 0 < interval)
    (h : Counted interval arrivals opening number) (hs : a :: older <:+ arrivals) :
    ((older.countP fun b => decide (b.opening = a.opening) : Nat) : Int) + 1 = a.number ∧
      ∀ b ∈ older, b.opening = a.opening →
        b.number < a.number ∧ a.time - b.time < interval := by
  obtain ⟨opening', number', hbefore, hafter, harrive, hlater⟩ := h.suffix hs
  have hcur := hafter.current hinterval
  have hold := hbefore.current hinterval
  have hcount := hcur.count
  rw [List.countP_cons_of_pos (by simp)] at hcount
  push_cast at hcount
  refine ⟨hcount, ?_⟩
  intro b hb heq
  obtain ⟨-, hlow, -⟩ := hcur.inside b (List.mem_cons_of_mem _ hb) heq
  obtain ⟨-, -, hhigh⟩ := hcur.inside a List.mem_cons_self rfl
  refine ⟨?_, by omega⟩
  have hopened := hold.opened b hb
  unfold place at harrive
  split at harrive
  · simp only [Prod.mk.injEq] at harrive
    obtain ⟨hnumber, -⟩ := hold.inside b hb (by omega)
    omega
  · simp only [Prod.mk.injEq] at harrive
    omega

/-! ## Stretches of time -/

/-- The admitted arrivals of the last `interval` are those of the current window
and those that it has forgotten. -/
theorem Counted.recent_eq {a : Arrival} (hinterval : 0 < interval)
    (h : Counted interval arrivals opening number) (hs : a :: older <:+ arrivals)
    (hadmitted : a.admitted limit = true) :
    (recent limit interval a.time older : Int) + 1 =
      forgotten limit interval a older + a.number := by
  obtain ⟨hcount, hsame⟩ := h.same_window hinterval hs
  have hlimit : a.number ≤ limit := of_decide_eq_true hadmitted
  have hsplit : ∀ l : List Arrival, (∀ b ∈ l, b.opening = a.opening →
      b.number < a.number ∧ a.time - b.time < interval) →
      recent limit interval a.time l =
        forgotten limit interval a l + l.countP fun b => decide (b.opening = a.opening) := by
    intro l hl
    induction l with
    | nil => rfl
    | cons b l ih =>
      have hrest := ih fun b hb => hl b (List.mem_cons_of_mem _ hb)
      have hb := hl b List.mem_cons_self
      unfold recent forgotten at hrest ⊢
      by_cases hopening : b.opening = a.opening
      · obtain ⟨hnumber, htime⟩ := hb hopening
        have hadm : b.admitted limit = true := decide_eq_true (by omega)
        simp only [List.countP_cons, hadm, hopening, htime, hrest]
        simp
        omega
      · simp only [List.countP_cons, hopening, hrest, ne_eq, not_false_eq_true, decide_true,
          decide_false, Bool.and_true, Bool.false_eq_true, if_false]
        omega
  rw [hsplit older hsame]
  push_cast
  omega

/-- A window that is opened when the admitted arrivals are old enough has nothing to
remember. -/
theorem Counted.remembers_arrive (hinterval : 0 < interval)
    (h : Counted interval older opening number) (hr : Remembers limit interval older opening)
    {now : Int} (later : ∀ a ∈ older, a.time ≤ now) (nonneg : 0 ≤ now)
    (hforgets : ¬ Forgets limit interval opening now older) :
    Remembers limit interval
      (⟨now, (place interval now opening number).1, (place interval now opening number).2⟩ :: older)
      (place interval now opening number).1 := by
  have hpast := (h.current hinterval).past now nonneg later
  -- what the arrival does not count is old enough
  have hold : ∀ a ∈ older, a.admitted limit = true →
      a.opening ≠ (place interval now opening number).1 →
      a.time + interval ≤ (place interval now opening number).1 := by
    intro a ha hadmitted hopening
    unfold place at hopening ⊢
    split at hopening
    · rename_i hin
      rw [if_pos hin]
      exact hr.current a ha hadmitted hopening
    · rename_i hout
      rw [if_neg hout]
      by_contra hrecent
      exact hforgets ⟨by omega, a, ha, hadmitted, by dsimp only at hrecent; omega⟩
  have hle : (place interval now opening number).1 ≤ now := by
    unfold place
    split
    · exact hpast
    · exact Int.le_refl _
  refine ⟨fun a ha hadmitted hopening => ?_, fun a older' hs => ?_⟩
  · rcases List.mem_cons.mp ha with rfl | ha
    · exact absurd rfl hopening
    · exact hold a ha hadmitted hopening
  · rcases List.suffix_cons_iff.mp hs with heq | hs
    · obtain ⟨rfl, rfl⟩ := List.cons.inj heq
      refine List.countP_eq_zero.mpr fun b hb hforgotten => ?_
      simp only [Bool.and_eq_true, decide_eq_true_eq] at hforgotten
      obtain ⟨⟨hadmitted, hopening⟩, hrecent⟩ := hforgotten
      have hage := hold b hb hadmitted hopening
      omega
    · exact hr.earlier a older' hs

theorem Counted.refusing (hinterval : 0 < interval)
    (h : Counted interval arrivals opening number)
    (hr : Remembers limit interval arrivals opening) : Refusing limit interval arrivals := by
  intro a older hs hrecent
  cases hadmitted : a.admitted limit with
  | false => rfl
  | true =>
    have heq := h.recent_eq hinterval hs hadmitted
    have hnone := hr.earlier a older hs
    have hnumber : a.number ≤ limit := of_decide_eq_true hadmitted
    omega

theorem bounded_of_refusing (hlimit : 0 ≤ limit) (hrefusing : Refusing limit interval arrivals) :
    Bounded limit interval arrivals := by
  have hall : ∀ l : List Arrival, l <:+ arrivals → Bounded limit interval l := by
    intro l
    induction l with
    | nil =>
      intro _ start
      simpa using hlimit
    | cons a l ih =>
      intro hs start
      have hrest := ih ((List.suffix_cons a l).trans hs) start
      rw [List.countP_cons]
      split
      · rename_i hin
        simp only [Bool.and_eq_true, decide_eq_true_eq] at hin
        obtain ⟨hadmitted, hlow, hhigh⟩ := hin
        have hsame : (l.countP fun b => b.admitted limit &&
            decide (start ≤ b.time ∧ b.time < start + interval)) ≤
            recent limit interval a.time l := by
          apply List.countP_mono_left
          intro b _ hb
          simp only [Bool.and_eq_true, decide_eq_true_eq] at hb ⊢
          exact ⟨hb.1, by omega⟩
        have hfew : (recent limit interval a.time l : Int) < limit := by
          by_contra hmany
          have hno := hrefusing a l hs (by omega)
          simp [hno] at hadmitted
        push_cast
        omega
      · simpa using hrest
  exact hall arrivals List.suffix_rfl

/-- The counter bounds every stretch of time, and refuses what comes on top of it. -/
theorem Counted.bounded (hlimit : 0 ≤ limit) (hinterval : 0 < interval)
    (h : Counted interval arrivals opening number)
    (hr : Remembers limit interval arrivals opening) :
    Bounded limit interval arrivals ∧ Refusing limit interval arrivals := by
  have hrefusing := h.refusing hinterval hr
  exact ⟨bounded_of_refusing hlimit hrefusing, hrefusing⟩

/-- As many arrivals at one time, the first of which opens a window. -/
def burst (now : Int) : Nat → List Arrival
  | 0 => []
  | n + 1 => ⟨now, now, n + 1⟩ :: burst now n

theorem mem_burst {now : Int} {n : Nat} {a : Arrival} (h : a ∈ burst now n) :
    a.time = now ∧ a.number ≤ n := by
  induction n with
  | zero => cases h
  | succ n ih =>
    rcases List.mem_cons.mp h with rfl | h
    · exact ⟨rfl, by simp⟩
    · obtain ⟨htime, hnumber⟩ := ih h
      exact ⟨htime, by push_cast; omega⟩

theorem length_burst (now : Int) (n : Nat) : (burst now n).length = n := by
  induction n with
  | zero => rfl
  | succ n ih => rw [burst, List.length_cons, ih]

theorem Counted.burst (hinterval : 0 < interval) (h : Counted interval older opening number)
    {now : Int} (later : ∀ a ∈ older, a.time ≤ now) (nonneg : 0 ≤ now)
    (hopens : interval ≤ now - opening) (n : Nat) :
    Counted interval (Window.burst now (n + 1) ++ older) now (n + 1) := by
  induction n with
  | zero =>
    have harrive := Counted.arrive now h later nonneg
    rw [place, if_neg (by omega)] at harrive
    exact harrive
  | succ n ih =>
    have hlater : ∀ a ∈ Window.burst now (n + 1) ++ older, a.time ≤ now := by
      intro a ha
      rcases List.mem_append.mp ha with ha | ha
      · exact Int.le_of_eq (mem_burst ha).1
      · exact later a ha
    have harrive := Counted.arrive now ih hlater nonneg
    rw [place, if_pos (by omega)] at harrive
    exact_mod_cast harrive

/-- Where a window is opened while an admitted arrival is less than `interval` old, arrivals at
that moment break the bound. -/
theorem Counted.breaks (hlimit : 0 < limit) (hinterval : 0 < interval)
    (h : Counted interval older opening number) {now : Int}
    (later : ∀ a ∈ older, a.time ≤ now) (nonneg : 0 ≤ now)
    (hforgets : Forgets limit interval opening now older) :
    ∃ more opening' number', Counted interval (more ++ older) opening' number' ∧
      (∀ a ∈ more, a.time = now) ∧ ¬ Bounded limit interval (more ++ older) := by
  obtain ⟨hopens, a, ha, hadmitted, hrecent⟩ := hforgets
  obtain ⟨n, hn⟩ : ∃ n : Nat, limit = n + 1 := ⟨(limit - 1).toNat, by omega⟩
  refine ⟨Window.burst now (n + 1), _, _, h.burst hinterval later nonneg hopens n,
    fun b hb => (mem_burst hb).1, fun hbounded => ?_⟩
  have hle := hbounded (now - interval + 1)
  have hmore : (Window.burst now (n + 1)).countP (fun b => b.admitted limit &&
      decide (now - interval + 1 ≤ b.time ∧ b.time < now - interval + 1 + interval)) = n + 1 := by
    rw [List.countP_eq_length.mpr fun b hb => ?_, length_burst]
    obtain ⟨htime, hnumber⟩ := mem_burst hb
    simp only [Arrival.admitted, Bool.and_eq_true, decide_eq_true_eq]
    push_cast at hnumber
    omega
  have hone : 0 < older.countP (fun b => b.admitted limit &&
      decide (now - interval + 1 ≤ b.time ∧ b.time < now - interval + 1 + interval)) := by
    refine List.countP_pos_iff.mpr ⟨a, ha, ?_⟩
    have htime := later a ha
    simp only [hadmitted, Bool.true_and, decide_eq_true_eq]
    omega
  rw [List.countP_append, hmore] at hle
  push_cast at hle
  omega

/-- Where no stretch has more than `limit` arrivals, all are admitted. -/
theorem Counted.all_admitted (hinterval : 0 < interval)
    (h : Counted interval arrivals opening number)
    (hrare : ∀ start, ((arrivals.countP fun a =>
      decide (start ≤ a.time ∧ a.time < start + interval) : Nat) : Int) ≤ limit) :
    ∀ a ∈ arrivals, a.admitted limit = true := by
  intro a ha
  obtain ⟨before, older, rfl⟩ := List.append_of_mem ha
  have hs : a :: older <:+ before ++ a :: older := List.suffix_append _ _
  obtain ⟨-, -, -, hafter, -⟩ := h.suffix hs
  have hcur := hafter.current hinterval
  have hcount := hcur.count
  have hle := hrare a.opening
  have hsub := hs.sublist.countP_le (p := fun b =>
    decide (a.opening ≤ b.time ∧ b.time < a.opening + interval))
  have hsame : ((a :: older).countP fun b => decide (b.opening = a.opening)) ≤
      (a :: older).countP fun b => decide (a.opening ≤ b.time ∧ b.time < a.opening + interval) := by
    apply List.countP_mono_left
    intro b hb heq
    obtain ⟨-, hlow, hhigh⟩ := hcur.inside b hb (of_decide_eq_true heq)
    exact decide_eq_true ⟨hlow, hhigh⟩
  exact decide_eq_true (by omega)

end Startup.Lib.Window
