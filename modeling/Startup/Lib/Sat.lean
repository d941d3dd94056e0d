import Mathlib.Logic.Basic
import Mathlib.Tactic.Common

/-!
# Postconditions for programs that can fault

A program is a value of `Except ε α`: it returns a result or stops with a
fault.  `Sat m Q E` says that the result of `m` satisfies `Q`, or that its
fault is one of those that `E` allows.  With `E` everything, `Sat` is partial
correctness; with `E` nothing, it is total correctness.

The rules are equivalences wherever they can be, so that `simp only` with
them turns a program into its verification conditions.
-/

namespace Startup.Lib

universe u v

variable {ε : Type v} {α β : Type u}

/-- The result of `m` satisfies `Q`, or `m` stops with a fault that `E` allows. -/
def Sat (m : Except ε α) (Q : α → Prop) (E : ε → Prop) : Prop :=
  match m with
  | .ok a => Q a
  | .error e => E e

@[simp] theorem sat_ok {a : α} {Q : α → Prop} {E : ε → Prop} :
    Sat (.ok a) Q E ↔ Q a := Iff.rfl

@[simp] theorem sat_pure {a : α} {Q : α → Prop} {E : ε → Prop} :
    Sat (pure a) Q E ↔ Q a := Iff.rfl

@[simp] theorem sat_error {e : ε} {Q : α → Prop} {E : ε → Prop} :
    Sat (.error e) Q E ↔ E e := Iff.rfl

@[simp] theorem sat_throw {e : ε} {Q : α → Prop} {E : ε → Prop} :
    Sat (throw e) Q E ↔ E e := Iff.rfl

/-- Sequencing: the second program runs from what the first one returns. -/
@[simp] theorem sat_bind {m : Except ε α} {f : α → Except ε β} {Q : β → Prop}
    {E : ε → Prop} : Sat (m >>= f) Q E ↔ Sat m (fun a => Sat (f a) Q E) E := by
  cases m <;> rfl

/-- The rule of consequence. -/
theorem Sat.mono {m : Except ε α} {Q Q' : α → Prop} {E E' : ε → Prop}
    (h : Sat m Q E) (hQ : ∀ a, Q a → Q' a) (hE : ∀ e, E e → E' e) : Sat m Q' E' := by
  cases m with
  | ok a => exact hQ a h
  | error e => exact hE e h

/-- The rule of consequence, with the faults kept. -/
theorem Sat.imp {m : Except ε α} {Q Q' : α → Prop} {E : ε → Prop}
    (h : Sat m Q E) (hQ : ∀ a, Q a → Q' a) : Sat m Q' E :=
  h.mono hQ fun _ he => he

/-- Two postconditions of one program hold together. -/
theorem Sat.and {m : Except ε α} {Q Q' : α → Prop} {E E' : ε → Prop}
    (h : Sat m Q E) (h' : Sat m Q' E') :
    Sat m (fun a => Q a ∧ Q' a) (fun e => E e ∧ E' e) := by
  cases m with
  | ok a => exact ⟨h, h'⟩
  | error e => exact ⟨h, h'⟩

/-- What `Sat` says of a program that returned. -/
theorem Sat.of_ok {m : Except ε α} {Q : α → Prop} {E : ε → Prop} {a : α}
    (h : Sat m Q E) (hm : m = .ok a) : Q a := by
  subst hm
  exact h

/-- A program that cannot fault returns. -/
theorem Sat.exists_ok {m : Except ε α} {Q : α → Prop} (h : Sat m Q fun _ => False) :
    ∃ a, m = .ok a ∧ Q a := by
  cases m with
  | ok a => exact ⟨a, rfl, h⟩
  | error e => exact h.elim

/-- `Sat` from the two ways a program can end. -/
theorem sat_iff {m : Except ε α} {Q : α → Prop} {E : ε → Prop} :
    Sat m Q E ↔ (∀ a, m = .ok a → Q a) ∧ (∀ e, m = .error e → E e) := by
  cases m <;> simp

/-- What holds of every result under an assumption. -/
theorem Sat.intro {m : Except ε α} {p : Prop} {Q : α → Prop}
    (h : p → Sat m Q fun _ => True) : Sat m (fun a => p → Q a) fun _ => True := by
  cases m with
  | ok a => exact h
  | error e => trivial

@[simp] theorem sat_true {m : Except ε α} :
    Sat m (fun _ => True) (fun _ => True) := by
  cases m <;> trivial

/-- A check that stops the program with the fault `e` when it fails. -/
def check (e : ε) (b : Bool) : Except ε Unit :=
  if b then .ok () else .error e

@[simp] theorem sat_check {e : ε} {b : Bool} {Q : Unit → Prop} {E : ε → Prop} :
    Sat (check e b) Q E ↔ if b then Q () else E e := by
  cases b <;> rfl

@[simp] theorem check_eq_ok {e : ε} {b : Bool} {u : Unit} :
    check e b = .ok u ↔ b = true := by
  cases b <;> simp [check]

@[simp] theorem check_true {e : ε} : check e true = .ok () := rfl

@[simp] theorem check_false {e : ε} : check e false = .error e := rfl

theorem bind_eq_ok {m : Except ε α} {f : α → Except ε β} {b : β} :
    (m >>= f) = .ok b ↔ ∃ a, m = .ok a ∧ f a = .ok b := by
  cases m <;> simp [bind, Except.bind]

theorem check_bind_eq_ok {e : ε} {b : Bool} {γ : Type} {f : Unit → Except ε γ} {a : γ} :
    (check e b >>= f) = .ok a ↔ b = true ∧ f () = .ok a := by
  cases b <;> simp [bind, Except.bind]

/-- What every step of a fold keeps, the fold keeps. -/
theorem foldlM_sat {γ : Type u} {f : γ → α → Except ε γ} {P : γ → Prop} {E : ε → Prop}
    {l : List α} {c : γ} (hc : P c) (hf : ∀ c, P c → ∀ a ∈ l, Sat (f c a) P E) :
    Sat (l.foldlM f c) P E := by
  induction l generalizing c with
  | nil => exact hc
  | cons a l ih =>
    rw [List.foldlM_cons, sat_bind]
    refine (hf c hc a List.mem_cons_self).imp fun c' hc' => ?_
    exact ih hc' fun c hc b hb => hf c hc b (List.mem_cons_of_mem a hb)

/-- Of the elements of a list one makes the fold take a step. -/
theorem foldlM_single [DecidableEq α] {f : β → α → Except ε β} {p : α} {l : List α} (hl : l.Nodup)
    (hother : ∀ q ∈ l, q ≠ p → ∀ s, f s q = .ok s) (s : β) :
    l.foldlM f s = if p ∈ l then f s p else .ok s := by
  induction l generalizing s with
  | nil => rfl
  | cons q l ih =>
    obtain ⟨hq, hl⟩ := List.nodup_cons.mp hl
    have hrest := ih hl fun q' hq' => hother q' (List.mem_cons_of_mem q hq')
    rw [List.foldlM_cons]
    by_cases heq : q = p
    · subst heq
      rw [if_pos List.mem_cons_self]
      cases hs : f s q with
      | error e => rfl
      | ok s' => exact (hrest s').trans (if_neg hq)
    · rw [hother q List.mem_cons_self heq]
      refine (hrest s).trans ?_
      simp only [List.mem_cons, Ne.symm heq, false_or]

end Startup.Lib
