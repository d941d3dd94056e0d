import Mathlib.Logic.Function.Basic
import Mathlib.Tactic.Common

/-!
# Mark and sweep with a bit

A table has a bit for each entry.  A walk gives the entries that it comes to the present bit, if
they can still be read, and drops them otherwise; afterwards the entries with the other bit are
dropped.

* `Mark`: what the walk does to an entry, which it may bring into the table or only refresh;
* `sweep_markAll`: from a table without the present bit, what is left is what the walk has come to
  and could read.
-/

namespace Startup.Lib

variable {κ : Type*}

/-- An entry is visited, or it is refreshed if it is in the table. -/
inductive Mark (κ : Type*) where
  | visit (k : κ)
  | refresh (k : κ)

/-- What an entry is after it has been read with the present bit. -/
def loaded (readable bit : κ → Bool) (k : κ) : Option Bool :=
  if readable k then some (bit k) else none

/-- One step of a walk. -/
def Mark.apply [DecidableEq κ] (readable bit : κ → Bool) (table : κ → Option Bool) :
    Mark κ → κ → Option Bool
  | .visit k => Function.update table k (loaded readable bit k)
  | .refresh k =>
    if (table k).isSome then Function.update table k (loaded readable bit k) else table

/-- A walk. -/
def markAll [DecidableEq κ] (readable bit : κ → Bool) (table : κ → Option Bool)
    (marks : List (Mark κ)) : κ → Option Bool :=
  marks.foldl (Mark.apply readable bit) table

/-- The entries with another bit than the present one are dropped, where `scope` holds. -/
def sweep (scope bit : κ → Bool) (table : κ → Option Bool) (k : κ) : Option Bool :=
  if scope k && table k ≠ some (bit k) then none else table k

/-- A walk comes to an entry. -/
def CameTo (table : κ → Option Bool) (marks : List (Mark κ)) (k : κ) : Prop :=
  .visit k ∈ marks ∨ .refresh k ∈ marks ∧ (table k).isSome = true

variable {readable bit scope : κ → Bool} {table : κ → Option Bool} {marks more : List (Mark κ)}
  {mark : Mark κ} {k : κ}

/-- Nothing with the other bit is left. -/
theorem sweep_eq_some {b : Bool} (hscope : scope k = true)
    (h : sweep scope bit table k = some b) : b = bit k := by
  rw [sweep, hscope, Bool.true_and] at h
  split at h
  · cases h
  · rename_i heq
    rw [decide_eq_true_eq, not_not] at heq
    rw [heq] at h
    exact (Option.some.inj h).symm

/-- The step does something to the entry. -/
def Mark.Touches (table : κ → Option Bool) (k : κ) : Mark κ → Prop
  | .visit j => j = k
  | .refresh j => j = k ∧ (table k).isSome = true

theorem cameTo_cons : CameTo table (mark :: marks) k ↔
    mark.Touches table k ∨ CameTo table marks k := by
  cases mark with
  | visit j =>
    simp only [CameTo, Mark.Touches, List.mem_cons, Mark.visit.injEq, reduceCtorEq, false_or]
    rw [or_assoc, @eq_comm _ k j]
  | refresh j =>
    simp only [CameTo, Mark.Touches, List.mem_cons, Mark.refresh.injEq, reduceCtorEq, false_or]
    rw [or_and_right, or_left_comm, @eq_comm _ k j]

theorem cameTo_append : CameTo table (marks ++ more) k ↔
    CameTo table marks k ∨ CameTo table more k := by
  simp only [CameTo, List.mem_append, or_and_right]
  rw [or_or_or_comm]

variable [DecidableEq κ]

theorem markAll_append : markAll readable bit table (marks ++ more) =
    markAll readable bit (markAll readable bit table marks) more :=
  List.foldl_append

theorem Mark.apply_of_touches (h : mark.Touches table k) :
    mark.apply readable bit table k = loaded readable bit k := by
  cases mark with
  | visit j =>
    obtain rfl : j = k := h
    exact Function.update_self j _ table
  | refresh j =>
    obtain ⟨rfl, hsome⟩ := h
    rw [Mark.apply, if_pos hsome, Function.update_self]

theorem Mark.apply_of_not_touches (h : ¬ mark.Touches table k) :
    mark.apply readable bit table k = table k := by
  cases mark with
  | visit j => exact Function.update_of_ne (Ne.symm h) _ table
  | refresh j =>
    rw [Mark.apply]
    split
    · rename_i hsome
      have hne : k ≠ j := by
        intro heq
        subst heq
        exact h ⟨rfl, hsome⟩
      exact Function.update_of_ne hne _ table
    · rfl

/-- Once an entry has been read, it stays as it was read. -/
theorem markAll_loaded (h : table k = loaded readable bit k) :
    markAll readable bit table marks k = loaded readable bit k := by
  induction marks generalizing table with
  | nil => exact h
  | cons mark marks ih =>
    apply ih
    by_cases htouches : mark.Touches table k
    · exact Mark.apply_of_touches htouches
    · exact (Mark.apply_of_not_touches htouches).trans h

/-- What a walk comes to is as it was read, and nothing else is touched. -/
theorem markAll_of_cameTo (h : CameTo table marks k) :
    markAll readable bit table marks k = loaded readable bit k := by
  induction marks generalizing table with
  | nil => simp [CameTo] at h
  | cons mark marks ih =>
    by_cases htouches : mark.Touches table k
    · show markAll readable bit (mark.apply readable bit table) marks k = _
      exact markAll_loaded (Mark.apply_of_touches htouches)
    · have hsame : mark.apply readable bit table k = table k :=
        Mark.apply_of_not_touches htouches
      have hrest := (cameTo_cons.mp h).resolve_left htouches
      apply ih
      rwa [CameTo, hsame]

theorem markAll_of_not_cameTo (h : ¬ CameTo table marks k) :
    markAll readable bit table marks k = table k := by
  induction marks generalizing table with
  | nil => rfl
  | cons mark marks ih =>
    rw [cameTo_cons, not_or] at h
    have hsame : mark.apply readable bit table k = table k := Mark.apply_of_not_touches h.1
    rw [← hsame]
    apply ih
    rw [CameTo, hsame]
    exact h.2

/-- An entry after a walk has the bit, or is as it was. -/
theorem markAll_eq_some {b : Bool} (h : markAll readable bit table marks k = some b) :
    b = bit k ∨ table k = some b := by
  by_cases hcame : CameTo table marks k
  · rw [markAll_of_cameTo hcame, loaded] at h
    split at h
    · exact .inl (Option.some.inj h).symm
    · cases h
  · rw [markAll_of_not_cameTo hcame] at h
    exact .inr h

/-- What is left by a walk and a sweep: what the walk has come to and could read. -/
theorem sweep_markAll (hscope : scope k = true) (hold : table k ≠ some (bit k)) :
    (sweep scope bit (markAll readable bit table marks) k).isSome = true ↔
      CameTo table marks k ∧ readable k = true := by
  rw [sweep, hscope, Bool.true_and]
  by_cases hcame : CameTo table marks k
  · rw [markAll_of_cameTo hcame, and_iff_right hcame, loaded]
    cases readable k with
    | true => simp
    | false => simp
  · rw [markAll_of_not_cameTo hcame]
    simp [hcame, hold]

end Startup.Lib
