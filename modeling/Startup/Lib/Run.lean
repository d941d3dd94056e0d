import Startup.Lib.Sat

/-!
# Runs of a transition system whose steps can fault

A system is a step function `step : σ → ι → Except ε σ` on a state and an
input.  `Reach init ok step s` says that `s` is reached from an initial state
by inputs that are all admitted by `ok`, none of which faults: a fault ends
the run.  A condition on the runs of a system is a stronger `ok`.
-/

namespace Startup.Lib

variable {σ ι ε : Type*}

/-- The states reached from `init` by admitted inputs that do not fault. -/
inductive Reach (init : σ → Prop) (ok : σ → ι → Prop) (step : σ → ι → Except ε σ) :
    σ → Prop where
  | init {s : σ} : init s → Reach init ok step s
  | step {s s' : σ} {i : ι} : Reach init ok step s → ok s i → step s i = .ok s' →
      Reach init ok step s'

variable {init : σ → Prop} {ok ok' : σ → ι → Prop} {step : σ → ι → Except ε σ}

/-- An invariant that holds initially and that every admitted step keeps
holds of every reached state. -/
theorem Reach.invariant {I : σ → Prop} (hinit : ∀ s, init s → I s)
    (hstep : ∀ s i, I s → ok s i → Sat (step s i) I (fun _ => True)) {s : σ}
    (h : Reach init ok step s) : I s := by
  induction h with
  | init h => exact hinit _ h
  | step _ hok hs ih => exact (hstep _ _ ih hok).of_ok hs

/-- Fewer admitted inputs reach fewer states. -/
theorem Reach.mono (himp : ∀ s i, ok s i → ok' s i) {s : σ}
    (h : Reach init ok step s) : Reach init ok' step s := by
  induction h with
  | init h => exact .init h
  | step _ hok hs ih => exact .step ih (himp _ _ hok) hs

/-- A run that takes the inputs of a list one after the other. -/
def runList (step : σ → ι → Except ε σ) : σ → List ι → Except ε σ
  | s, [] => .ok s
  | s, i :: is => step s i >>= fun s' => runList step s' is

/-- The inputs of a list are admitted one after the other. -/
def Admitted (ok : σ → ι → Prop) (step : σ → ι → Except ε σ) : σ → List ι → Prop
  | _, [] => True
  | s, i :: is => ok s i ∧ ∀ s', step s i = .ok s' → Admitted ok step s' is

/-- Where each step ends well exactly if it began well and its input is admitted, a run ends well
exactly if it began well and all its inputs are admitted. -/
theorem runList_iff {I P : σ → Prop} {s s' : σ} {is : List ι}
    (hstep : ∀ s, I s → ∀ i ∈ is, ∀ s', step s i = .ok s' → I s' ∧ (P s' ↔ P s ∧ ok s i))
    (hinit : I s) (hrun : Lib.runList step s is = .ok s') :
    P s' ↔ P s ∧ Admitted ok step s is := by
  induction is generalizing s with
  | nil =>
    cases hrun
    exact (and_iff_left trivial).symm
  | cons i is ih =>
    cases hs : step s i with
    | error e => simp [Lib.runList, hs, bind, Except.bind] at hrun
    | ok t =>
      rw [Lib.runList, hs] at hrun
      obtain ⟨ht, hiff⟩ := hstep s hinit i List.mem_cons_self t hs
      have hrest := ih (fun s hs i hi => hstep s hs i (List.mem_cons_of_mem _ hi)) ht hrun
      have hadmitted : Admitted ok step s (i :: is) ↔ ok s i ∧ Admitted ok step t is := by
        rw [Admitted, hs]
        simp only [Except.ok.injEq, forall_eq']
      rw [hrest, hiff, hadmitted, and_assoc]

end Startup.Lib
