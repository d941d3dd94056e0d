import Startup.Event.Operator

/-!
# What a condition means

A condition is a boolean expression over its leaves, each of which stays true
once an event has matched it.  `TreeRun` are the calls that the tree of a
condition goes through; along every run

* inner nodes have the value of their operation (`Consistent`), and leaves are
  true exactly when they refer to an event (`Linked`);
* the value of the root is that of the expression, where a leaf is true when one
  of the events since the last reset matches it (`eval`);
* what is left after a reset is the tree as it was parsed.
-/

namespace Startup

open Lib

namespace EventOperator

/-- Every inner node has the value of its operation on its children. -/
def Consistent : EventOperator → Prop
  | eventMatch _ _ _ _ => True
  | eventAnd v l r => v = (l.value && r.value) ∧ l.Consistent ∧ r.Consistent
  | eventOr v l r => v = (l.value || r.value) ∧ l.Consistent ∧ r.Consistent

/-- The value of the expression for given values of the leaves, which may depend
on their names and arguments. -/
def eval (p : String → List String → Bool) : EventOperator → Bool
  | eventMatch name env _ _ => p name env
  | eventAnd _ l r => l.eval p && r.eval p
  | eventOr _ l r => l.eval p || r.eval p

/-- The values of the leaves, from left to right. -/
def leafValues : EventOperator → List Bool
  | eventMatch _ _ v _ => [v]
  | eventAnd _ l r => l.leafValues ++ r.leafValues
  | eventOr _ l r => l.leafValues ++ r.leafValues

/-- Every leaf has a given value. -/
def Latched (p : String → List String → Bool) : EventOperator → Prop
  | eventMatch name env v _ => v = p name env
  | eventAnd _ l r => l.Latched p ∧ r.Latched p
  | eventOr _ l r => l.Latched p ∧ r.Latched p

variable {x : Host} {event : Event} {env : List String} {root : EventOperator}
  {p : String → List String → Bool}

/-- The value of a tree is that of its expression. -/
theorem Consistent.value_eq (hc : root.Consistent) (hl : root.Latched p) :
    root.value = root.eval p := by
  induction root with
  | eventMatch name oenv v ev => exact hl
  | eventAnd v l r ihl ihr => rw [value, hc.1, ihl hc.2.1 hl.1, ihr hc.2.2 hl.2, eval]
  | eventOr v l r ihl ihr => rw [value, hc.1, ihl hc.2.1 hl.1, ihr hc.2.2 hl.2, eval]

/-! ## One call -/

/-- The walk updates every inner node after its children. -/
theorem consistent_handle (x : Host) (event : Event) (env : List String) (root : EventOperator) :
    (eventOperatorHandle x event env root).1.Consistent := by
  induction root with
  | eventMatch name oenv v ev =>
    simp only [eventOperatorHandle]
    split <;> trivial
  | eventAnd v l r ihl ihr => exact ⟨rfl, ihl, ihr⟩
  | eventOr v l r ihl ihr => exact ⟨rfl, ihl, ihr⟩

theorem consistent_reset (root : EventOperator) : (eventOperatorReset root).Consistent := by
  induction root with
  | eventMatch name oenv v ev => trivial
  | eventAnd v l r ihl ihr => exact ⟨rfl, ihl, ihr⟩
  | eventOr v l r ihl ihr => exact ⟨rfl, ihl, ihr⟩

/-- A leaf stays true, or becomes true when the event matches it. -/
theorem Latched.handle (h : root.Latched p) (x : Host) (event : Event) (env : List String) :
    (eventOperatorHandle x event env root).1.Latched
      fun name oenv => p name oenv || eventOperatorMatch x name oenv event env := by
  induction root with
  | eventMatch name oenv v ev =>
    have hv : v = p name oenv := h
    simp only [eventOperatorHandle]
    split
    · rename_i hc
      simpa [Latched] using Or.inr (Bool.and_eq_true_iff.mp hc).2
    · rename_i hc
      rw [Latched, ← hv]
      cases v <;> simp_all
  | eventAnd v l r ihl ihr => exact ⟨ihl h.1, ihr h.2⟩
  | eventOr v l r ihl ihr => exact ⟨ihl h.1, ihr h.2⟩

theorem latched_reset (root : EventOperator) :
    (eventOperatorReset root).Latched fun _ _ => false := by
  induction root with
  | eventMatch name oenv v ev => rfl
  | eventAnd v l r ihl ihr => exact ⟨ihl, ihr⟩
  | eventOr v l r ihl ihr => exact ⟨ihl, ihr⟩

/-- The matches of a tree do not change what it is reset to. -/
theorem reset_handle (x : Host) (event : Event) (env : List String) (root : EventOperator) :
    eventOperatorReset (eventOperatorHandle x event env root).1 = eventOperatorReset root := by
  induction root with
  | eventMatch name oenv v ev =>
    simp only [eventOperatorHandle]
    split <;> rfl
  | eventAnd v l r ihl ihr =>
    simp only [eventOperatorHandle, updateAnd, eventOperatorReset, ihl, ihr]
  | eventOr v l r ihl ihr =>
    simp only [eventOperatorHandle, updateOr, eventOperatorReset, ihl, ihr]

@[simp] theorem reset_reset (root : EventOperator) :
    eventOperatorReset (eventOperatorReset root) = eventOperatorReset root := by
  induction root with
  | eventMatch name oenv v ev => rfl
  | eventAnd v l r ihl ihr => simp only [eventOperatorReset, updateAnd, ihl, ihr]
  | eventOr v l r ihl ihr => simp only [eventOperatorReset, updateOr, ihl, ihr]

/-- The expression depends on the leaves alone. -/
theorem eval_reset (p : String → List String → Bool) (root : EventOperator) :
    (eventOperatorReset root).eval p = root.eval p := by
  induction root with
  | eventMatch name oenv v ev => rfl
  | eventAnd v l r ihl ihr => simp only [eventOperatorReset, updateAnd, eval, ihl, ihr]
  | eventOr v l r ihl ihr => simp only [eventOperatorReset, updateOr, eval, ihl, ihr]

theorem length_leafValues_handle (x : Host) (event : Event) (env : List String)
    (root : EventOperator) :
    (eventOperatorHandle x event env root).1.leafValues.length = root.leafValues.length := by
  induction root with
  | eventMatch name oenv v ev =>
    simp only [eventOperatorHandle]
    split <;> rfl
  | eventAnd v l r ihl ihr =>
    simp only [eventOperatorHandle, updateAnd, leafValues, List.length_append, ihl, ihr]
  | eventOr v l r ihl ihr =>
    simp only [eventOperatorHandle, updateOr, leafValues, List.length_append, ihl, ihr]

/-- A leaf of a tree was false, and in another one it is true. -/
def Gains (before after : EventOperator) : Prop :=
  (false, true) ∈ before.leafValues.zip after.leafValues

/-- The function returns `TRUE` exactly when a leaf became true. -/
theorem gains_handle (x : Host) (event : Event) (env : List String) (root : EventOperator) :
    Gains root (eventOperatorHandle x event env root).1 ↔
      (eventOperatorHandle x event env root).2 ≠ 0 := by
  have hboth : ∀ l r : EventOperator,
      (Gains l (eventOperatorHandle x event env l).1 ↔ (eventOperatorHandle x event env l).2 ≠ 0) →
      (Gains r (eventOperatorHandle x event env r).1 ↔ (eventOperatorHandle x event env r).2 ≠ 0) →
      ((false, true) ∈ (l.leafValues ++ r.leafValues).zip
        ((eventOperatorHandle x event env l).1.leafValues ++
          (eventOperatorHandle x event env r).1.leafValues) ↔
        (eventOperatorHandle x event env l).2 + (eventOperatorHandle x event env r).2 ≠ 0) := by
    intro l r hl hr
    rw [List.zip_append (length_leafValues_handle x event env l).symm, List.mem_append]
    have hor := or_congr hl hr
    rw [Gains, Gains] at hor
    rw [hor]
    omega
  induction root with
  | eventMatch name oenv v ev =>
    simp only [eventOperatorHandle]
    split
    · rename_i hc
      have hv : v = false := by simpa using (Bool.and_eq_true_iff.mp hc).1
      simp [Gains, leafValues, hv]
    · cases v <;> simp [Gains, leafValues]
  | eventAnd v l r ihl ihr => exact hboth l r ihl ihr
  | eventOr v l r ihl ihr => exact hboth l r ihl ihr

end EventOperator

/-! ## Runs -/

/-- What the tree that was parsed as `parsed` goes through: the calls on it, with
a fixed environment, and what happens to the queue in between.  `seen` are the
events since the last reset. -/
inductive TreeRun (x : Host) (env : List String) (parsed : EventOperator) :
    Sys → EventOperator → List Event → Prop where
  | parse (sys : Sys) : TreeRun x env parsed sys parsed []
  | handle {sys sys' : Sys} {root root' : EventOperator} {seen : List Event} {event : Event}
      {matched : Bool} : TreeRun x env parsed sys root seen →
      handleOperator x sys root event env = .ok (sys', root', matched) →
      TreeRun x env parsed sys' root' (event :: seen)
  | reset {sys sys' : Sys} {root root' : EventOperator} {seen : List Event} :
      TreeRun x env parsed sys root seen → resetOperator sys root = .ok (sys', root') →
      TreeRun x env parsed sys' root' []
  | copy {sys sys' : Sys} {root root' : EventOperator} {seen : List Event} :
      TreeRun x env parsed sys root seen → copyOperator sys root = .ok (sys', root') →
      TreeRun x env parsed sys' root' seen
  | elsewhere {sys : Sys} {root : EventOperator} {seen : List Event} (sys' : Sys) :
      TreeRun x env parsed sys root seen → TreeRun x env parsed sys' root seen

/-- A condition on two events, the second of which is in the queue. -/
def halfParsed : EventOperator :=
  .eventAnd false (.eventMatch "first" [] false none) (.eventMatch "second" [] false none)

def halfEvent : Event :=
  { id := 1, name := "second", env := [], fd := -1, progress := .pending, failed := false,
    blockers := 0, blocking := [], valid := environAllValid_nil }

def halfQueue : Sys := ⟨[halfEvent], 1, 0, []⟩

/-- One of the events matches a leaf. -/
def matchedBy (x : Host) (env : List String) (seen : List Event) (name : String)
    (oenv : List String) : Bool :=
  seen.any fun event => eventOperatorMatch x name oenv event env

theorem handleOperator_root {x : Host} {sys : Sys} {root : EventOperator} {event : Event}
    {env : List String} :
    Sat (handleOperator x sys root event env)
      (fun r => r.2.1 = (eventOperatorHandle x event env root).1 ∧
        r.2.2 = ((eventOperatorHandle x event env root).2 != 0)) (fun _ => True) := by
  unfold handleOperator
  dsimp only
  rw [sat_bind]
  exact (sat_true (m := blockAll _ _)).imp fun _ _ => ⟨rfl, rfl⟩

theorem resetOperator_root {sys : Sys} {root : EventOperator} :
    Sat (resetOperator sys root) (fun r => r.2 = eventOperatorReset root) (fun _ => True) := by
  unfold resetOperator
  rw [sat_bind]
  exact (sat_true (m := unblockAll _ _)).imp fun _ _ => rfl

theorem copyOperator_root {sys : Sys} {root : EventOperator} :
    Sat (copyOperator sys root) (fun r => r.2 = root) (fun _ => True) := by
  unfold copyOperator
  rw [sat_bind]
  exact (sat_true (m := blockAll _ _)).imp fun _ _ => rfl

/-- What holds of a condition throughout its runs. -/
structure Meaningful (x : Host) (env : List String) (parsed root : EventOperator)
    (seen : List Event) : Prop where
  consistent : root.Consistent
  linked : root.Linked
  latched : root.Latched (matchedBy x env seen)
  restores : eventOperatorReset root = parsed

theorem TreeRun.meaningful {x : Host} {env : List String} {parsed root : EventOperator}
    {sys : Sys} {seen : List Event} (hparsed : eventOperatorReset parsed = parsed)
    (h : TreeRun x env parsed sys root seen) : Meaningful x env parsed root seen := by
  have hreset : Meaningful x env parsed parsed [] := by
    refine ⟨?_, ?_, ?_, hparsed⟩ <;> rw [← hparsed]
    · exact EventOperator.consistent_reset parsed
    · exact EventOperator.linked_reset parsed
    · exact EventOperator.latched_reset parsed
  induction h with
  | parse sys => exact hreset
  | @handle _ _ root _ seen event _ _ hop ih =>
    obtain ⟨rfl, -⟩ := handleOperator_root.of_ok hop
    refine ⟨EventOperator.consistent_handle x event env root, ih.linked.handle x event env, ?_,
      (EventOperator.reset_handle x event env root).trans ih.restores⟩
    have hlatched := ih.latched.handle x event env
    have hp : (fun name oenv => matchedBy x env seen name oenv ||
        eventOperatorMatch x name oenv event env) = matchedBy x env (event :: seen) := by
      funext name oenv
      rw [matchedBy, matchedBy, List.any_cons, Bool.or_comm]
    rwa [hp] at hlatched
  | @reset _ _ root _ _ _ hop ih =>
    obtain rfl := resetOperator_root.of_ok hop
    rw [ih.restores]
    exact hreset
  | copy _ hop ih =>
    obtain rfl := copyOperator_root.of_ok hop
    exact ih
  | elsewhere _ _ ih => exact ih

/-- Conditions mean what they say, in every run. -/
theorem TreeRun.semantics {x : Host} {env : List String} {parsed root : EventOperator}
    {sys : Sys} {seen : List Event} (hparsed : eventOperatorReset parsed = parsed)
    (h : TreeRun x env parsed sys root seen) :
    root.Consistent ∧ root.Linked ∧
      root.value = parsed.eval (matchedBy x env seen) ∧
      (∀ sys' root' seen', TreeRun x env parsed sys' root' seen' → seen'.Perm seen →
        root'.value = root.value) ∧
      (∀ event sys' root' matched, handleOperator x sys root event env = .ok (sys', root', matched) →
        (matched = true ↔ EventOperator.Gains root root')) ∧
      ∀ sys' root', resetOperator sys root = .ok (sys', root') → root' = parsed := by
  have heval : ∀ {sys root seen}, TreeRun x env parsed sys root seen →
      root.value = parsed.eval (matchedBy x env seen) := by
    intro sys root seen h
    have hm := h.meaningful hparsed
    rw [hm.consistent.value_eq hm.latched, ← hm.restores, EventOperator.eval_reset]
  have hm := h.meaningful hparsed
  refine ⟨hm.consistent, hm.linked, heval h, fun sys' root' seen' h' hperm => ?_,
    fun event sys' root' matched hop => ?_, fun sys' root' hop => ?_⟩
  · have hp : matchedBy x env seen' = matchedBy x env seen := by
      funext name oenv
      exact hperm.any_eq
    rw [heval h', heval h, hp]
  · obtain ⟨rfl, rfl⟩ := handleOperator_root.of_ok hop
    rw [EventOperator.gains_handle]
    simp
  · exact (resetOperator_root.of_ok hop).trans hm.restores

/-- A condition on two events, of which the second one has happened. -/
theorem TreeRun.semantics_half :
    ∃ sys root seen, TreeRun plainHost [] halfParsed sys root seen ∧ root.refs = [1] ∧
      root.value = false ∧ root.Consistent := by
  have h₀ : TreeRun plainHost [] halfParsed halfQueue halfParsed [] := .parse halfQueue
  have hop : handleOperator plainHost halfQueue halfParsed halfEvent [] = .ok (_, _, _) := rfl
  have h₁ := h₀.handle hop
  exact ⟨_, _, _, h₁, rfl, rfl, (h₁.semantics rfl).1⟩

end Startup
