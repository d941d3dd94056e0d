import Startup.State.Classes

/-!
# What the state may store (`init/process.c`, `init/state.c`)

The tables of processes and of limits, for any document.

* `tablesWithin_iff`: nothing is stored behind them, and no assertion fails, exactly where an
  array that is too long has an element that is refused before its place is reached.
-/

namespace Startup

open Lib

/-- An element of the array of limits that can be read. -/
def IsLimit (json : Json) : Prop :=
  json.isObject = true ∧ (∃ n, json.get? "rlim_cur" = some (.int n)) ∧
    ∃ n, json.get? "rlim_max" = some (.int n)

/-- Nothing is stored behind the two tables, and a longer array is an error. -/
def TablesWithin (json : Json) : Prop :=
  StoresWithin ProcessType.all.length json "process" (processStores json) ∧
    StoresWithin rlimitNlimits json "limits" (stateRlimitStores json)

/-- The arrays fit, or have an element of another kind in time. -/
def ArraysFit (json : Json) : Prop :=
  FitsTable ProcessType.all.length json "process" (fun item => item.isObject = true) ∧
    FitsTable rlimitNlimits json "limits" IsLimit

variable {json item : Json} {name : String}

theorem processRestore_ok :
    item.isObject = true ↔ ∃ process, processRestore item = .ok process := by
  unfold processRestore
  cases item.isObject with
  | true => simp [restoreIf, check, bind, Except.bind]
  | false => simp [restoreIf, check, bind, Except.bind]

theorem processRestore_fault (item : Json) (f : Fault) :
    processRestore item ≠ .error (.fault f) := by
  unfold processRestore
  cases item.isObject with
  | true => simp [restoreIf, check, bind, Except.bind]
  | false => simp [restoreIf, check, bind, Except.bind]

theorem stateGetJsonIntVar_cases (json : Json) (name : String) :
    (∃ n, json.get? name = some (.int n) ∧ stateGetJsonIntVar json name = .ok n) ∨
      (¬ ∃ n, json.get? name = some (.int n)) ∧ stateGetJsonIntVar json name = notRestored := by
  unfold stateGetJsonIntVar
  split
  · rename_i n hget
    exact .inl ⟨n, hget, rfl⟩
  · rename_i hnone
    refine .inr ⟨?_, rfl⟩
    rintro ⟨n, hget⟩
    exact hnone n hget

/-- A limit is read, or refused. -/
theorem stateRlimitRestore_cases (item : Json) :
    IsLimit item ∧ (∃ limit, stateRlimitRestore item = .ok limit) ∨
      ¬ IsLimit item ∧ stateRlimitRestore item = notRestored := by
  unfold stateRlimitRestore IsLimit
  cases item.isObject with
  | false => simp [restoreIf, check, bind, Except.bind, notRestored]
  | true =>
    rcases stateGetJsonIntVar_cases item "rlim_cur" with ⟨cur, hcur, hread⟩ | ⟨hcur, hread⟩
    · rcases stateGetJsonIntVar_cases item "rlim_max" with ⟨max, hmax, hread'⟩ | ⟨hmax, hread'⟩
      · simp [restoreIf, check, bind, Except.bind, hread, hread', hcur, hmax]
      · simp [restoreIf, check, bind, Except.bind, hread, hread', hmax, notRestored]
    · simp [restoreIf, check, bind, Except.bind, hread, hcur, notRestored]

/-- The tables are kept exactly for the documents whose arrays fit, or are refused in time. -/
theorem tablesWithin_iff (json : Json) : TablesWithin json ↔ ArraysFit json := by
  have hprocess : StoresWithin ProcessType.all.length json "process" (processStores json) ↔
      FitsTable ProcessType.all.length json "process" (fun item => item.isObject = true) :=
    storesWithin_iff (fun item => processRestore_ok) processRestore_fault
  have hlimit : StoresWithin rlimitNlimits json "limits" (stateRlimitStores json) ↔
      FitsTable rlimitNlimits json "limits" IsLimit := by
    apply storesWithin_iff
    · intro item
      rcases stateRlimitRestore_cases item with ⟨hlimit, hok⟩ | ⟨hlimit, hrefused⟩
      · exact iff_of_true hlimit hok
      · rw [hrefused]
        exact iff_of_false hlimit nofun
    · intro item f hfault
      rcases stateRlimitRestore_cases item with ⟨-, limit, hok⟩ | ⟨-, hrefused⟩
      · rw [hok] at hfault
        cases hfault
      · rw [hrefused] at hfault
        cases hfault
  rw [TablesWithin, hprocess, hlimit, ArraysFit]

/-- One process more than there are kinds is stored behind the table. -/
theorem extraProcess_stored :
    (ProcessType.all.length, none) ∈
        (processStores (.object [("process", .array (List.replicate 7 (.object [])))])).1 ∧
      ¬ TablesWithin (.object [("process", .array (List.replicate 7 (.object [])))]) := by
  have hstores : processStores (.object [("process", .array (List.replicate 7 (.object [])))]) =
      ([(0, none), (1, none), (2, none), (3, none), (4, none), (5, none), (6, none)], .ok ()) :=
    rfl
  rw [TablesWithin, hstores]
  refine ⟨by simp [ProcessType.all], ?_⟩
  intro h
  have hlt := h.1.1 (6, none) (by simp)
  exact absurd hlt (by decide)

end Startup
