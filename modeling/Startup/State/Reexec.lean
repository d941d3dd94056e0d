import Startup.State.CleanArgs
import Mathlib.Data.Nat.Digits.Defs

/-!
# Re-execs (`init/state.c`)

Init passes its arguments on to the next instance, with options for the log level and the
descriptor of the state, and takes out the options that it had been given itself.

* `vector`: the arguments that `execvp` is called with;
* `reexecs`: any sequence of re-execs, with what is passed on;
* `reexecArgs_iff`: the re-execs for which the arguments stay clean.
-/

namespace Startup

/-- `NihLogLevel`, from the lowest to the highest. -/
inductive LogLevel where
  | unknown
  | debug
  | info
  | message
  | warn
  | error
  | fatal
  deriving DecidableEq, Repr

/-- The option that `perform_reexec` adds for `nih_log_priority`. -/
def logLevelOption : LogLevel → Option String
  | .unknown | .debug => some "--debug"
  | .info => some "--verbose"
  | .message | .warn => none
  | .error | .fatal => some "--error"

/-- What goes before `perform_reexec`. -/
inductive ReexecCause where
  /-- `stateful_reexec` has forked a child, whose state is to be read from `fd` -/
  | forked (fd : Nat)
  /-- `stateful_reexec`, where `state_to_string`, `pipe` or `fork` fails -/
  | notForked
  /-- `main`, where `state_read` fails -/
  | notRead
  deriving DecidableEq

/-- One re-exec; `execs` says whether `execvp` succeeds. -/
structure ReexecStep where
  cause : ReexecCause
  priority : LogLevel
  execs : Bool
  deriving DecidableEq

/-- What an instance of init has of its arguments. -/
structure InitArgs where
  argsCopy : List String
  restart : Bool
  deriving DecidableEq

/-- The arguments that are there when `perform_reexec` is called. -/
def argsFor (argsCopy : List String) : ReexecCause → Except ArgsFault (List String)
  | .forked fd => (cleanArgs argsCopy).map fun args => args ++ ["--state-fd", toString fd]
  | .notForked => .ok argsCopy
  | .notRead => cleanArgs argsCopy

/-- `perform_reexec`: the arguments that `execvp` is called with. -/
def performReexec (argsCopy : List String) (restart : Bool) (priority : LogLevel) :
    List String :=
  argsCopy ++ (logLevelOption priority).toList ++ if restart then [] else ["--restart"]

/-- The arguments that a re-exec passes on. -/
def vector (init : InitArgs) (step : ReexecStep) : Except ArgsFault (List String) :=
  (argsFor init.argsCopy step.cause).map fun args => performReexec args init.restart step.priority

/-- A re-exec, and what it has passed on. -/
structure ReexecRecord where
  before : InitArgs
  step : ReexecStep
  passed : Except ArgsFault (List String)
  deriving DecidableEq

/-- A sequence of re-execs.  `restarted` says for which arguments the option parser sets
`restart`. -/
def reexecs (restarted : List String → Bool) : InitArgs → List ReexecStep → List ReexecRecord
  | _, [] => []
  | init, step :: steps =>
    ⟨init, step, vector init step⟩ ::
      match vector init step with
      | .error _ => []
      | .ok args =>
        if step.execs then reexecs restarted ⟨args, restarted args⟩ steps
        -- `main` does not go on where `execvp` fails, `stateful_reexec` does
        else if step.cause = .notRead then []
        else reexecs restarted ⟨args, init.restart⟩ steps

/-! ## What is to be passed on -/

/-- What is passed on are the original other arguments, before the `--restart` that has been
added, at most one option for the log level, and `--state-fd` if a child has been forked. -/
structure PassesOn (original : List String) (r : ReexecRecord) (args : List String) : Prop where
  passed : r.passed = .ok args
  others : ∃ n, cleaned args = cleaned original ++ List.replicate n "--restart"
  level : args.countP isLevel ≤ 1
  stateFd : "--state-fd" ∈ args ↔ ∃ fd, r.step.cause = .forked fd

/-- A re-exec that starts without cleaning has nothing to clean; the others have a value for the
last `--state-fd`. -/
def Cleanable (r : ReexecRecord) : Prop :=
  if r.step.cause = .notForked then
    "--state-fd" ∉ r.before.argsCopy ∧
      r.before.argsCopy.countP isLevel + (logLevelOption r.step.priority).toList.length ≤ 1
  else ¬ Dangling r.before.argsCopy

variable {original args : List String} {restarted : List String → Bool} {arg : String}
  {init : InitArgs} {step : ReexecStep}

/-! ## Options -/

theorem mem_cleaned (h : arg ∈ cleaned args) : arg ≠ "--state-fd" ∧ isLevel arg = false := by
  induction args using cleaned.induct with
  | case1 => cases h
  | case2 first hfirst => simp [cleaned, hfirst] at h
  | case3 first hfirst =>
    simp only [cleaned, hfirst, if_false, List.mem_singleton] at h
    subst h
    simpa using hfirst
  | case4 value args ih =>
    rw [cleaned_option] at h
    exact ih h
  | case5 first value args hfirst hlevel ih =>
    rw [cleaned_level _ hfirst hlevel] at h
    exact ih h
  | case6 first value args hfirst hlevel ih =>
    have hlevel : isLevel first = false := by simpa using hlevel
    rw [cleaned_keep _ hfirst hlevel] at h
    rcases List.mem_cons.mp h with rfl | h
    · exact ⟨hfirst, hlevel⟩
    · exact ih h

/-- Without `--state-fd`, only the options for the log level go. -/
theorem cleaned_append (h : "--state-fd" ∉ args) (rest : List String) :
    cleaned (args ++ rest) = args.filter (fun arg => !isLevel arg) ++ cleaned rest := by
  induction args with
  | nil => rfl
  | cons first args ih =>
    rw [List.mem_cons, not_or] at h
    have hfirst : first ≠ "--state-fd" := Ne.symm h.1
    cases hlevel : isLevel first with
    | true => simp [cleaned_level _ hfirst hlevel, hlevel, ih h.2]
    | false => simp [cleaned_keep _ hfirst hlevel, hlevel, ih h.2]

theorem cleaned_eq_filter (h : "--state-fd" ∉ args) :
    cleaned args = args.filter fun arg => !isLevel arg := by
  have happend := cleaned_append h []
  rwa [List.append_nil, cleaned, List.append_nil] at happend

theorem stateFd_not_mem_cleaned (args : List String) : "--state-fd" ∉ cleaned args :=
  fun h => (mem_cleaned h).1 rfl

theorem countP_cleaned (args : List String) : (cleaned args).countP isLevel = 0 := by
  rw [List.countP_eq_zero]
  intro arg harg
  rw [(mem_cleaned harg).2]
  exact Bool.false_ne_true

theorem cleaned_cleaned (args : List String) : cleaned (cleaned args) = cleaned args := by
  rw [cleaned_eq_filter (stateFd_not_mem_cleaned args), List.filter_eq_self]
  intro arg harg
  rw [(mem_cleaned harg).2]
  rfl

theorem dash_mem_of_isLevel (h : isLevel arg = true) : '-' ∈ arg.toList := by
  simp only [isLevel, Bool.or_eq_true, decide_eq_true_eq] at h
  rcases h with (rfl | rfl) | rfl
  · decide
  · decide
  · decide

/-- The number of a descriptor is no option. -/
theorem isLevel_toString (fd : Nat) : isLevel (toString fd) = false := by
  rw [Bool.eq_false_iff]
  intro h
  have hdash := dash_mem_of_isLevel h
  have hrepr : toString fd = Nat.repr fd := rfl
  rw [hrepr, Nat.toList_repr] at hdash
  exact absurd (Nat.isDigit_of_mem_toDigits (by decide) (by decide) hdash) (by decide)

/-! ## One re-exec -/

/-- The options that `perform_reexec` adds. -/
def addedOptions (restart : Bool) (priority : LogLevel) : List String :=
  (logLevelOption priority).toList ++ if restart then [] else ["--restart"]

theorem cleaned_addedOptions (restart : Bool) (priority : LogLevel) :
    ∃ n, cleaned (addedOptions restart priority) = List.replicate n "--restart" := by
  cases restart with
  | true => exact ⟨0, by cases priority <;> rfl⟩
  | false => exact ⟨1, by cases priority <;> rfl⟩

theorem countP_addedOptions (restart : Bool) (priority : LogLevel) :
    (addedOptions restart priority).countP isLevel = (logLevelOption priority).toList.length ∧
      (logLevelOption priority).toList.length ≤ 1 ∧
      "--state-fd" ∉ addedOptions restart priority := by
  cases restart with
  | true => cases priority <;> decide
  | false => cases priority <;> decide

theorem performReexec_eq (argsCopy : List String) (restart : Bool) (priority : LogLevel) :
    performReexec argsCopy restart priority = argsCopy ++ addedOptions restart priority :=
  List.append_assoc _ _ _

theorem cleaned_cleaned_append (args rest : List String) :
    cleaned (cleaned args ++ rest) = cleaned args ++ cleaned rest := by
  rw [cleaned_append (stateFd_not_mem_cleaned args), ← cleaned_eq_filter
    (stateFd_not_mem_cleaned args), cleaned_cleaned]

/-- The arguments that a re-exec may start from: no options but those of this re-exec. -/
structure StartsFrom (init : InitArgs) (step : ReexecStep) (args : List String) : Prop where
  argsFor : argsFor init.argsCopy step.cause = .ok args
  others : ∀ rest, cleaned (args ++ rest) = cleaned init.argsCopy ++ cleaned rest
  level : step.cause ≠ .notForked → args.countP isLevel = 0
  stateFd : step.cause ≠ .notForked → ("--state-fd" ∈ args ↔ ∃ fd, step.cause = .forked fd)

theorem startsFrom_forked {fd : Nat} (hcause : step.cause = .forked fd)
    (h : ¬ Dangling init.argsCopy) :
    StartsFrom init step (cleaned init.argsCopy ++ ["--state-fd", toString fd]) := by
  have hclean : cleanArgs init.argsCopy = .ok (cleaned init.argsCopy) :=
    (cleansRight_iff init.argsCopy).mpr h
  refine ⟨?_, ?_, ?_, ?_⟩
  · rw [hcause, argsFor, hclean]
    rfl
  · intro rest
    rw [List.append_assoc, cleaned_cleaned_append]
    exact congrArg _ (cleaned_option _ rest)
  · intro _
    have hfd := isLevel_toString fd
    rw [List.countP_append, countP_cleaned, List.countP_cons_of_neg (by decide),
      List.countP_singleton, hfd]
    rfl
  · intro _
    simp [hcause]

theorem startsFrom_notRead (hcause : step.cause = .notRead) (h : ¬ Dangling init.argsCopy) :
    StartsFrom init step (cleaned init.argsCopy) := by
  have hclean : cleanArgs init.argsCopy = .ok (cleaned init.argsCopy) :=
    (cleansRight_iff init.argsCopy).mpr h
  refine ⟨?_, cleaned_cleaned_append init.argsCopy, fun _ => countP_cleaned _, ?_⟩
  · rw [hcause, argsFor, hclean]
  · intro _
    simp [hcause, stateFd_not_mem_cleaned]

theorem startsFrom_notForked (hcause : step.cause = .notForked)
    (h : "--state-fd" ∉ init.argsCopy) : StartsFrom init step init.argsCopy := by
  refine ⟨by rw [hcause, argsFor], ?_, fun hne => absurd hcause hne, fun hne => absurd hcause hne⟩
  intro rest
  rw [cleaned_append h, cleaned_eq_filter h]

/-- What a re-exec that starts so passes on. -/
theorem passesOn_of_startsFrom {n : Nat} (hstart : StartsFrom init step args)
    (hclean : Cleanable ⟨init, step, vector init step⟩)
    (hothers : cleaned init.argsCopy = cleaned original ++ List.replicate n "--restart") :
    PassesOn original ⟨init, step, vector init step⟩
      (args ++ addedOptions init.restart step.priority) := by
  obtain ⟨hcount, hle, hnot⟩ := countP_addedOptions init.restart step.priority
  obtain ⟨m, hadded⟩ := cleaned_addedOptions init.restart step.priority
  refine ⟨?_, ⟨n + m, ?_⟩, ?_, ?_⟩
  · show vector init step = _
    rw [vector, hstart.argsFor, ← performReexec_eq]
    rfl
  · rw [hstart.others, hothers, hadded, List.append_assoc, List.replicate_append_replicate]
  · rw [List.countP_append, hcount]
    by_cases hcause : step.cause = .notForked
    · rw [Cleanable, if_pos hcause] at hclean
      have hargs := hstart.argsFor
      rw [hcause, argsFor] at hargs
      cases hargs
      exact hclean.2
    · rw [hstart.level hcause]
      omega
  · rw [List.mem_append, or_iff_left hnot]
    by_cases hcause : step.cause = .notForked
    · rw [Cleanable, if_pos hcause] at hclean
      have hargs := hstart.argsFor
      rw [hcause, argsFor] at hargs
      cases hargs
      exact iff_of_false hclean.1 (by simp [hcause])
    · exact hstart.stateFd hcause

/-- A re-exec passes on what it is to, exactly where it can be clean. -/
theorem passesOn_iff {n : Nat}
    (hothers : cleaned init.argsCopy = cleaned original ++ List.replicate n "--restart") :
    (∃ args, PassesOn original ⟨init, step, vector init step⟩ args) ↔
      Cleanable ⟨init, step, vector init step⟩ := by
  constructor
  · intro hpasses
    obtain ⟨args, hpassed, -, hlevel, hstateFd⟩ := hpasses
    have hpassed : (argsFor init.argsCopy step.cause).map
        (fun args => performReexec args init.restart step.priority) = .ok args := hpassed
    obtain ⟨hcount, -, -⟩ := countP_addedOptions init.restart step.priority
    rw [Cleanable]
    split
    · rename_i hcause
      rw [hcause, argsFor] at hpassed
      cases hpassed
      dsimp only at hlevel hstateFd
      rw [performReexec_eq] at hlevel hstateFd
      rw [List.countP_append, hcount] at hlevel
      refine ⟨?_, hlevel⟩
      intro hmem
      obtain ⟨fd, hfd⟩ := hstateFd.mp (List.mem_append_left _ hmem)
      rw [hcause] at hfd
      cases hfd
    · rename_i hcause
      intro hdangling
      have hbad := (cleanArgs_eq init.argsCopy).1 hdangling
      cases hstep : step.cause with
      | forked fd =>
        rw [hstep, argsFor, hbad] at hpassed
        cases hpassed
      | notForked => exact hcause hstep
      | notRead =>
        rw [hstep, argsFor, hbad] at hpassed
        cases hpassed
  · intro hclean
    have hsplit := hclean
    rw [Cleanable] at hsplit
    split at hsplit
    · rename_i hcause
      exact ⟨_, passesOn_of_startsFrom (startsFrom_notForked hcause hsplit.1) hclean hothers⟩
    · rename_i hcause
      cases hstep : step.cause with
      | forked fd =>
        exact ⟨_, passesOn_of_startsFrom (startsFrom_forked hstep hsplit) hclean hothers⟩
      | notForked => exact absurd hstep hcause
      | notRead =>
        exact ⟨_, passesOn_of_startsFrom (startsFrom_notRead hstep hsplit) hclean hothers⟩

/-! ## All re-execs -/

theorem reexecs_passesOn (restarted : List String → Bool) (steps : List ReexecStep) {n : Nat}
    (hothers : cleaned init.argsCopy = cleaned original ++ List.replicate n "--restart") :
    (∀ r ∈ reexecs restarted init steps, ∃ args, PassesOn original r args) ↔
      ∀ r ∈ reexecs restarted init steps, Cleanable r := by
  induction steps generalizing init n with
  | nil => exact iff_of_true (List.forall_mem_nil _) (List.forall_mem_nil _)
  | cons step steps ih =>
    rw [reexecs, List.forall_mem_cons, List.forall_mem_cons, passesOn_iff hothers]
    apply and_congr_right
    intro hclean
    obtain ⟨args, hpassed, ⟨m, hnext⟩, -, -⟩ := (passesOn_iff hothers).mpr hclean
    have hpassed : vector init step = .ok args := hpassed
    rw [hpassed]
    dsimp only
    split
    · exact @ih ⟨args, restarted args⟩ m hnext
    · split
      · exact iff_of_true (List.forall_mem_nil _) (List.forall_mem_nil _)
      · exact @ih ⟨args, init.restart⟩ m hnext

/-- An array is cleaned, and every sequence of re-execs passes on what it is to, exactly where
the last `--state-fd` has a value, and no re-exec starts without cleaning from options that it
would have to take out. -/
theorem reexecArgs_iff (restarted : List String → Bool) (args argv : List String)
    (steps : List ReexecStep) :
    (CleansRight args ∧
        ∀ r ∈ reexecs restarted ⟨argv, restarted argv⟩ steps, ∃ args, PassesOn argv r args) ↔
      ¬ Dangling args ∧ ∀ r ∈ reexecs restarted ⟨argv, restarted argv⟩ steps, Cleanable r := by
  rw [cleansRight_iff]
  apply and_congr_right
  intro _
  exact reexecs_passesOn restarted steps (n := 0) (List.append_nil _).symm

/-- A re-exec that is stateful, and one after it for which there is no pipe. -/
def staleSteps : List ReexecStep :=
  [⟨.forked 7, .debug, true⟩, ⟨.notForked, .debug, true⟩]

/-- The descriptor of the first re-exec is passed on by the second one, and both options for the
log level; and a `--state-fd` at the end is read over. -/
theorem staleStateFd_passed :
    (reexecs (fun args => args.contains "--restart") ⟨["init"], false⟩ staleSteps).map
        ReexecRecord.passed =
      [.ok ["init", "--state-fd", "7", "--debug", "--restart"],
        .ok ["init", "--state-fd", "7", "--debug", "--restart", "--debug"]] ∧
      (¬ ∀ r ∈ reexecs (fun args => args.contains "--restart") ⟨["init"], false⟩ staleSteps,
        ∃ args, PassesOn ["init"] r args) ∧
      cleanArgs ["init", "--state-fd"] = .error .outside ∧
      ¬ CleansRight ["init", "--state-fd"] := by
  have hrecords : reexecs (fun args => args.contains "--restart") ⟨["init"], false⟩ staleSteps =
      [⟨⟨["init"], false⟩, ⟨.forked 7, .debug, true⟩,
          .ok ["init", "--state-fd", "7", "--debug", "--restart"]⟩,
        ⟨⟨["init", "--state-fd", "7", "--debug", "--restart"], true⟩, ⟨.notForked, .debug, true⟩,
          .ok ["init", "--state-fd", "7", "--debug", "--restart", "--debug"]⟩] := by decide
  rw [hrecords]
  refine ⟨rfl, ?_, by decide, by unfold CleansRight; decide⟩
  intro h
  obtain ⟨args, hpassed, -, hlevel, -⟩ := h _ (List.mem_cons_of_mem _ List.mem_cons_self)
  cases hpassed
  exact absurd hlevel (by decide)

end Startup
