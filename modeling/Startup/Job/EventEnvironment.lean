import Startup.Job.Machine
import Startup.Environ.Table

/-!
# The environment of the events of a job (`init/job.c`)

`job_emit_event_env` puts together variables that are given by the job and those that the job
exports.

* `stopVariables`: the variables that the fields of a job dictate for the events of its stop;
* `EventTruthful`: an environment that says what the job is and how it ended, whatever it exports;
* `jobEmitEvent_iff`: the jobs whose events are truthful.
-/

namespace Startup

/-- The variables that say how a job ended. -/
def stopVariables (x : Host) (job : Job) : List (String × String) :=
  if job.failed = false then [("RESULT", "ok")]
  else
    ("RESULT", "failed") ::
      match job.failedProcess with
      | none => [("PROCESS", "respawn")]
      | some p =>
        ("PROCESS", p.name) ::
          if job.exitStatus = -1 then []
          else if job.exitStatus / 256 ≠ 0 then
            [("EXIT_SIGNAL",
              (x.signalToName (job.exitStatus / 256)).getD (toString (job.exitStatus / 256)))]
          else [("EXIT_STATUS", toString job.exitStatus)]

/-- The names of these variables. -/
def stopNames : List String := ["RESULT", "PROCESS", "EXIT_STATUS", "EXIT_SIGNAL"]

/-- The events that say how a job ended. -/
def JobState.saysResult : JobState → Bool
  | .stopping | .waiting => true
  | _ => false

/-- The keys are different, the job is named as it is, and the events of the stop have the
variables that its fields dictate, and none of these names besides. -/
structure EventTruthful (x : Host) (job : Job) (env : List String) : Prop where
  restorable : Restorable env
  jobName : tableValue env "JOB".toList = some job.cls.name.toList
  instanceName : tableValue env "INSTANCE".toList = some job.name.toList
  stop : job.state.saysResult = true → ∀ name ∈ stopNames,
    tableValue env name.toList = ((stopVariables x job).lookup name).map String.toList

/-- A variable with this key is exported, and has a value in the environment of the job. -/
def Exports (job : Job) (key : List Char) : Prop :=
  ∃ e ∈ job.cls.exports, entryKey e = key ∧ (environLookup (job.env.getD []) e.toList).isSome = true

/-- Nothing is exported under a name of `stopNames` that the fields of the job do not give a
value. -/
def ExportsClear (x : Host) (job : Job) : Prop :=
  ∀ name ∈ stopNames, (stopVariables x job).lookup name = none → ¬ Exports job name.toList

variable {x : Host} {env jobEnv : List String} {key : List Char} {e : String}

/-! ## Exports -/

/-- The loop of `job_emit_event_env`. -/
def addExports (x : Host) (jobEnv exports env : List String) : List String :=
  exports.foldl (fun env e =>
    match environLookup jobEnv e.toList with
    | some i => environAdd x.getenv env false (jobEnv.getD i "")
    | none => env) env

theorem addExports_cons (x : Host) (jobEnv : List String) (e : String) (exports env : List String) :
    addExports x jobEnv (e :: exports) env = addExports x jobEnv exports
      (match environLookup jobEnv e.toList with
      | some i => environAdd x.getenv env false (jobEnv.getD i "")
      | none => env) := rfl

/-- What is found under a name has its key, and a value. -/
theorem environLookup_entry {i : Nat} (h : environLookup jobEnv e.toList = some i) :
    entryKey (jobEnv.getD i "") = entryKey e ∧ hasValue (jobEnv.getD i "") = true := by
  obtain ⟨hlt, hbegins, -⟩ := List.findIdx?_eq_some_iff_getElem.mp h
  rw [List.getD_eq_getElem?_getD, List.getElem?_eq_getElem hlt, Option.getD_some]
  obtain ⟨rest, hrest⟩ := List.isPrefixOf_iff_prefix.mp hbegins
  have htext : jobEnv[i].toList = e.toList ++ '=' :: rest := by simp [← hrest]
  refine ⟨?_, by simp [hasValue, htext]⟩
  rw [entryKey, entryKey, htext, List.takeWhile_append, List.takeWhile_cons_of_neg (by simp),
    List.append_nil]
  split
  · rename_i hlength
    exact ((List.takeWhile_prefix _).eq_of_length hlength).symm
  · rfl

/-- What the exports add: keys that are there keep their values, and others are there if they are
exported. -/
structure Exported (jobEnv exports env env' : List String) : Prop where
  restorable : Restorable env'
  kept : ∀ key v, tableValue env key = some v → tableValue env' key = some v
  added : ∀ key, tableValue env key = none → (tableValue env' key = none ↔
    ¬ ∃ e ∈ exports, entryKey e = key ∧ (environLookup jobEnv e.toList).isSome = true)

theorem addExports_exported (x : Host) (jobEnv exports : List String) (hr : Restorable env) :
    Exported jobEnv exports env (addExports x jobEnv exports env) := by
  induction exports generalizing env with
  | nil => exact ⟨hr, fun _ _ h => h, fun key h => iff_of_true h (by simp)⟩
  | cons e exports ih =>
    rw [addExports_cons]
    cases hfound : environLookup jobEnv e.toList with
    | none =>
      obtain ⟨hr', hkept, hadded⟩ := ih hr
      refine ⟨hr', hkept, ?_⟩
      intro key h
      rw [List.exists_mem_cons_iff, hfound]
      simpa using hadded key h
    | some i =>
      obtain ⟨hkey, hhas⟩ := environLookup_entry hfound
      have hvalue : newValue x.getenv (jobEnv.getD i "") =
          some (entryValue (jobEnv.getD i "")) := if_pos hhas
      have hadd := tableValue_environAdd hr x.getenv false (jobEnv.getD i "")
      obtain ⟨hr', hkept, hadded⟩ := ih (hr.add x.getenv false (jobEnv.getD i ""))
      refine ⟨hr', ?_, ?_⟩
      · intro key v h
        apply hkept
        rw [hadd, h]
        simp
      · intro key h
        rw [List.exists_mem_cons_iff, hfound]
        by_cases hk : entryKey e = key
        · have hnew := hkept key (entryValue (jobEnv.getD i ""))
            (by rw [hadd, h, hkey, hk, hvalue]; simp)
          dsimp only
          rw [hnew]
          exact iff_of_false nofun fun hnot => hnot (.inl ⟨hk, rfl⟩)
        · have hnone := hadded key (by rw [hadd, hkey, if_neg hk, h])
          rw [hnone]
          simp [hk]

/-! ## Variables that are set -/

/-- `environ_set` of variables, one after the other. -/
def setVariables (x : Host) (vars : List (String × String)) (env : List String) : List String :=
  vars.foldl (fun env v => environSet x env v.1 v.2) env

/-- Variables with different names, none of which has an equals sign. -/
structure Settable (vars : List (String × String)) : Prop where
  nodup : (vars.map Prod.fst).Nodup
  plain : ∀ v ∈ vars, '=' ∉ v.1.toList

theorem restorable_setVariables (x : Host) (vars : List (String × String)) (hr : Restorable env) :
    Restorable (setVariables x vars env) := by
  induction vars generalizing env with
  | nil => exact hr
  | cons v vars ih => exact ih (hr.add x.getenv true _)

/-- They have the values that they are set to, and the others those that they had. -/
theorem tableValue_setVariables (x : Host) {vars : List (String × String)} (hset : Settable vars)
    (hr : Restorable env) (name : String) :
    tableValue (setVariables x vars env) name.toList =
      ((vars.lookup name).map String.toList).or (tableValue env name.toList) := by
  induction vars generalizing env with
  | nil => rfl
  | cons v vars ih =>
    obtain ⟨var, value⟩ := v
    obtain ⟨hnodup, hplain⟩ := hset
    rw [List.map_cons, List.nodup_cons] at hnodup
    have hvar : (var ++ "=" ++ value).toList = var.toList ++ '=' :: value.toList := by simp
    have hstep := tableValue_set hr x.getenv var.toList hvar (hplain _ List.mem_cons_self)
      name.toList
    have hrest := ih ⟨hnodup.2, fun v hv => hplain v (List.mem_cons_of_mem _ hv)⟩
      (hr.add x.getenv true (var ++ "=" ++ value))
    have hfold : setVariables x ((var, value) :: vars) env =
        setVariables x vars (environAdd x.getenv env true (var ++ "=" ++ value)) := rfl
    rw [hfold, hrest, hstep, List.lookup_cons]
    by_cases hname : name = var
    · subst hname
      have hnone : vars.lookup name = none := by
        rw [List.lookup_eq_none_iff]
        intro v hv
        rw [bne_iff_ne]
        intro heq
        have hmem := List.mem_map_of_mem (f := Prod.fst) hv
        rw [← heq] at hmem
        exact hnodup.1 hmem
      simp [hnone]
    · have hne : name.toList ≠ var.toList := fun h => hname (String.toList_inj.mp h)
      have hbeq : (name == var) = false := by simpa using hname
      rw [if_neg hne, hbeq]

/-! ## The environment of an event -/

theorem settable_stopVariables (x : Host) (job : Job) : Settable (stopVariables x job) := by
  unfold stopVariables
  split
  · exact ⟨by decide, by decide⟩
  · split
    · exact ⟨by decide, by decide⟩
    · split
      · exact ⟨by simp, by simp⟩
      · split
        · exact ⟨by simp, by simp⟩
        · exact ⟨by simp, by simp⟩

/-- The variables that `job_emit_event_env` sets first. -/
def nameVariables (job : Job) : List (String × String) :=
  [("JOB", job.cls.name), ("INSTANCE", job.name)]

theorem jobEmitEventEnv_eq (x : Host) (job : Job) (stop : Bool) :
    jobEmitEventEnv x job stop = setVariables x (if stop then stopVariables x job else [])
      (addExports x (job.env.getD []) job.cls.exports (setVariables x (nameVariables job) [])) := by
  have hok : "RESULT=ok" = "RESULT" ++ "=" ++ "ok" := rfl
  have hfailed : "RESULT=failed" = "RESULT" ++ "=" ++ "failed" := rfl
  have hrespawn : "PROCESS=respawn" = "PROCESS" ++ "=" ++ "respawn" := rfl
  unfold jobEmitEventEnv stopVariables
  rw [hok, hfailed, hrespawn]
  cases stop with
  | false => rfl
  | true =>
    cases job.failed with
    | false => rfl
    | true =>
      cases job.failedProcess with
      | none => rfl
      | some p =>
        dsimp only
        by_cases hspawn : job.exitStatus = -1
        · simp only [hspawn]
          rfl
        · by_cases hsignal : job.exitStatus / 256 ≠ 0
          · simp only [if_neg hspawn, if_pos hsignal]
            cases x.signalToName (job.exitStatus / 256) with
            | none => rfl
            | some sig => rfl
          · simp only [if_neg hspawn, if_neg hsignal]
            rfl

theorem mem_stopNames {v : String × String} {job : Job} (h : v ∈ stopVariables x job) :
    v.1 ∈ stopNames := by
  have hall : ∀ v ∈ stopVariables x job, v.1 ∈ stopNames := by
    unfold stopVariables
    split
    · simp [stopNames]
    · split
      · simp [stopNames]
      · split
        · simp [stopNames]
        · split
          · simp [stopNames]
          · simp [stopNames]
  exact hall v h

theorem lookup_stopVariables {name : String} (x : Host) (job : Job) (h : name ∉ stopNames) :
    (stopVariables x job).lookup name = none := by
  rw [List.lookup_eq_none_iff]
  intro v hv
  rw [bne_iff_ne]
  intro heq
  exact h (heq ▸ mem_stopNames hv)

theorem restorable_nil : Restorable [] := ⟨rfl, List.nodup_nil⟩

/-- The table after the exports: the names of the job, and what is exported. -/
theorem exported_nameVariables (x : Host) (job : Job) :
    Exported (job.env.getD []) job.cls.exports (setVariables x (nameVariables job) [])
      (addExports x (job.env.getD []) job.cls.exports (setVariables x (nameVariables job) [])) :=
  addExports_exported x _ _ (restorable_setVariables x _ restorable_nil)

theorem tableValue_nameVariables (x : Host) (job : Job) (name : String) :
    tableValue (setVariables x (nameVariables job) []) name.toList =
      ((nameVariables job).lookup name).map String.toList := by
  have hset : Settable (nameVariables job) :=
    ⟨by simp [nameVariables], by simp [nameVariables]⟩
  have hnil : tableValue [] name.toList = none := rfl
  rw [tableValue_setVariables x hset restorable_nil, hnil, Option.or_none]

theorem settable_ite (x : Host) (job : Job) (stop : Bool) :
    Settable (if stop then stopVariables x job else []) := by
  split
  · exact settable_stopVariables x job
  · exact ⟨by simp, by simp⟩

/-- The keys are different, and the job is named as it is, whatever it exports. -/
theorem jobEmitEventEnv_named (x : Host) (job : Job) (stop : Bool) :
    Restorable (jobEmitEventEnv x job stop) ∧
      tableValue (jobEmitEventEnv x job stop) "JOB".toList = some job.cls.name.toList ∧
      tableValue (jobEmitEventEnv x job stop) "INSTANCE".toList = some job.name.toList := by
  obtain ⟨hr, hkept, -⟩ := exported_nameVariables x job
  have hnamed : ∀ name value, (nameVariables job).lookup name = some value → name ∉ stopNames →
      tableValue (jobEmitEventEnv x job stop) name.toList = some value.toList := by
    intro name value hlookup hname
    have hnone : (if stop then stopVariables x job else []).lookup name = none := by
      split
      · exact lookup_stopVariables x job hname
      · rfl
    rw [jobEmitEventEnv_eq, tableValue_setVariables x (settable_ite x job stop) hr, hnone,
      Option.map_none, Option.none_or]
    apply hkept
    rw [tableValue_nameVariables, hlookup]
    rfl
  refine ⟨?_, hnamed "JOB" job.cls.name rfl (by decide),
    hnamed "INSTANCE" job.name rfl (by decide)⟩
  rw [jobEmitEventEnv_eq]
  exact restorable_setVariables x _ hr

/-- A variable of the stop is as the fields of the job dictate it, unless they leave it out and it
is exported. -/
theorem jobEmitEventEnv_stop (x : Host) (job : Job) {name : String} (hname : name ∈ stopNames) :
    tableValue (jobEmitEventEnv x job true) name.toList =
        ((stopVariables x job).lookup name).map String.toList ↔
      ((stopVariables x job).lookup name = none → ¬ Exports job name.toList) := by
  obtain ⟨hr, -, hadded⟩ := exported_nameVariables x job
  have hnot : (nameVariables job).lookup name = none := by
    simp only [stopNames, List.mem_cons, List.not_mem_nil, or_false] at hname
    rcases hname with rfl | rfl | rfl | rfl
    · rfl
    · rfl
    · rfl
    · rfl
  have hfree := hadded name.toList (by rw [tableValue_nameVariables, hnot]; rfl)
  rw [jobEmitEventEnv_eq, tableValue_setVariables x (settable_ite x job true) hr, if_pos rfl]
  cases hlookup : (stopVariables x job).lookup name with
  | some value => simp
  | none =>
    rw [Option.map_none, Option.none_or, hfree]
    simp [Exports]

/-- The environment of an event is truthful exactly where no name that the fields of the job leave
out is exported. -/
theorem eventTruthful_iff (x : Host) (job : Job) :
    EventTruthful x job (jobEmitEventEnv x job job.state.saysResult) ↔
      (job.state.saysResult = true → ExportsClear x job) := by
  constructor
  · intro h hgiven name hname
    have hstop := h.stop hgiven name hname
    rw [hgiven] at hstop
    exact (jobEmitEventEnv_stop x job hname).mp hstop
  · intro h
    obtain ⟨hr, hjob, hinst⟩ := jobEmitEventEnv_named x job job.state.saysResult
    refine ⟨hr, hjob, hinst, ?_⟩
    intro hgiven name hname
    rw [hgiven]
    exact (jobEmitEventEnv_stop x job hname).mpr (h hgiven name hname)

/-- The event that is emitted has this environment. -/
theorem jobEmitEvent_env {x : Host} {sys sys' : Sys} {job : Job} {e : EventId}
    (h : jobEmitEvent x sys job = .ok (sys', e)) :
    ∃ ev : Event, sys'.events = sys.events ++ [ev] ∧ ev.id = e ∧
      ev.env = jobEmitEventEnv x job job.state.saysResult := by
  unfold jobEmitEvent at h
  cases hs : job.state <;> simp only [hs, reduceCtorEq] at h
  all_goals
    cases h
    exact ⟨_, rfl, rfl, rfl⟩

/-- Every event that `job_emit_event` emits has different keys, and names its job as it is; and it
is truthful exactly where no name that the fields of the job leave out is exported. -/
theorem jobEmitEvent_iff {x : Host} {sys sys' : Sys} {job : Job} {e : EventId}
    (h : jobEmitEvent x sys job = .ok (sys', e)) :
    ∃ ev : Event, sys'.events = sys.events ++ [ev] ∧ ev.id = e ∧
      Restorable ev.env ∧ tableValue ev.env "JOB".toList = some job.cls.name.toList ∧
      tableValue ev.env "INSTANCE".toList = some job.name.toList ∧
      (EventTruthful x job ev.env ↔ (job.state.saysResult = true → ExportsClear x job)) := by
  obtain ⟨ev, hevents, hid, henv⟩ := jobEmitEvent_env h
  obtain ⟨hr, hjob, hinst⟩ := jobEmitEventEnv_named x job job.state.saysResult
  refine ⟨ev, hevents, hid, ?_⟩
  rw [henv]
  exact ⟨hr, hjob, hinst, eventTruthful_iff x job⟩

/-- A job whose main process was killed, and that exports a variable of its environment. -/
def exportingJob (name value : String) : Job :=
  { jobNew 1 1 { plainClass [.main] with exports := [name] } "" none with
    env := some [name ++ "=" ++ value]
    failed := true
    failedProcess := some .main
    exitStatus := 9 * 256 }

/-- The event of the stop of a job that exports `CITY`. -/
theorem jobEmitEvent_iff_city :
    ∃ ev : Event, [ev].map Event.env =
        [["JOB=plain", "INSTANCE=", "CITY=Oslo", "RESULT=failed", "PROCESS=main",
          "EXIT_SIGNAL=9"]] ∧
      (EventTruthful plainHost (exportingJob "CITY" "Oslo") ev.env ↔
        (true = true → ExportsClear plainHost (exportingJob "CITY" "Oslo"))) := by
  have hemit : jobEmitEvent plainHost ⟨[], 0, 0, []⟩ (exportingJob "CITY" "Oslo") =
      .ok (eventNew ⟨[], 0, 0, []⟩ "stopped" ["JOB=plain", "INSTANCE=", "CITY=Oslo",
        "RESULT=failed", "PROCESS=main", "EXIT_SIGNAL=9"] (by decide) (-1) []) := by rfl
  obtain ⟨ev, hevents, -, -, -, -, htruthful⟩ := jobEmitEvent_iff hemit
  cases hevents
  exact ⟨_, rfl, htruthful⟩

/-- The event says that the main process was killed, and that it exited. -/
theorem exportedStatus_reported :
    jobEmitEventEnv plainHost (exportingJob "EXIT_STATUS" "0") true =
        ["JOB=plain", "INSTANCE=", "EXIT_STATUS=0", "RESULT=failed", "PROCESS=main",
          "EXIT_SIGNAL=9"] ∧
      ¬ EventTruthful plainHost (exportingJob "EXIT_STATUS" "0")
        (jobEmitEventEnv plainHost (exportingJob "EXIT_STATUS" "0") true) := by
  have henv : jobEmitEventEnv plainHost (exportingJob "EXIT_STATUS" "0") true =
      ["JOB=plain", "INSTANCE=", "EXIT_STATUS=0", "RESULT=failed", "PROCESS=main",
        "EXIT_SIGNAL=9"] := by decide
  refine ⟨henv, ?_⟩
  rw [henv]
  intro h
  exact absurd (h.stop rfl "EXIT_STATUS" (by decide)) (by decide)

end Startup
