import Startup.State.Events

/-!
# Jobs in the state (`init/job.c`, `init/job_process.c`, `init/process.c`)

`jobSerialise` and `jobDeserialise`.  The kill timer runs for `killTimeout` of the
class, which is what `job_process_kill` arms it with.  A pipe of the set-up data is
named by the child at its other end, as in `JobProcessData`.  The D-Bus paths and the
output of the processes are no fields of the model's: `StateTexts` has what is written of
them, and of what is read it is looked at whether it is there.

* `JobHead`, `ConditionField`, `JobTail`: the fields of a job, in the order in which they
  are read;
* `jobDeserialise`: the job, with the fields of all three.

`parse_on_simple`, which reads conditions in the form of older versions, is a
parameter.
-/

namespace Startup

open Lib

/-! ## Enumerations -/

/-- `job_goal_enum_to_str`. -/
def jobGoalEnumToStr : JobGoal → String
  | .stop => "JOB_STOP"
  | .start => "JOB_START"
  | .respawn => "JOB_RESPAWN"

/-- `job_goal_str_to_enum`. -/
def jobGoalStrToEnum (goal : String) : Option JobGoal :=
  if goal = "JOB_STOP" then some .stop
  else if goal = "JOB_START" then some .start
  else if goal = "JOB_RESPAWN" then some .respawn
  else none

theorem jobGoal_restored (g : JobGoal) : jobGoalStrToEnum (jobGoalEnumToStr g) = some g := by
  cases g <;> decide

/-- `job_state_enum_to_str`. -/
def jobStateEnumToStr : JobState → String
  | .waiting => "JOB_WAITING"
  | .starting => "JOB_STARTING"
  | .securitySpawning => "JOB_SECURITY_SPAWNING"
  | .security => "JOB_SECURITY"
  | .preStarting => "JOB_PRE_STARTING"
  | .preStart => "JOB_PRE_START"
  | .spawning => "JOB_SPAWNING"
  | .spawned => "JOB_SPAWNED"
  | .postStarting => "JOB_POST_STARTING"
  | .postStart => "JOB_POST_START"
  | .running => "JOB_RUNNING"
  | .preStopping => "JOB_PRE_STOPPING"
  | .preStop => "JOB_PRE_STOP"
  | .stopping => "JOB_STOPPING"
  | .killed => "JOB_KILLED"
  | .postStopping => "JOB_POST_STOPPING"
  | .postStop => "JOB_POST_STOP"

/-- `job_state_str_to_enum`. -/
def jobStateStrToEnum (state : String) : Option JobState :=
  if state = "JOB_WAITING" then some .waiting
  else if state = "JOB_STARTING" then some .starting
  else if state = "JOB_SECURITY_SPAWNING" then some .securitySpawning
  else if state = "JOB_SECURITY" then some .security
  else if state = "JOB_PRE_STARTING" then some .preStarting
  else if state = "JOB_PRE_START" then some .preStart
  else if state = "JOB_SPAWNING" then some .spawning
  else if state = "JOB_SPAWNED" then some .spawned
  else if state = "JOB_POST_STARTING" then some .postStarting
  else if state = "JOB_POST_START" then some .postStart
  else if state = "JOB_RUNNING" then some .running
  else if state = "JOB_PRE_STOPPING" then some .preStopping
  else if state = "JOB_PRE_STOP" then some .preStop
  else if state = "JOB_STOPPING" then some .stopping
  else if state = "JOB_KILLED" then some .killed
  else if state = "JOB_POST_STOPPING" then some .postStopping
  else if state = "JOB_POST_STOP" then some .postStop
  else none

theorem jobState_restored (s : JobState) : jobStateStrToEnum (jobStateEnumToStr s) = some s := by
  cases s <;> decide

/-- `job_trace_state_enum_to_str`. -/
def jobTraceStateEnumToStr : TraceState → String
  | .none => "TRACE_NONE"
  | .new => "TRACE_NEW"
  | .newChild => "TRACE_NEW_CHILD"
  | .normal => "TRACE_NORMAL"

/-- `job_trace_state_str_to_enum`. -/
def jobTraceStateStrToEnum (state : String) : Option TraceState :=
  if state = "TRACE_NONE" then some .none
  else if state = "TRACE_NEW" then some .new
  else if state = "TRACE_NEW_CHILD" then some .newChild
  else if state = "TRACE_NORMAL" then some .normal
  else none

theorem jobTraceState_restored (s : TraceState) :
    jobTraceStateStrToEnum (jobTraceStateEnumToStr s) = some s := by
  cases s <;> decide

/-- `process_type_enum_to_str`; `none` is `PROCESS_INVALID`. -/
def processTypeEnumToStr : Option ProcessType → String
  | none => "PROCESS_INVALID"
  | some .main => "PROCESS_MAIN"
  | some .preStart => "PROCESS_PRE_START"
  | some .postStart => "PROCESS_POST_START"
  | some .preStop => "PROCESS_PRE_STOP"
  | some .postStop => "PROCESS_POST_STOP"
  | some .security => "PROCESS_SECURITY"

/-- `process_type_str_to_enum`. -/
def processTypeStrToEnum (type : String) : Option (Option ProcessType) :=
  if type = "PROCESS_INVALID" then some none
  else if type = "PROCESS_MAIN" then some (some .main)
  else if type = "PROCESS_PRE_START" then some (some .preStart)
  else if type = "PROCESS_POST_START" then some (some .postStart)
  else if type = "PROCESS_PRE_STOP" then some (some .preStop)
  else if type = "PROCESS_POST_STOP" then some (some .postStop)
  else if type = "PROCESS_SECURITY" then some (some .security)
  else none

theorem processType_restored (p : Option ProcessType) :
    processTypeStrToEnum (processTypeEnumToStr p) = some p := by
  rcases p with _ | p
  · decide
  · cases p <;> decide

/-- The processes in the order of the enumeration. -/
def ProcessType.all : List ProcessType :=
  [.main, .preStart, .postStart, .preStop, .postStop, .security]

/-- The place of a process in the arrays that have one element for each. -/
def ProcessType.index : ProcessType → Nat
  | .main => 0
  | .preStart => 1
  | .postStart => 2
  | .preStop => 3
  | .postStop => 4
  | .security => 5

theorem ProcessType.getElem?_index {α : Type} (f : ProcessType → α) (p : ProcessType) :
    (ProcessType.all.map f)[p.index]? = some (f p) := by
  cases p <;> rfl

/-! ## Writing a job -/

/-- What is written of objects that the model does not have. -/
structure StateTexts where
  /-- `nih_dbus_path` of libnih: the path of a class or a job, made of its names -/
  dbusPath : List String → String
  /-- the fields that `log_serialise` writes for the output of a process -/
  log : JobId → ProcessType → List (String × Json)

/-- `nih_dbus_path` of names that need no escapes. -/
def jobPath (names : List String) : String :=
  names.foldl (fun path name => path ++ "/" ++ if name = "" then "_" else name)
    "/com/ubuntu/Upstart/jobs"

/-- `job_serialise_kill_timer`. -/
def jobSerialiseKillTimer (job : Job) (due : Int) : Json :=
  .record [("timeout", some (.int job.cls.killTimeout)), ("due", some (.int due))]

/-- `job_process_data_serialise`. -/
def jobProcessDataSerialise (data : JobProcessData) : Json :=
  .record [
    ("process", some (.string (processTypeEnumToStr (some data.process)))),
    ("script", some (stateSetJsonStringVar data.script)),
    ("job_process_fd", some (.int data.pid)),
    ("status", some (.int data.status)),
    ("valid", some (jsonBool data.valid))]

/-- The latest set-up data of a process, while they are valid. -/
def Job.pendingData (job : Job) (p : ProcessType) : Option JobProcessData :=
  ((job.processData p).bind job.data?).filter JobProcessData.valid

/-- An element of the array `process_data`. -/
def jobSerialiseData (job : Job) (p : ProcessType) : Json :=
  match job.pendingData p with
  | some data => jobProcessDataSerialise data
  | none => .null

/-- The fields of `job_serialise`, with those that refer to other objects. -/
def jobFields (t : StateTexts) (job : Job) (stopOn : Option Json) (blocker : Option Nat)
    (blocking : List Json) : List (String × Option Json) := [
  ("name", some (.string job.name)),
  ("path", some (.string (t.dbusPath [job.cls.name, job.name]))),
  ("goal", some (.string (jobGoalEnumToStr job.goal))),
  ("state", some (.string (jobStateEnumToStr job.state))),
  ("env", some (stateSerialiseStrArray (job.env.getD []))),
  ("start_env", some (stateSerialiseStrArray (job.startEnv.getD []))),
  ("stop_env", some (stateSerialiseStrArray (job.stopEnv.getD []))),
  ("stop_on", stopOn),
  ("fds", some (stateSerialiseIntArray job.fds)),
  ("pid", some (stateSerialiseIntArray (ProcessType.all.map fun p => (job.pid p : Int)))),
  ("blocker", blocker.map fun i : Nat => .int i),
  ("blocking", if job.blocking.isEmpty then none else some (.array blocking)),
  ("kill_timer", job.killTimer.map (jobSerialiseKillTimer job)),
  ("kill_process", some (.string (processTypeEnumToStr job.killProcess))),
  ("failed", some (jsonBool job.failed)),
  ("failed_process", some (.string (processTypeEnumToStr job.failedProcess))),
  ("exit_status", some (.int job.exitStatus)),
  ("respawn_time", some (.int job.respawnTime)),
  ("respawn_count", some (.int job.respawnCount)),
  ("trace_forks", some (.int job.traceForks)),
  ("trace_state", some (.string (jobTraceStateEnumToStr job.traceState))),
  ("log", some (.array (ProcessType.all.map fun p => .object (t.log job.id p)))),
  ("process_data", some (.array (ProcessType.all.map (jobSerialiseData job))))]

/-- `job_serialise`.  `blocking` is what `state_serialise_blocking` makes of the list
of blocked entries. -/
def jobSerialise (t : StateTexts) (sys : Sys) (job : Job) (blocking : List Json) :
    Option Json := do
  let stopOn ← job.stopOn.mapM (eventOperatorSerialiseAll sys)
  let blocker ← job.blocker.mapM (eventToIndex sys)
  some (.record (jobFields t job stopOn blocker blocking))

/-! ## Reading a job -/

/-- `job_deserialise_kill_timer`: when it is due, and its timeout. -/
def jobDeserialiseKillTimer (json : Json) : Restored (Int × Int) := do
  restoreAssert .jobDeserialiseKillTimer (!json.isNull)
  let due ← stateGetJsonIntVar json "due"
  let timeout ← stateGetJsonIntVar json "timeout"
  .ok (due, timeout)

/-- The kill timer of a job that has none: `job_process_set_kill_timer` and
`job_process_adj_kill_timer`.  The numbers of the processes begin with that of the
main process, which is zero. -/
def jobRestoreKillTimer (json : Json) (killProcess : Option ProcessType) : Restored (Option Int) :=
  match json.get? "kill_timer" with
  | none => .ok none
  | some timer => do
    let (due, timeout) ← jobDeserialiseKillTimer timer
    restoreAssert .jobDeserialise (killProcess != some .main)
    restoreAssert .jobProcessSetKillTimer (timeout != 0)
    restoreAssert .jobProcessAdjKillTimer (due != 0)
    .ok (some due)

/-- `job_process_data_deserialise`. -/
def jobProcessDataDeserialise (json : Json) : Restored JobProcessData := do
  restoreIf json.isObject
  let process ← stateGetJsonEnumVar processTypeStrToEnum json "process"
  let fd ← stateGetJsonIntVar json "job_process_fd"
  let script ← stateGetJsonStringVar json "script"
  let status ← stateGetJsonIntVar json "status"
  let valid ← stateGetJsonBoolVar json "valid"
  match process with
  | none => notRestored
  | some process => .ok ⟨fd.toNat, process, script, status, valid⟩

/-- An element of the array `process_data`. -/
def jobRestoreData : Json → Restored (Option JobProcessData)
  | .null => .ok none
  | json => do
    let data ← jobProcessDataDeserialise json
    .ok (some data)

/-- The set-up data of all processes, which may be missing. -/
def jobRestoreAllData (json : Json) : Restored (List (Option JobProcessData)) :=
  match json.get? "process_data" with
  | none => .ok []
  | some _ => do
    let items ← getArray json "process_data"
    (items.take ProcessType.all.length).mapM jobRestoreData

/-- The process ids: the one of the last process is missing in the state of
older versions. -/
def jobRestorePids (json : Json) : Restored (List Int) := do
  let items ← getArray json "pid"
  let pids ← stateDeserialiseIntArray items
  if pids.length + 1 = ProcessType.all.length then .ok (pids ++ [0])
  else do
    restoreIf (pids.length == ProcessType.all.length)
    .ok pids

/-- What a field for a condition has. -/
inductive ConditionField where
  | absent
  | array (root : EventOperator)
  /-- the text of older versions, which is not empty -/
  | text (root : EventOperator)

/-- The condition of a job or of a class. -/
def readConditionField (parseOnSimple : String → Option EventOperator) (n : Nat) (json : Json)
    (name : String) : Restored ConditionField :=
  match json.get? name with
  | none => .ok .absent
  | some (.array items) => do
    let root ← eventOperatorDeserialiseAll n items
    .ok (.array root)
  | some _ => do
    let text ← stateGetJsonStringVarStrict json name
    if text = "" then .ok .absent
    else
      match parseOnSimple text with
      | some root => .ok (.text root)
      | none => notRestored

/-- The condition of a class, which has had none. -/
def ConditionField.root : ConditionField → Option EventOperator
  | absent => none
  | array root => some root
  | text root => some root

/-- The condition of a job in place of the copy of the class's.  For a text this copy is freed,
and asserted to be there. -/
def ConditionField.instead (on : ConditionField) (old : Option EventOperator) :
    Restored (Option EventOperator) :=
  match on with
  | absent => .ok old
  | array root => .ok (some root)
  | text root => do
    restoreAssert .jobDeserialise old.isSome
    .ok (some root)

/-- The fields of a job before its condition. -/
structure JobHead where
  goal : JobGoal
  state : JobState
  env : Option (List String)
  startEnv : Option (List String)
  stopEnv : Option (List String)

def readJobHead (x : Host) (json : Json) : Restored JobHead := do
  let _ ← stateGetJsonStringVarStrict json "path"
  let goal ← stateGetJsonEnumVar jobGoalStrToEnum json "goal"
  let state ← stateGetJsonEnumVar jobStateStrToEnum json "state"
  let env ← stateGetJsonEnvArray x json "env"
  let startEnv ← stateGetJsonEnvArray x json "start_env"
  let stopEnv ← stateGetJsonEnvArray x json "stop_env"
  .ok ⟨goal, state, env, startEnv, stopEnv⟩

def JobHead.fill (head : JobHead) (job : Job) : Job :=
  { job with
    goal := head.goal
    state := head.state
    env := head.env
    startEnv := head.startEnv
    stopEnv := head.stopEnv }

/-- The loop over `log`: an element may be missing for the last process only.  A log that cannot
be read is not there. -/
def readLogs (json : Json) : Restored Unit := do
  let items ← getArray json "log"
  restoreIf ((List.range (ProcessType.all.length - 1)).all fun i =>
    items[i]?.any fun item => !item.isNull)

/-- The fields of a job behind its condition. -/
structure JobTail where
  blocker : Option EventId
  killProcess : Option ProcessType
  killTimer : Option Int
  failed : Bool
  failedProcess : Option ProcessType
  exitStatus : Int
  respawnTime : Int
  respawnCount : Int
  fds : List Int
  pids : List Int
  traceForks : Int
  traceState : TraceState
  datas : List (Option JobProcessData)

/-- For a queue of `n` events: the blocker is a position in it. -/
def readJobTail (n : Nat) (json : Json) : Restored JobTail := do
  let blocker ← getOptionalEvent n json "blocker"
  let killProcess ← stateGetJsonEnumVar processTypeStrToEnum json "kill_process"
  let killTimer ← jobRestoreKillTimer json killProcess
  let failed ← stateGetJsonBoolVar json "failed"
  let failedProcess ← stateGetJsonEnumVar processTypeStrToEnum json "failed_process"
  let exitStatus ← stateGetJsonIntVar json "exit_status"
  let respawnTime ← stateGetJsonIntVar json "respawn_time"
  let respawnCount ← stateGetJsonIntVar json "respawn_count"
  let fds ← getArray json "fds"
  let fds ← stateDeserialiseIntArray fds
  let pids ← jobRestorePids json
  let traceForks ← stateGetJsonIntVar json "trace_forks"
  let traceState ← stateGetJsonEnumVar jobTraceStateStrToEnum json "trace_state"
  readLogs json
  let datas ← jobRestoreAllData json
  .ok ⟨blocker, killProcess, killTimer, failed, failedProcess, exitStatus, respawnTime,
    respawnCount, fds, pids, traceForks, traceState, datas⟩

def JobTail.fill (tail : JobTail) (job : Job) : Job :=
  { job with
    blocker := tail.blocker
    killProcess := tail.killProcess
    killTimer := tail.killTimer
    failed := tail.failed
    failedProcess := tail.failedProcess
    exitStatus := tail.exitStatus
    respawnTime := tail.respawnTime
    respawnCount := tail.respawnCount
    fds := tail.fds
    pid := fun p => (tail.pids.getD p.index 0).toNat
    traceForks := tail.traceForks.toNat
    traceState := tail.traceState
    processData := fun p => ((tail.datas[p.index]?).join).map JobProcessData.pid
    datas := tail.datas.filterMap fun data => data }

/-- `job_deserialise`, for a queue of `n` events; `jobNew` is `job_new` for the
class.  What the job blocks follows when all objects are there. -/
def jobDeserialise (x : Host) (parseOnSimple : String → Option EventOperator) (n : Nat)
    (jobNew : String → Job) (json : Json) : Restored Job := do
  restoreIf json.isObject
  let name ← readOrFree .jobDeserialise (stateGetJsonStringVarStrict json "name")
  let head ← readJobHead x json
  let on ← readConditionField parseOnSimple n json "stop_on"
  let stopOn ← on.instead (jobNew name).stopOn
  let tail ← readJobTail n json
  .ok (tail.fill { head.fill (jobNew name) with stopOn })

/-! ## What is read back -/

/-- The tables of a job that has been restored. -/
def revivedEnv (x : Host) (env : Option (List String)) : Option (List String) :=
  if (env.getD []).isEmpty then none else some (environAppend x.getenv [] true (env.getD []))

/-- The kill timer of a job that is restored, or the assertion that fails. -/
def Job.restoreTimer (job : Job) : Restored (Option Int) :=
  match job.killTimer with
  | none => .ok none
  | some due => do
    restoreAssert .jobDeserialise (job.killProcess != some .main)
    restoreAssert .jobProcessSetKillTimer (job.cls.killTimeout != 0)
    restoreAssert .jobProcessAdjKillTimer (due != 0)
    .ok (some due)

/-- The assertions about the kill timer hold: those of `job_deserialise`, which take
the number of the process for a pointer, and those of the functions that set it. -/
def Job.Resumable (job : Job) : Prop :=
  ∀ due, job.killTimer = some due →
    job.killProcess ≠ some .main ∧ job.cls.killTimeout ≠ 0 ∧ due ≠ 0

/-- The job that is read back; `new` is the new instance of its class, and the events
are at the positions `f`. -/
def Job.revived (job : Job) (x : Host) (f : EventId → EventId) (new : Job) : Job :=
  { new with
    goal := job.goal
    state := job.state
    env := revivedEnv x job.env
    startEnv := revivedEnv x job.startEnv
    stopEnv := revivedEnv x job.stopEnv
    stopOn := (job.stopOn.map (EventOperator.mapRefs f)).or new.stopOn
    fds := job.fds
    pid := job.pid
    blocker := job.blocker.map f
    killTimer := job.killTimer
    killProcess := job.killProcess
    failed := job.failed
    failedProcess := job.failedProcess
    exitStatus := job.exitStatus
    respawnTime := job.respawnTime
    respawnCount := job.respawnCount
    traceForks := job.traceForks
    traceState := job.traceState
    processData := fun p => (job.pendingData p).map JobProcessData.pid
    datas := (ProcessType.all.map job.pendingData).filterMap fun data => data }

/-- The fields of a job that are read back in front of its condition. -/
def Job.head (job : Job) (x : Host) : JobHead where
  goal := job.goal
  state := job.state
  env := revivedEnv x job.env
  startEnv := revivedEnv x job.startEnv
  stopEnv := revivedEnv x job.stopEnv

/-- Those that are read back behind it, with the kill timer that has been set. -/
def Job.tail (job : Job) (f : EventId → EventId) (timer : Option Int) : JobTail where
  blocker := job.blocker.map f
  killProcess := job.killProcess
  killTimer := timer
  failed := job.failed
  failedProcess := job.failedProcess
  exitStatus := job.exitStatus
  respawnTime := job.respawnTime
  respawnCount := job.respawnCount
  fds := job.fds
  pids := ProcessType.all.map fun p => (job.pid p : Int)
  traceForks := job.traceForks
  traceState := job.traceState
  datas := ProcessType.all.map job.pendingData

section Restored

variable {x : Host} {parseOnSimple : String → Option EventOperator} {sys : Sys} {job : Job}

theorem jobProcessData_restored (data : JobProcessData) :
    jobProcessDataDeserialise (jobProcessDataSerialise data) = .ok data := by
  generalize hjson : jobProcessDataSerialise data = json
  have hget := fun key => Json.get?_record key [
    ("process", some (.string (processTypeEnumToStr (some data.process)))),
    ("script", some (stateSetJsonStringVar data.script)),
    ("job_process_fd", some (.int data.pid)),
    ("status", some (.int data.status)),
    ("valid", some (jsonBool data.valid))] (by simp)
  rw [← jobProcessDataSerialise, hjson] at hget
  have hprocess : stateGetJsonEnumVar processTypeStrToEnum json "process" =
      .ok (some data.process) :=
    enumVar_ok (by rw [hget]; rfl) (processType_restored (some data.process))
  have hfd : stateGetJsonIntVar json "job_process_fd" = .ok (data.pid : Int) :=
    intVar_ok (by rw [hget]; rfl)
  have hscript : stateGetJsonStringVar json "script" = .ok data.script :=
    stringVar_ok (by rw [hget]; rfl)
  have hstatus : stateGetJsonIntVar json "status" = .ok data.status := intVar_ok (by rw [hget]; rfl)
  have hvalid : stateGetJsonBoolVar json "valid" = .ok data.valid := boolVar_ok (by rw [hget]; rfl)
  have hobject : json.isObject = true := hjson ▸ rfl
  rw [jobProcessDataDeserialise]
  simp only [hobject, hprocess, hfd, hscript, hstatus, hvalid, check_true, bind, Except.bind,
    Int.toNat_natCast]

theorem jobData_restored (job : Job) (p : ProcessType) :
    jobRestoreData (jobSerialiseData job p) = .ok (job.pendingData p) := by
  rw [jobSerialiseData]
  cases job.pendingData p with
  | none => rfl
  | some data =>
    have h := jobProcessData_restored data
    simp only [jobProcessDataSerialise, Json.record] at h ⊢
    rw [jobRestoreData, h]
    · rfl
    · simp

theorem killTimer_restored {json : Json}
    (h : json.get? "kill_timer" = job.killTimer.map (jobSerialiseKillTimer job)) :
    jobRestoreKillTimer json job.killProcess = job.restoreTimer := by
  rw [jobRestoreKillTimer, Job.restoreTimer]
  cases hdue : job.killTimer with
  | none => simp only [h, hdue, Option.map_none]
  | some due =>
    generalize hjson : jobSerialiseKillTimer job due = timer
    have hget := fun key => Json.get?_record key [
      ("timeout", some (.int job.cls.killTimeout)), ("due", some (.int due))] (by simp)
    rw [← jobSerialiseKillTimer, hjson] at hget
    have hread : jobDeserialiseKillTimer timer = .ok (due, job.cls.killTimeout) := by
      have hnull : timer.isNull = false := hjson ▸ rfl
      have htime : stateGetJsonIntVar timer "due" = .ok due := intVar_ok (by rw [hget]; rfl)
      have htimeout : stateGetJsonIntVar timer "timeout" = .ok job.cls.killTimeout :=
        intVar_ok (by rw [hget]; rfl)
      rw [jobDeserialiseKillTimer]
      simp only [hnull, htime, htimeout, Bool.not_false, check_true, bind, Except.bind]
    simp only [h, hdue, Option.map_some, hjson, hread, bind, Except.bind]

theorem restoreTimer_eq_ok {timer : Option Int} :
    job.restoreTimer = .ok timer ↔ timer = job.killTimer ∧ job.Resumable := by
  rw [Job.restoreTimer, Job.Resumable]
  cases hdue : job.killTimer with
  | none => simp [eq_comm]
  | some due =>
    have hok : (Except.ok (some due) : Restored (Option Int)) = .ok timer ↔ timer = some due := by
      rw [Except.ok.injEq, eq_comm]
    simp only [check_bind_eq_ok, bne_iff_ne, hok, Option.some.injEq, forall_eq']
    tauto

/-- A condition that has been written is an array, if there is one. -/
theorem conditionField_restored (parseOnSimple : String → Option EventOperator) {json : Json}
    {name : String} {root : Option EventOperator} {items : Option Json} {n : Nat}
    (hn : sys.events.length = n)
    (hq : ∀ r, root = some r → ∀ e ∈ r.refs, (sys.event? e).isSome = true)
    (hitems : root.mapM (eventOperatorSerialiseAll sys) = some items)
    (h : json.get? name = items) :
    readConditionField parseOnSimple n json name =
      .ok (root.elim .absent fun r => .array (r.mapRefs sys.indexOf)) := by
  cases root with
  | none =>
    cases hitems
    simp only [readConditionField, h]
    rfl
  | some r =>
    obtain ⟨nodes, hnodes, hread⟩ := eventOperatorAll_restored (hq r rfl) hn
    have heq : items = some (.array nodes) := by
      simpa [hnodes] using hitems.symm
    subst heq
    simp only [readConditionField, h, hread, bind, Except.bind]
    rfl

/-- The elements of `log` are all there. -/
theorem logs_restored {json : Json} {logs : ProcessType → List (String × Json)}
    (h : json.get? "log" = some (.array (ProcessType.all.map fun p => .object (logs p)))) :
    readLogs json = .ok () := by
  rw [readLogs, getArray_ok h]
  rfl

section Written

variable {t : StateTexts} {json : Json} {items : Option Json} {blocking : List Json}

theorem readJobHead_written (hget : ∀ key, json.get? key =
    ((jobFields t job items (job.blocker.map sys.indexOf) blocking).lookup key).join) :
    readJobHead x json = .ok (job.head x) := by
  have hpath : stateGetJsonStringVarStrict json "path" =
      .ok (t.dbusPath [job.cls.name, job.name]) :=
    stringVarStrict_ok (by rw [hget]; rfl)
  have hgoal : stateGetJsonEnumVar jobGoalStrToEnum json "goal" = .ok job.goal :=
    enumVar_ok (by rw [hget]; rfl) (jobGoal_restored job.goal)
  have hstate : stateGetJsonEnumVar jobStateStrToEnum json "state" = .ok job.state :=
    enumVar_ok (by rw [hget]; rfl) (jobState_restored job.state)
  have henv : stateGetJsonEnvArray x json "env" = .ok (revivedEnv x job.env) :=
    envVar_ok x _ _ _ (by rw [hget]; rfl)
  have hstartEnv : stateGetJsonEnvArray x json "start_env" = .ok (revivedEnv x job.startEnv) :=
    envVar_ok x _ _ _ (by rw [hget]; rfl)
  have hstopEnv : stateGetJsonEnvArray x json "stop_env" = .ok (revivedEnv x job.stopEnv) :=
    envVar_ok x _ _ _ (by rw [hget]; rfl)
  simp only [readJobHead, hpath, hgoal, hstate, henv, hstartEnv, hstopEnv, bind, Except.bind]
  rfl

theorem readJobTail_written
    (hblocker : ∀ e, job.blocker = some e → (sys.event? e).isSome = true)
    (hget : ∀ key, json.get? key =
    ((jobFields t job items (job.blocker.map sys.indexOf) blocking).lookup key).join) :
    readJobTail sys.events.length json =
      job.restoreTimer >>= fun timer => .ok (job.tail sys.indexOf timer) := by
  have hblocker' : getOptionalEvent sys.events.length json "blocker" =
      .ok (job.blocker.map sys.indexOf) := by
    refine optionalEvent_ok (by rw [hget]; rfl) fun i hi => ?_
    obtain ⟨e, he, rfl⟩ := Option.map_eq_some_iff.mp hi
    exact (eventToIndex_of_queued (hblocker e he)).2
  have hkill : stateGetJsonEnumVar processTypeStrToEnum json "kill_process" =
      .ok job.killProcess :=
    enumVar_ok (by rw [hget]; rfl) (processType_restored job.killProcess)
  have htimer : jobRestoreKillTimer json job.killProcess = job.restoreTimer :=
    killTimer_restored (by rw [hget]; rfl)
  have hfailed : stateGetJsonBoolVar json "failed" = .ok job.failed := boolVar_ok (by rw [hget]; rfl)
  have hfailedProcess : stateGetJsonEnumVar processTypeStrToEnum json "failed_process" =
      .ok job.failedProcess :=
    enumVar_ok (by rw [hget]; rfl) (processType_restored job.failedProcess)
  have hexit : stateGetJsonIntVar json "exit_status" = .ok job.exitStatus :=
    intVar_ok (by rw [hget]; rfl)
  have htime : stateGetJsonIntVar json "respawn_time" = .ok job.respawnTime :=
    intVar_ok (by rw [hget]; rfl)
  have hcount : stateGetJsonIntVar json "respawn_count" = .ok job.respawnCount :=
    intVar_ok (by rw [hget]; rfl)
  have hfds : getArray json "fds" = .ok (job.fds.map .int) := getArray_ok (by rw [hget]; rfl)
  have hpids : jobRestorePids json = .ok (ProcessType.all.map fun p => (job.pid p : Int)) := by
    have harray : getArray json "pid" =
        .ok ((ProcessType.all.map fun p => (job.pid p : Int)).map .int) :=
      getArray_ok (by rw [hget]; rfl)
    rw [jobRestorePids, harray]
    rfl
  have hforks : stateGetJsonIntVar json "trace_forks" = .ok (job.traceForks : Int) :=
    intVar_ok (by rw [hget]; rfl)
  have htrace : stateGetJsonEnumVar jobTraceStateStrToEnum json "trace_state" =
      .ok job.traceState :=
    enumVar_ok (by rw [hget]; rfl) (jobTraceState_restored job.traceState)
  have hlogs : readLogs json = .ok () := logs_restored (by rw [hget]; rfl)
  have hdatas : jobRestoreAllData json = .ok (ProcessType.all.map job.pendingData) := by
    have hfield : json.get? "process_data" =
        some (.array (ProcessType.all.map (jobSerialiseData job))) := by rw [hget]; rfl
    rw [jobRestoreAllData]
    simp only [hfield]
    rw [getArray_ok hfield]
    have hread : (ProcessType.all.map (jobSerialiseData job)).mapM jobRestoreData =
        .ok (ProcessType.all.map job.pendingData) := mapM_map_ok fun p _ => jobData_restored job p
    exact hread
  simp only [readJobTail, hblocker', hkill, htimer, hfailed, hfailedProcess, hexit, htime, hcount,
    hfds, intArray_ok, hpids, hforks, htrace, hlogs, hdatas, bind, Except.bind]
  rfl

/-- With the fields of a job a new one is filled in as the one that is read back. -/
theorem Job.fill_tail (job : Job) (x : Host) (f : EventId → EventId) (new : Job) :
    (job.tail f job.killTimer).fill { (job.head x).fill new with
      stopOn := (job.stopOn.map (EventOperator.mapRefs f)).or new.stopOn } =
        job.revived x f new := by
  have hpid : (fun p : ProcessType => ((ProcessType.all.map fun p => (job.pid p : Int)).getD
      p.index 0).toNat) = job.pid := by
    funext p
    rw [List.getD_eq_getElem?_getD, ProcessType.getElem?_index]
    rfl
  have hdata : (fun p : ProcessType => (((ProcessType.all.map job.pendingData)[p.index]?).join).map
      JobProcessData.pid) = fun p => (job.pendingData p).map JobProcessData.pid := by
    funext p
    rw [ProcessType.getElem?_index]
    rfl
  simp only [JobTail.fill, Job.tail, JobHead.fill, Job.head, hpid, hdata, Int.toNat_natCast]
  rfl

end Written

/-- A job is read back, unless an assertion about its kill timer fails. -/
theorem job_restored (t : StateTexts) (x : Host) (parseOnSimple : String → Option EventOperator)
    (jobNew : String → Job) (blocking : List Json)
    (hstop : ∀ r, job.stopOn = some r → ∀ e ∈ r.refs, (sys.event? e).isSome = true)
    (hblocker : ∀ e, job.blocker = some e → (sys.event? e).isSome = true) :
    ∃ json, jobSerialise t sys job blocking = some json ∧
      jobDeserialise x parseOnSimple sys.events.length jobNew json =
        job.restoreTimer >>= fun _ => .ok (job.revived x sys.indexOf (jobNew job.name)) := by
  obtain ⟨items, hitems⟩ : ∃ items, job.stopOn.mapM (eventOperatorSerialiseAll sys) = some items := by
    cases hroot : job.stopOn with
    | none => exact ⟨none, rfl⟩
    | some r =>
      obtain ⟨nodes, hnodes, -⟩ := eventOperatorAll_restored (hstop r hroot) rfl
      exact ⟨some (.array nodes), by simp [hnodes]⟩
  have hindex : job.blocker.mapM (eventToIndex sys) = some (job.blocker.map sys.indexOf) := by
    cases he : job.blocker with
    | none => rfl
    | some e => simp [(eventToIndex_of_queued (hblocker e he)).1]
  refine ⟨_, by rw [jobSerialise, hitems, hindex]; rfl, ?_⟩
  generalize hjson : Json.record _ = json
  have hget := fun key => Json.get?_record key
    (jobFields t job items (job.blocker.map sys.indexOf) blocking) (by simp [jobFields])
  rw [hjson] at hget
  have hname : stateGetJsonStringVarStrict json "name" = .ok job.name :=
    stringVarStrict_ok (by rw [hget]; rfl)
  have hstopOn := conditionField_restored parseOnSimple rfl hstop hitems
    (show json.get? "stop_on" = items by rw [hget]; rfl)
  have hinstead : (job.stopOn.elim ConditionField.absent fun r =>
      .array (r.mapRefs sys.indexOf)).instead (jobNew job.name).stopOn =
        .ok ((job.stopOn.map (EventOperator.mapRefs sys.indexOf)).or (jobNew job.name).stopOn) := by
    cases job.stopOn <;> rfl
  have hobject : json.isObject = true := hjson ▸ rfl
  rw [jobDeserialise]
  simp only [hobject, hname, readOrFree, readJobHead_written hget, hstopOn, hinstead,
    readJobTail_written hblocker hget, check_true, bind, Except.bind]
  rcases ht : job.restoreTimer with f | timer
  · rfl
  · rw [(restoreTimer_eq_ok.mp ht).1]
    exact congrArg Except.ok (job.fill_tail x sys.indexOf (jobNew job.name))

end Restored

end Startup
