import Startup.Job.Types

/-!
# The job state machine (`init/job.c`)

The functions take the shared state and a job, and return the shared state
and what became of the job.  `job_change_state` is a loop: `jobEnterState` is
the `switch` of one pass, which returns the state that the loop heads for
next.
-/

namespace Startup

/-! ## Goals and states -/

/-- `job_next_state`.  Where the goal is to respawn, the source calls
`job_change_goal (job, JOB_START)`, which only sets the goal in those two
states (`jobChangeGoal_start_of_ne_waiting`). -/
def jobNextState (job : Job) : Except Fault (Job × JobState) :=
  let notReached : Except Fault (Job × JobState) := .error (.assertFailed .jobNextState)
  match job.state with
  | .waiting =>
    match job.goal with
    | .stop => notReached
    | .start => .ok (job, .starting)
    | .respawn => notReached
  | .starting =>
    match job.goal with
    | .stop => .ok (job, .stopping)
    | .start => .ok (job, .securitySpawning)
    | .respawn => notReached
  | .securitySpawning =>
    match job.goal with
    | .stop => .ok (job, .stopping)
    | .start => .ok (job, .security)
    | .respawn => notReached
  | .security =>
    match job.goal with
    | .stop => .ok (job, .stopping)
    | .start => .ok (job, .preStarting)
    | .respawn => notReached
  | .preStarting =>
    match job.goal with
    | .stop => .ok (job, .stopping)
    | .start => .ok (job, .preStart)
    | .respawn => notReached
  | .preStart =>
    match job.goal with
    | .stop => .ok (job, .stopping)
    | .start => .ok (job, .spawning)
    | .respawn => notReached
  | .spawning =>
    match job.goal with
    | .stop => .ok (job, .stopping)
    | .start => .ok (job, .spawned)
    | .respawn => notReached
  | .spawned =>
    match job.goal with
    | .stop => .ok (job, .stopping)
    | .start => .ok (job, .postStarting)
    | .respawn => notReached
  | .postStarting =>
    match job.goal with
    | .stop => .ok (job, .stopping)
    | .start => .ok (job, .postStart)
    | .respawn => notReached
  | .postStart =>
    match job.goal with
    | .stop => .ok (job, .stopping)
    | .start => .ok (job, .running)
    | .respawn => .ok (job.setGoal .start, .stopping)
  | .running =>
    match job.goal with
    | .stop =>
      if job.has .main && job.alive .main then .ok (job, .preStopping)
      else .ok (job, .stopping)
    | .start => .ok (job, .stopping)
    | .respawn => notReached
  | .preStopping =>
    match job.goal with
    | .stop => .ok (job, .preStop)
    | .start => .ok (job, .preStop)
    | .respawn => notReached
  | .preStop =>
    match job.goal with
    | .stop => .ok (job, .stopping)
    | .start => .ok (job, .running)
    | .respawn => .ok (job.setGoal .start, .stopping)
  | .stopping =>
    match job.goal with
    | .stop => .ok (job, .killed)
    | .start => .ok (job, .killed)
    | .respawn => notReached
  | .killed =>
    match job.goal with
    | .stop => .ok (job, .postStopping)
    | .start => .ok (job, .postStopping)
    | .respawn => notReached
  | .postStopping =>
    match job.goal with
    | .stop => .ok (job, .postStop)
    | .start => .ok (job, .postStop)
    | .respawn => notReached
  | .postStop =>
    match job.goal with
    | .stop => .ok (job, .waiting)
    | .start => .ok (job, .starting)
    | .respawn => notReached

/-! ## Events of a job -/

/-- `environ_set` of a variable and its value. -/
def environSet (x : Host) (env : List String) (key value : String) : List String :=
  environAdd x.getenv env true (key ++ "=" ++ value)

/-- `job_emit_event_env`. -/
def jobEmitEventEnv (x : Host) (job : Job) (stop : Bool) : List String :=
  let env := environSet x [] "JOB" job.cls.name
  let env := environSet x env "INSTANCE" job.name
  let jobEnv := job.env.getD []
  let env := job.cls.exports.foldl (fun env e =>
    match environLookup jobEnv e.toList with
    | some i => environAdd x.getenv env false (jobEnv.getD i "")
    | none => env) env
  if !stop then env
  else if !job.failed then environAdd x.getenv env true "RESULT=ok"
  else
    let env := environAdd x.getenv env true "RESULT=failed"
    match job.failedProcess with
    | none => environAdd x.getenv env true "PROCESS=respawn"
    | some p =>
      let env := environSet x env "PROCESS" p.name
      if job.exitStatus = -1 then env
      else if job.exitStatus / 256 ≠ 0 then
        match x.signalToName (job.exitStatus / 256) with
        | some sig => environSet x env "EXIT_SIGNAL" sig
        | none => environSet x env "EXIT_SIGNAL" (toString (job.exitStatus / 256))
      else environSet x env "EXIT_STATUS" (toString job.exitStatus)

theorem environAllValid_set (x : Host) {env : List String} (h : environAllValid env = true)
    (key value : String) : environAllValid (environSet x env key value) = true :=
  environAllValid_add h true _

/-- Every variable of an event of a job is of the form `KEY=VALUE`. -/
theorem environAllValid_jobEmitEventEnv (x : Host) (job : Job) (stop : Bool) :
    environAllValid (jobEmitEventEnv x job stop) = true := by
  have hexports : ∀ (es env : List String), environAllValid env = true →
      environAllValid (es.foldl (fun env e =>
        match environLookup (job.env.getD []) e.toList with
        | some i => environAdd x.getenv env false ((job.env.getD []).getD i "")
        | none => env) env) = true := by
    intro es
    induction es with
    | nil => exact fun env h => h
    | cons e es ih =>
      intro env h
      refine ih _ ?_
      dsimp only
      split
      · exact environAllValid_add h false _
      · exact h
  have hbase := hexports job.cls.exports _
    (environAllValid_set x (environAllValid_set x (show environAllValid [] = true from rfl)
      "JOB" job.cls.name) "INSTANCE" job.name)
  unfold jobEmitEventEnv
  dsimp only
  split
  · exact hbase
  · split
    · exact environAllValid_add hbase true _
    · have hfailed := environAllValid_set x hbase "RESULT" "failed"
      split
      · exact environAllValid_add hfailed true _
      · rename_i p _
        have hproc := environAllValid_set x hfailed "PROCESS" p.name
        split
        · exact hproc
        · split
          · split
            · exact environAllValid_set x hproc _ _
            · exact environAllValid_set x hproc _ _
          · exact environAllValid_set x hproc _ _

/-- `job_emit_event`: a new event for the state of the job.  The starting and
stopping events hold a `BLOCKED_JOB` entry for the job. -/
def jobEmitEvent (x : Host) (sys : Sys) (job : Job) : Except Fault (Sys × EventId) :=
  let emit (name : String) (block stop : Bool) : Except Fault (Sys × EventId) :=
    .ok (eventNew sys name (jobEmitEventEnv x job stop)
      (environAllValid_jobEmitEventEnv x job stop) (-1) (if block then [.job job.id] else []))
  match job.state with
  | .starting => emit "starting" true false
  | .running => emit "started" false false
  | .stopping => emit "stopping" true true
  | .waiting => emit "stopped" false true
  | _ => .error (.assertFailed .jobEmitEvent)

/-! ## Completion of requests and events -/

/-- One entry of the list in `job_finished`. -/
def finishBlocked (failed : Bool) (sys : Sys) : Blocked → Except Fault Sys
  | .event e =>
    let sys := if failed then sys.modifyEvent e fun ev => { ev with failed := true } else sys
    eventUnblock sys e
  | .jobStartMethod m => .ok (sys.act (.replied m (!failed)))
  | .jobStopMethod m => .ok (sys.act (.replied m (!failed)))
  | .jobRestartMethod m => .ok (sys.act (.replied m (!failed)))
  | .instanceStartMethod m => .ok (sys.act (.replied m (!failed)))
  | .instanceStopMethod m => .ok (sys.act (.replied m (!failed)))
  | .instanceRestartMethod m => .ok (sys.act (.replied m (!failed)))
  | .job _ => .error (.assertFailed .jobFinished)
  | .emitMethod _ => .error (.assertFailed .jobFinished)

/-- `job_finished`: unblock the events and answer the requests that wait for
the job. -/
def jobFinished (sys : Sys) (job : Job) (failed : Bool) : Except Fault (Sys × Job) := do
  let sys ← job.blocking.foldlM (finishBlocked failed) sys
  .ok (sys, { job with blocking := [] })

/-- `job_failed`: mark the job as failed, unless it already is. -/
def jobFailed (sys : Sys) (job : Job) (process : Option ProcessType) (status : Int) :
    Except Fault (Sys × Job) :=
  if job.failed then .ok (sys, job)
  else jobFinished sys
    { job with failed := true, failedProcess := process, exitStatus := status } true

/-! ## Processes -/

/-- The script that `job_process_start` feeds to the shell through a pipe:
one of several lines.  `shellChars` is `SHELL_CHARS`. -/
def pipedScript (shellChars : Char → Bool) (proc : Process) : Option String :=
  if proc.script || proc.command.toList.any shellChars then
    let script := if proc.script then proc.command else "exec " ++ proc.command
    let rest := (script.toList.dropWhile (· ≠ '\n')).dropWhile (· = '\n')
    if rest.isEmpty then none else some script
  else none

/-- `SHELL_CHARS`, the characters that make a command one for the shell. -/
def shellChars (c : Char) : Bool :=
  ['~', '\x60', '!', '$', '^', '&', '*', '(', ')', '=', '|', '\\', '{', '}', '[', ']', ';',
    '"', '\'', '<', '>', '?'].contains c

/-- What `job_process_start` leaves when it has spawned a process. -/
def processStarted (sys : Sys) (job : Job) (process : ProcessType) (proc : Process) :
    Sys × Job :=
  let pid := sys.lastPid + 1
  let trace := process = .main ∧ (job.cls.expect = .daemon ∨ job.cls.expect = .fork)
  let ready := process = .main ∧ job.cls.expect = .readyfd
  let data : JobProcessData :=
    { pid, process, script := pipedScript shellChars proc, status := 0, valid := true }
  ({ sys with lastPid := pid }.act (.spawned job.id process pid),
    { job with
      pid := Function.update job.pid process pid
      traceForks := 0
      traceState := if trace then .new else .none
      processData := Function.update job.processData process (some pid)
      datas := job.datas ++ [data]
      readyPipes := if ready then job.readyPipes ++ [pid] else job.readyPipes })

/-- `job_process_start`.  The call of `job_process_spawn_with_fd` is repeated
until `fork` works, so that it always returns a process.  The table of the
arguments and the environment of the child are not part of the transition. -/
def jobProcessStart (sys : Sys) (job : Job) (process : ProcessType) :
    Except Fault (Sys × Job) :=
  match job.cls.process process with
  | none => .error (.assertFailed .jobProcessStart)
  | some proc => .ok (processStarted sys job process proc)

/-- `job_process_kill`: send the kill signal and arm the kill timer. -/
def jobProcessKill (x : Host) (sys : Sys) (job : Job) (process : ProcessType) :
    Except Fault (Sys × Job) := do
  nihAssert .jobProcessKill (job.alive process)
  nihAssert .jobProcessKill job.killTimer.isNone
  nihAssert .jobProcessKill job.killProcess.isNone
  let sys := sys.act (.signalled (job.pid process) job.cls.killSignal)
  if !x.killOk then .ok (sys, job)
  else
    -- job_process_set_kill_timer
    nihAssert .jobProcessKill (job.cls.killTimeout ≠ 0)
    .ok (sys, { job with
      killProcess := some process
      killTimer := some (x.now + job.cls.killTimeout) })

/-! ## Changing the state -/

/-- What entering `JOB_STARTING` resets: the environment given for the start
replaces the old one, and the failure of the last run is forgotten. -/
def Job.renew (job : Job) : Job :=
  { job with
    env := if job.startEnv.isSome then job.startEnv else job.env
    startEnv := none
    stopEnv := none
    failed := false
    failedProcess := none
    exitStatus := 0 }

/-- What one pass of the loop of `job_change_state` leaves: the job and the
state that the loop heads for, or a job that has been freed. -/
inductive Pass where
  | next (sys : Sys) (job : Job) (state : JobState)
  | freed (sys : Sys) (job : Job)

/-- `job_process_start` where the condition holds, then `job_next_state`. -/
def spawnAndNext (sys : Sys) (job : Job) (process : ProcessType) (cond : Bool) :
    Except Fault Pass := do
  let (sys, job) ← if cond then jobProcessStart sys job process else .ok (sys, job)
  let (job, state) ← jobNextState job
  .ok (.next sys job state)

/-- `job_next_state` where the condition holds, else stay. -/
def nextUnless (sys : Sys) (job : Job) (cond : Bool) : Except Fault Pass :=
  if cond then .ok (.next sys job job.state)
  else do
    let (job, state) ← jobNextState job
    .ok (.next sys job state)

/-- The `switch` of `job_change_state`: what entering `job.state` from `old`
does. -/
def jobEnterState (x : Host) (sys : Sys) (old : JobState) (job : Job) :
    Except Fault Pass :=
  let assert := nihAssert .jobChangeState
  match job.state with
  | .starting => do
    assert (job.goal = .start)
    assert (old = .waiting ∨ old = .postStop)
    let job := job.renew
    let (sys, e) ← jobEmitEvent x sys job
    .ok (.next sys { job with blocker := some e } job.state)
  | .securitySpawning => do
    assert (job.goal = .start)
    assert (old = .starting)
    spawnAndNext sys job .security (job.has .security && x.apparmorAvailable)
  | .security => do
    assert (job.goal = .start)
    assert (old = .securitySpawning)
    nextUnless sys job (job.has .security && x.apparmorAvailable)
  | .preStarting => do
    assert (job.goal = .start)
    assert (old = .security)
    spawnAndNext sys job .preStart (job.has .preStart)
  | .preStart => do
    assert (job.goal = .start)
    assert (old = .preStarting)
    nextUnless sys job (job.has .preStart)
  | .spawning => do
    assert (job.goal = .start)
    assert (old = .preStart)
    spawnAndNext sys job .main (job.has .main)
  | .spawned => do
    assert (job.goal = .start)
    assert (old = .spawning)
    nextUnless sys job (job.has .main)
  | .postStarting => do
    assert (job.goal = .start)
    assert (old = .spawned)
    spawnAndNext sys job .postStart (job.has .postStart)
  | .postStart => do
    assert (job.goal = .start)
    assert (old = .postStarting)
    nextUnless sys job (job.has .postStart)
  | .running => do
    assert (job.goal = .start)
    assert (old = .postStart ∨ old = .preStop)
    if old = .preStop then
      let (sys, job) ← jobFinished sys { job with stopEnv := none } false
      .ok (.next sys job job.state)
    else
      let (sys, _) ← jobEmitEvent x sys job
      let (sys, job) ← if !job.cls.task then jobFinished sys job false else .ok (sys, job)
      .ok (.next sys job job.state)
  | .preStopping => do
    assert (job.goal = .stop)
    assert (old = .running)
    spawnAndNext sys job .preStop (job.has .preStop)
  | .preStop => do
    assert (job.goal = .stop)
    assert (old = .preStopping)
    nextUnless sys job (job.has .preStop)
  | .stopping => do
    assert (old = .starting ∨ old = .preStarting ∨ old = .preStart ∨ old = .security ∨
      old = .spawned ∨ old = .postStart ∨ old = .running ∨ old = .preStop)
    let (sys, e) ← jobEmitEvent x sys job
    .ok (.next sys { job with blocker := some e } job.state)
  | .killed => do
    assert (old = .stopping)
    if job.has .main && job.alive .main then
      let (sys, job) ← jobProcessKill x sys job .main
      .ok (.next sys job job.state)
    else
      let (job, state) ← jobNextState job
      .ok (.next sys job state)
  | .postStopping => do
    assert (old = .killed)
    spawnAndNext sys job .postStop (job.has .postStop)
  | .postStop => do
    assert (old = .postStopping)
    nextUnless sys job (job.has .postStop)
  | .waiting => do
    assert (job.goal = .stop)
    assert (old = .postStop ∨ old = .starting)
    let (sys, _) ← jobEmitEvent x sys job
    let (sys, job) ← jobFinished sys job false
    .ok (.freed sys job)

/-- The loop of `job_change_state`. -/
def jobChangeStateLoop (x : Host) : Nat → Sys → Job → JobState → Except Fault (Sys × JobRef)
  | 0, _, _, _ => .error .outOfFuel
  | fuel + 1, sys, job, state =>
    if job.state = state then .ok (sys, .live job)
    else if job.blocker.isSome then .ok (sys, .live job)
    else do
      match ← jobEnterState x sys job.state { job with state := state } with
      | .next sys job state => jobChangeStateLoop x fuel sys job state
      | .freed sys job => .ok (sys, .freed job)

/-- `job_change_state`.  No sequence of passes is longer than the states that
it goes through. -/
def jobChangeState (x : Host) (sys : Sys) (job : Job) (state : JobState) :
    Except Fault (Sys × JobRef) :=
  jobChangeStateLoop x 17 sys job state

/-- `job_change_state (job, job_next_state (job))`. -/
def jobAdvance (x : Host) (sys : Sys) (job : Job) : Except Fault (Sys × JobRef) := do
  let (job, state) ← jobNextState job
  jobChangeState x sys job state

/-- `job_change_goal`. -/
def jobChangeGoal (x : Host) (sys : Sys) (job : Job) (goal : JobGoal) :
    Except Fault (Sys × JobRef) :=
  if job.goal = goal then .ok (sys, .live job)
  else
    let job := job.setGoal goal
    match goal with
    | .start => if job.state = .waiting then jobAdvance x sys job else .ok (sys, .live job)
    | .stop => if job.state = .running then jobAdvance x sys job else .ok (sys, .live job)
    | .respawn => .ok (sys, .live job)

/-- The call of `job_change_goal` in `job_next_state` only sets the goal. -/
theorem jobChangeGoal_start_of_ne_waiting (x : Host) (sys : Sys) {job : Job}
    (h : job.state ≠ .waiting) (hg : job.goal ≠ .start) :
    jobChangeGoal x sys job .start = .ok (sys, .live (job.setGoal .start)) := by
  simp [jobChangeGoal, Job.setGoal, h, hg]

end Startup
