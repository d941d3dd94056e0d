import Startup.Job.State

/-!
# Notifications about the processes of a job (`init/job_process.c`)

* the end of a process: `jobProcessTerminated`;
* the set-up pipe of a child: `jobProcessChildReader` when the set-up failed,
  `jobProcessCloseHandler` when the pipe is closed without an error;
* what moves a job out of the spawned state: `jobProcessStopped`, the
  functions of the trace, and `jobProcessReadyfdReader`;
* the kill timer.

Wherever the source goes on to use a job after a call that may have freed it,
the model accesses it with `JobRef.get`.
-/

namespace Startup

/-! ## The end of a process -/

/-- `job_process_catch_runaway`: whether the job respawns too fast. -/
def jobProcessCatchRunaway (x : Host) (job : Job) : Job × Bool :=
  if job.cls.respawnLimit ≠ 0 ∧ job.cls.respawnInterval ≠ 0 then
    if x.now - job.respawnTime < job.cls.respawnInterval then
      ({ job with respawnCount := job.respawnCount + 1 },
        decide (job.cls.respawnLimit < job.respawnCount + 1))
    else ({ job with respawnTime := x.now, respawnCount := 1 }, false)
  else (job, false)

/-- The local variables of `job_process_terminated`. -/
structure Verdict where
  failed : Bool
  stop : Bool
  state : Bool
  deriving DecidableEq, Repr

/-- Whether `job_process_terminated` finds that the main process ended in
another way than by one of its normal exits. -/
def mainFailed (cls : JobClass) (status : Int) : Bool :=
  let failed := !(cls.normalexit.isEmpty && status == 0) || (cls.respawn && !cls.task)
  failed && !cls.normalexit.contains status

/-- Whether the job waits for its `post-start` or `pre-stop` process, so that
the end of the main process does not change the state. -/
def Job.waits (job : Job) : Bool :=
  (job.state = .postStart && job.has .postStart && job.alive .postStart) ||
    (job.state = .preStop && job.has .preStop && job.alive .preStop)

/-- The `PROCESS_MAIN` case of `job_process_terminated`. -/
def mainTerminated (x : Host) (sys : Sys) (job : Job) (status : Int) :
    Except Fault (Sys × JobRef × Verdict) := do
  nihAssert .jobProcessTerminated
    (job.state = .running ∨ job.state = .spawned ∨ job.state = .killed ∨
      job.state = .stopping ∨ job.state = .postStart ∨ job.state = .preStop)
  let state := !job.waits
  if job.state = .killed then .ok (sys, .live job, ⟨false, false, state⟩)
  else if job.state = .stopping then .ok (sys, .live job, ⟨false, false, false⟩)
  else if job.goal ≠ .start then .ok (sys, .live job, ⟨false, false, state⟩)
  else
    let failed := mainFailed job.cls status
    if !failed || !job.cls.respawn || x.disableRespawn then
      .ok (sys, .live job, ⟨failed, true, state⟩)
    else
      let (job, runaway) := jobProcessCatchRunaway x job
      if runaway then
        let (sys, job) ← jobFailed sys job none 0
        .ok (sys, .live job, ⟨false, true, state⟩)
      else
        let (sys, ref) ← if !state then jobChangeGoal x sys job .respawn
          else .ok (sys, .live job)
        let job ← ref.get .jobProcessTerminated
        if job.state = .spawned then
          let (sys, ref) ← jobChangeState x sys job .stopping
          .ok (sys, ref, ⟨false, false, false⟩)
        else .ok (sys, .live job, ⟨false, false, state⟩)

/-- The `switch` of `job_process_terminated`. -/
def processTerminated (x : Host) (sys : Sys) (job : Job) (process : ProcessType)
    (status : Int) : Except Fault (Sys × JobRef × Verdict) :=
  let assert := nihAssert .jobProcessTerminated
  match process with
  | .main => mainTerminated x sys job status
  | .security => do
    assert (job.state = .security)
    .ok (sys, .live job, ⟨status ≠ 0, status ≠ 0, true⟩)
  | .preStart => do
    assert (job.state = .preStart)
    .ok (sys, .live job, ⟨status ≠ 0, status ≠ 0, true⟩)
  | .postStart => do
    assert (job.state = .postStart ∨ job.state = .running)
    .ok (sys, .live job, ⟨false, false, true⟩)
  | .preStop => do
    assert (job.state = .preStop)
    .ok (sys, .live job, ⟨false, false, true⟩)
  | .postStop => do
    assert (job.state = .postStop)
    .ok (sys, .live job, ⟨status ≠ 0, status ≠ 0, true⟩)

/-- The states in which a process is being spawned. -/
def JobState.spawning? : JobState → Bool
  | .securitySpawning | .preStarting | .spawning => true
  | .postStarting | .preStopping | .postStopping => true
  | _ => false

/-- The kill timer is cancelled when a process has ended. -/
def Job.cancelKill (job : Job) : Job :=
  if job.killTimer.isSome then { job with killTimer := none, killProcess := none } else job

/-- The rest of `job_process_terminated`: the kill timer and the pid are
cleared, and the goal and the state changed as the `switch` decided. -/
def afterTerminated (x : Host) (sys : Sys) (job : Job) (process : ProcessType)
    (status : Int) (stateOnly : Bool) (v : Verdict) : Except Fault (Sys × JobRef) := do
  let job := job.cancelKill
  let job := if stateOnly then job else job.setPid process 0
  let (sys, job) ← if v.failed then jobFailed sys job (some process) status
    else .ok (sys, job)
  nihAssert .jobProcessTerminated (!(stateOnly && v.stop && v.failed))
  let stop := v.stop && !stateOnly
  let (sys, ref) ← if stop then jobChangeGoal x sys job .stop else .ok (sys, .live job)
  let job ← ref.get .jobProcessTerminated
  if stop && job.state = .running then .ok (sys, .live job)
  else if v.state then jobAdvance x sys job
  else .ok (sys, .live job)

/-- `job_process_terminated`.  With `stateOnly`, the process has not ended. -/
def jobProcessTerminated (x : Host) (sys : Sys) (job : Job) (process : ProcessType)
    (status : Int) (stateOnly : Bool) : Except Fault (Sys × JobRef) := do
  if job.state.spawning? then
    match job.processData process with
    | none => .error (.assertFailed .jobProcessTerminated)
    | some pid =>
      let job := job.modifyData pid fun d => { d with status := status }
      let (job, state) ← jobNextState job
      .ok (sys, .live { job with state := state })
  else
    let (sys, ref, verdict) ← processTerminated x sys job process status
    let job ← ref.get .jobProcessTerminated
    afterTerminated x sys job process status stateOnly verdict

/-! ## The set-up pipe of a child -/

/-- The case of `job_child_error_handler` for a process without which the job
cannot go on. -/
def failAndAdvance (x : Host) (sys : Sys) (job : Job) (process : ProcessType) :
    Except Fault (Sys × JobRef) := do
  let (sys, job) ← jobFailed sys job (some process) (-1)
  let (sys, ref) ← jobChangeGoal x sys job .stop
  let job ← ref.get .jobChildErrorHandler
  jobAdvance x sys job

/-- `job_child_error_handler`. -/
def jobChildErrorHandler (x : Host) (sys : Sys) (job : Job) (process : ProcessType) :
    Except Fault (Sys × JobRef) :=
  let job := job.setPid process 0
  match process with
  | .security => do
    -- the other cases change the state as well
    let (sys, job) ← jobFailed sys job (some .security) (-1)
    jobChangeGoal x sys job .stop
  | .preStart => failAndAdvance x sys job .preStart
  | .main => failAndAdvance x sys job .main
  | .postStart => jobAdvance x sys job
  | .preStop => jobAdvance x sys job
  | .postStop => failAndAdvance x sys job .postStop

/-- `job_process_child_reader` for the set-up data at `pid`.  `permanent` says
whether the bytes are an error of the set-up, `JOB_PROCESS_ERROR`. -/
def jobProcessChildReader (x : Host) (sys : Sys) (job : Job) (pid : Pid)
    (permanent : Bool) : Except Fault (Sys × JobRef) :=
  match job.data? pid with
  | none => .error (.useAfterFree .jobProcessChildReader)
  | some data =>
    if !data.valid || !permanent then .ok (sys, .live job)
    else do
      let job := job.modifyData pid fun d => { d with script := none }
      let (sys, ref) ← jobChildErrorHandler x sys job data.process
      -- `process_data->valid = FALSE`
      let job ← ref.get .jobProcessChildReader
      .ok (sys, .live (job.modifyData pid fun d => { d with valid := false }))

/-- `job_process_close_handler` for the set-up data at `pid`.  The script of
the data, if there is one, is sent to the shell. -/
def jobProcessCloseHandler (x : Host) (sys : Sys) (job : Job) (pid : Pid) :
    Except Fault (Sys × JobRef) :=
  match job.data? pid with
  | none => .error (.useAfterFree .jobProcessCloseHandler)
  | some data =>
    if !data.valid then .ok (sys, .live job)
    else do
      let job := job.modifyData pid fun d => { d with valid := false, script := none }
      let (sys, ref) ←
        if job.state = .spawned ∧ job.cls.expect = .none ∧ data.process = .main then
          jobAdvance x sys job
        else .ok (sys, .live job)
      let job ← ref.get .jobProcessCloseHandler
      if job.state.spawning? then
        jobProcessTerminated x sys job data.process data.status true
      else .ok (sys, .live job)

/-! ## Leaving the spawned state -/

/-- The condition under which the functions of the trace and
`job_process_stopped` look at a notification. -/
def Job.mainStarting (job : Job) (process : ProcessType) : Bool :=
  process = .main ∧ (job.state = .spawning ∨ job.state = .spawned)

/-- `job_process_stopped`. -/
def jobProcessStopped (x : Host) (sys : Sys) (job : Job) (process : ProcessType) :
    Except Fault (Sys × JobRef) :=
  if !job.mainStarting process then .ok (sys, .live job)
  else if job.cls.expect = .stop then
    -- SIGCONT
    jobAdvance x (sys.act (.signalled (job.pid process) 18)) job
  else .ok (sys, .live job)

/-- `job_process_trace_new`. -/
def jobProcessTraceNew (x : Host) (sys : Sys) (job : Job) (process : ProcessType) :
    Except Fault (Sys × JobRef) := do
  nihAssert .jobProcessTraceNew (job.traceState = .new ∨ job.traceState = .newChild)
  if !job.mainStarting process then .ok (sys, .live job)
  else if !x.ptraceOk (job.pid process) then .ok (sys, .live job)
  else .ok (sys.act (.continued (job.pid process) 0), .live { job with traceState := .normal })

/-- `job_process_trace_new_child`. -/
def jobProcessTraceNewChild (x : Host) (sys : Sys) (job : Job) (process : ProcessType) :
    Except Fault (Sys × JobRef) := do
  nihAssert .jobProcessTraceNewChild (job.traceState = .newChild)
  if !job.mainStarting process then .ok (sys, .live job)
  else
    let job := { job with traceForks := job.traceForks + 1 }
    if job.traceForks > 1 ∨ job.cls.expect = .fork then
      jobAdvance x (sys.act (.detached (job.pid process))) { job with traceState := .none }
    else jobProcessTraceNew x sys job process

/-- `job_process_trace_signal`. -/
def jobProcessTraceSignal (sys : Sys) (job : Job) (process : ProcessType) (signum : Int) :
    Except Fault (Sys × JobRef) :=
  if !job.mainStarting process || job.traceState ≠ .normal then .ok (sys, .live job)
  else .ok (sys.act (.continued (job.pid process) signum), .live job)

/-- `job_process_trace_fork`: the process that the traced one has forked,
which the kernel reports, takes its place. -/
def jobProcessTraceFork (x : Host) (sys : Sys) (job : Job) (process : ProcessType) :
    Except Fault (Sys × JobRef) :=
  if !job.mainStarting process || job.traceState ≠ .normal then .ok (sys, .live job)
  else if !x.ptraceOk (job.pid process) then .ok (sys, .live job)
  else
    let child := sys.lastPid + 1
    let sys := { sys with lastPid := child }.act (.detached (job.pid process))
    let job := { job.setPid process child with traceState := .newChild }
    if !x.ptraceOk child then .ok (sys, .live job)
    else jobProcessTraceNewChild x sys job process

/-- `job_process_trace_exec`. -/
def jobProcessTraceExec (x : Host) (sys : Sys) (job : Job) (process : ProcessType) :
    Except Fault (Sys × JobRef) :=
  if !job.mainStarting process || job.traceState ≠ .normal then .ok (sys, .live job)
  else if job.traceForks ≠ 0 then
    jobAdvance x (sys.act (.detached (job.pid process))) { job with traceState := .none }
  else .ok (sys.act (.continued (job.pid process) 0), .live job)

/-- `job_process_readyfd_reader`. -/
def jobProcessReadyfdReader (x : Host) (sys : Sys) (job : Job) (buf : String) :
    Except Fault (Sys × JobRef) :=
  if job.state = .spawned ∧ buf.toList.contains '\n' then jobAdvance x sys job
  else .ok (sys, .live job)

/-! ## Notifications of the child handler -/

/-- `NihChildEvents`, with what comes with each. -/
inductive ChildEvent where
  | exited (status : Int)
  | killed (signal : Int)
  | dumped (signal : Int)
  | stopped (signal : Int)
  | continued (signal : Int)
  | trapped (signal : Int)
  | ptraceFork
  | ptraceExec
  deriving DecidableEq, Repr

/-- `job_process_handler` for an event of the process `process` of a job.  A
signal is stored in the higher byte of the status. -/
def jobProcessHandler (x : Host) (sys : Sys) (job : Job) (process : ProcessType) :
    ChildEvent → Except Fault (Sys × JobRef)
  | .exited status =>
    jobProcessTerminated x (sys.act (.exited (job.pid process))) job process status false
  | .killed signal =>
    jobProcessTerminated x (sys.act (.exited (job.pid process))) job process (signal * 256)
      false
  | .dumped signal =>
    jobProcessTerminated x (sys.act (.exited (job.pid process))) job process (signal * 256)
      false
  | .stopped signal =>
    -- SIGSTOP
    if signal = 19 then jobProcessStopped x sys job process else .ok (sys, .live job)
  | .continued _ => .ok (sys, .live job)
  | .trapped signal =>
    -- SIGTRAP and SIGSTOP
    if job.traceState = .new ∧ signal = 5 then jobProcessTraceNew x sys job process
    else if job.traceState = .newChild ∧ signal = 19 then
      jobProcessTraceNewChild x sys job process
    else jobProcessTraceSignal sys job process signal
  | .ptraceFork => jobProcessTraceFork x sys job process
  | .ptraceExec => jobProcessTraceExec x sys job process

/-- `job_process_kill_timer`. -/
def jobProcessKillTimer (sys : Sys) (job : Job) : Except Fault (Sys × JobRef) := do
  nihAssert .jobProcessKillTimer job.killTimer.isSome
  match job.killProcess with
  | none => .error (.assertFailed .jobProcessKillTimer)
  | some process =>
    nihAssert .jobProcessKillTimer (job.alive process)
    -- SIGKILL
    .ok (sys.act (.signalled (job.pid process) 9),
      .live { job with killTimer := none, killProcess := none })

end Startup
