import Startup.Job.Process

/-!
# Requests and events that change the goal of a job

* the methods of an instance: `job_start`, `job_stop`, `job_restart`
  (`init/job.c`);
* the methods of a class, from the point where the instance has been found or
  created: `job_class_start`, `job_class_stop`, `job_class_restart`
  (`init/job_class.c`);
* an event: the `stop on` condition of an instance in
  `event_pending_handle_jobs` (`init/event.c`), and the instance that
  `job_class_induct_job` starts (`init/job_class.c`);
* the end of the event that a job waits for, in `event_finished`.
-/

namespace Startup

/-! ## Methods -/

/-- Answer a request with a D-Bus error. -/
def refuse (sys : Sys) (job : Job) (message : MessageId) : Except Fault (Sys × JobRef) :=
  .ok (sys.act (.replied message false), .live job)

/-- Release those that wait for the job, and let the request wait for it
instead when it asked to. -/
def replaceBlocking (sys : Sys) (job : Job) (entry : Blocked) (wait : Bool) :
    Except Fault (Sys × Job) := do
  let (sys, job) ← jobFinished sys job false
  .ok (sys, if wait then { job with blocking := job.blocking ++ [entry] } else job)

/-- The reply to a request that did not ask to wait. -/
def replyUnlessWait (sys : Sys) (message : MessageId) (wait : Bool) : Sys :=
  if wait then sys else sys.act (.replied message true)

/-- What `job_start` and `job_stop` do once the request is accepted. -/
def changeGoalFor (x : Host) (sys : Sys) (job : Job) (entry : Blocked) (message : MessageId)
    (wait : Bool) (goal : JobGoal) : Except Fault (Sys × JobRef) := do
  let (sys, job) ← replaceBlocking sys job entry wait
  let (sys, ref) ← jobChangeGoal x sys job goal
  .ok (replyUnlessWait sys message wait, ref)

/-- What `job_restart` does once the request is accepted: the goal goes to
stop and back to start. -/
def restartFor (x : Host) (sys : Sys) (job : Job) (entry : Blocked) (message : MessageId)
    (wait : Bool) : Except Fault (Sys × JobRef) := do
  let (sys, job) ← replaceBlocking sys job entry wait
  let (sys, ref) ← jobChangeGoal x sys job .stop
  let job ← ref.get .jobChangeGoal
  let (sys, ref) ← jobChangeGoal x sys job .start
  .ok (replyUnlessWait sys message wait, ref)

/-- `job_start`. -/
def jobStart (x : Host) (sys : Sys) (job : Job) (message : MessageId) (wait : Bool) :
    Except Fault (Sys × JobRef) :=
  if job.goal = .start then refuse sys job message
  else if job.cls.cgroups && !x.cgroupManagerAvailable then refuse sys job message
  else changeGoalFor x sys { job with startEnv := none } (.instanceStartMethod message)
    message wait .start

/-- `job_stop`. -/
def jobStop (x : Host) (sys : Sys) (job : Job) (message : MessageId) (wait : Bool) :
    Except Fault (Sys × JobRef) :=
  if job.goal = .stop then refuse sys job message
  else changeGoalFor x sys { job with stopEnv := none } (.instanceStopMethod message)
    message wait .stop

/-- `job_restart`. -/
def jobRestart (x : Host) (sys : Sys) (job : Job) (message : MessageId) (wait : Bool) :
    Except Fault (Sys × JobRef) :=
  if job.goal = .stop then refuse sys job message
  else restartFor x sys { job with startEnv := none, stopEnv := none }
    (.instanceRestartMethod message) message wait

/-- `job_class_start` for the instance with the expanded name; `env` is the
environment of the class and the request. -/
def jobClassStartInstance (x : Host) (sys : Sys) (job : Job) (env : List String)
    (message : MessageId) (wait : Bool) : Except Fault (Sys × JobRef) := do
  if job.goal = .start then refuse sys job message
  else
    let (sys, ref) ← changeGoalFor x sys { job with startEnv := some env }
      (.jobStartMethod message) message wait .start
    -- the reply has the path of the job
    if wait then .ok (sys, ref)
    else
      let job ← ref.get .jobClassStart
      .ok (sys, .live job)

/-- `job_class_stop` for the instance with the expanded name; `env` is the
environment of the request. -/
def jobClassStopInstance (x : Host) (sys : Sys) (job : Job) (env : List String)
    (message : MessageId) (wait : Bool) : Except Fault (Sys × JobRef) :=
  if job.goal = .stop then refuse sys job message
  else changeGoalFor x sys { job with stopEnv := some env } (.jobStopMethod message)
    message wait .stop

/-- `job_class_restart` for the instance with the expanded name. -/
def jobClassRestartInstance (x : Host) (sys : Sys) (job : Job) (env : List String)
    (message : MessageId) (wait : Bool) : Except Fault (Sys × JobRef) := do
  if job.goal = .stop then refuse sys job message
  else
    let (sys, ref) ← restartFor x sys { job with startEnv := some env, stopEnv := none }
      (.jobRestartMethod message) message wait
    if wait then .ok (sys, ref)
    else
      let job ← ref.get .jobClassRestart
      .ok (sys, .live job)

/-! ## Events -/

/-- The environment of the events that stop a job, for its `pre-stop` process,
and the release of those that wait for the job. -/
def takeStopEnv (x : Host) (sys : Sys) (job : Job) (root : EventOperator) :
    Except Fault (Sys × Job) :=
  if job.goal ≠ .stop then do
    let env ← eventOperatorEnvironment x sys root [] "UPSTART_STOP_EVENTS"
    jobFinished sys { job with stopEnv := some env } false
  else .ok (sys, job)

/-- The events of a condition wait for the job. -/
def blockOnEvents (sys : Sys) (job : Job) (root : EventOperator) (cond : Bool) :
    Except Fault (Sys × Job) :=
  if cond then do
    let (sys, blocked) ← eventOperatorEvents sys root
    .ok (sys, { job with blocking := job.blocking ++ blocked })
  else .ok (sys, job)

/-- `job_change_goal` where the goal is another one. -/
def changeGoalIfOther (x : Host) (sys : Sys) (job : Job) (goal : JobGoal) :
    Except Fault (Sys × JobRef) :=
  if job.goal ≠ goal then jobChangeGoal x sys job goal else .ok (sys, .live job)

/-- What `event_pending_handle_jobs` does for an instance whose `stop on`
condition `root` has become true. -/
def stopForEvents (x : Host) (sys : Sys) (job : Job) (root : EventOperator) :
    Except Fault (Sys × JobRef) := do
  let (sys, job) ← takeStopEnv x sys job root
  let (sys, job) ← blockOnEvents sys job root (job.state ≠ .waiting)
  let (sys, ref) ← changeGoalIfOther x sys job .stop
  let job ← ref.get .eventPending
  let (sys, root) ← resetOperator sys root
  .ok (sys, .live { job with stopOn := some root })

/-- `event_pending_handle_jobs` for the `stop on` condition of an instance. -/
def handleStopOn (x : Host) (sys : Sys) (job : Job) (event : Event) :
    Except Fault (Sys × JobRef) :=
  match job.stopOn with
  | none => .ok (sys, .live job)
  | some root => do
    let (sys, root, matched) ← handleOperator x sys root event (job.env.getD [])
    let sys := sys.act (.offeredStop event.id job.id)
    let job := { job with stopOn := some root }
    if matched && root.value then
      stopForEvents x (sys.act (.stoppedFor event.id job.id)) job root
    else .ok (sys, .live job)

/-- The environment and the file descriptors of the events that start a job,
and the release of those that wait for the job. -/
def takeStartEnv (x : Host) (sys : Sys) (job : Job) (startOn : EventOperator)
    (env : List String) : Except Fault (Sys × Job) :=
  if job.goal ≠ .start then do
    let (sys, job) ← jobFinished sys { job with startEnv := some env } false
    let (fds, env) ← eventOperatorFds x sys startOn env "UPSTART_FDS"
    .ok (sys, { job with fds := fds, startEnv := some env })
  else .ok (sys, job)

/-- `job_class_induct_job` for the instance with the expanded name; `env` is
the environment of the class and the events of its `start on` condition. -/
def inductInstance (x : Host) (sys : Sys) (job : Job) (startOn : EventOperator)
    (env : List String) : Except Fault (Sys × JobRef) := do
  let (sys, job) ← takeStartEnv x sys job startOn env
  let (sys, job) ← blockOnEvents sys job startOn
    ((job.cls.task ∧ job.state = .running) ∨ job.state ≠ .running)
  changeGoalIfOther x sys job .start

/-- `event_finished` for a `BLOCKED_JOB` entry: the job goes on. -/
def blockerFinished (x : Host) (sys : Sys) (job : Job) : Except Fault (Sys × JobRef) :=
  jobAdvance x sys { job with blocker := none }

end Startup
