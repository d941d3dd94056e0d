import Startup.Event.Operator
import Mathlib.Logic.Function.Basic

/-!
# Job classes and jobs (`init/job.h`, `init/job_class.h`)

A job keeps the configuration of its class by value: `parse_job` never
changes a class that has instances.  Fields that no function of the model
reads are left out, among them those that only the child process uses
between `fork` and `exec`.
-/

namespace Startup

/-! ## Enumerations -/

/-- `JobGoal`. -/
inductive JobGoal where
  | stop
  | start
  | respawn
  deriving DecidableEq, Repr

/-- `JobState`. -/
inductive JobState where
  | waiting
  | starting
  | securitySpawning
  | security
  | preStarting
  | preStart
  | spawning
  | spawned
  | postStarting
  | postStart
  | running
  | preStopping
  | preStop
  | stopping
  | killed
  | postStopping
  | postStop
  deriving DecidableEq, Repr

/-- `TraceState`. -/
inductive TraceState where
  | none
  | new
  | newChild
  | normal
  deriving DecidableEq, Repr

/-- `ExpectType`. -/
inductive ExpectType where
  | none
  | stop
  | daemon
  | fork
  | readyfd
  deriving DecidableEq, Repr

/-! ## Classes -/

/-- `Process`. -/
structure Process where
  script : Bool
  command : String
  deriving DecidableEq, Repr

/-- The configuration half of `JobClass`. -/
structure JobClass where
  name : String
  /-- the `instance` pattern -/
  instancePattern : String := ""
  env : List String := []
  /-- the `export` list -/
  exports : List String := []
  process : ProcessType → Option Process := fun _ => Option.none
  expect : ExpectType := .none
  task : Bool := false
  killTimeout : Int := 5
  killSignal : Int := 15
  respawn : Bool := false
  respawnLimit : Int := 10
  respawnInterval : Int := 5
  normalexit : List Int := []
  /-- `job_class_cgroups`: whether the class has a `cgroup` stanza -/
  cgroups : Bool := false

/-! ## Jobs -/

/-- `JobProcessData`: what is known of a child whose set-up init watches
through a pipe.  `pid` is the child at the other end of that pipe; the source
has no such field, and it serves as the address of the structure here. -/
structure JobProcessData where
  pid : Pid
  process : ProcessType
  /-- the script that is fed to the shell once the set-up has succeeded -/
  script : Option String
  status : Int
  valid : Bool
  deriving DecidableEq, Repr

/-- `Job`.  `processData` is the table of the latest set-up data of each
process; `datas` are all that have been allocated, since an older one lives on,
with its pipe, until the job is freed.  `readyPipes` are the children that hold
the writing end of a readiness pipe of the job. -/
structure Job where
  id : JobId
  name : String
  /-- the `class` pointer -/
  cls : JobClass
  classId : ClassId
  goal : JobGoal
  state : JobState
  env : Option (List String)
  startEnv : Option (List String)
  stopEnv : Option (List String)
  stopOn : Option EventOperator
  fds : List Int
  pid : ProcessType → Pid
  blocker : Option EventId
  blocking : List Blocked
  /-- the time at which the kill timer is due -/
  killTimer : Option Int
  killProcess : Option ProcessType
  failed : Bool
  failedProcess : Option ProcessType
  exitStatus : Int
  respawnTime : Int
  respawnCount : Int
  traceForks : Nat
  traceState : TraceState
  processData : ProcessType → Option Pid
  datas : List JobProcessData
  readyPipes : List Pid

/-- `job_new`: a stopped job of a class, with a copy of its `stop on`
condition. -/
def jobNew (id : JobId) (classId : ClassId) (cls : JobClass) (name : String)
    (stopOn : Option EventOperator) : Job :=
  { id, name, cls, classId
    goal := .stop
    state := .waiting
    env := none
    startEnv := none
    stopEnv := none
    stopOn
    fds := []
    pid := fun _ => 0
    blocker := none
    blocking := []
    killTimer := none
    killProcess := none
    failed := false
    failedProcess := none
    exitStatus := 0
    respawnTime := 0
    respawnCount := 0
    traceForks := 0
    traceState := .none
    processData := fun _ => none
    datas := []
    readyPipes := [] }

namespace Job

/-- `job->class->process[process] != NULL`. -/
def has (job : Job) (p : ProcessType) : Bool :=
  (job.cls.process p).isSome

/-- `job->pid[process] > 0`. -/
def alive (job : Job) (p : ProcessType) : Bool :=
  decide (0 < job.pid p)

/-- `job->pid[process] = pid`. -/
def setPid (job : Job) (p : ProcessType) (pid : Pid) : Job :=
  { job with pid := Function.update job.pid p pid }

/-- `job->goal = goal`. -/
def setGoal (job : Job) (goal : JobGoal) : Job :=
  { job with goal := goal }

/-- The set-up data at an address. -/
def data? (job : Job) (pid : Pid) : Option JobProcessData :=
  job.datas.find? fun d => d.pid = pid

/-- Write to the set-up data at an address. -/
def modifyData (job : Job) (pid : Pid) (f : JobProcessData → JobProcessData) : Job :=
  { job with datas := job.datas.map fun d => if d.pid = pid then f d else d }

end Job

/-- A job after a call that may have freed it.  A freed job still records
what it contained, for the release of what it referred to. -/
inductive JobRef where
  | live (job : Job)
  | freed (job : Job)

namespace JobRef

/-- Access the job in the function `fn`, which must not have been freed. -/
def get (fn : SourceFn) : JobRef → Except Fault Job
  | live job => .ok job
  | freed _ => .error (.useAfterFree fn)

/-- What the job contains, or contained when it was freed. -/
def job : JobRef → Job
  | live job => job
  | freed job => job

/-- The job is still there and satisfies `P`. -/
def Live (P : Job → Prop) : JobRef → Prop
  | live job => P job
  | freed _ => False

/-- The job satisfies `P`, or it has been freed. -/
def All (P : Job → Prop) : JobRef → Prop
  | live job => P job
  | freed _ => True

@[simp] theorem live_live {P : Job → Prop} {job : Job} : Live P (live job) ↔ P job := Iff.rfl

@[simp] theorem live_freed {P : Job → Prop} {job : Job} : Live P (freed job) ↔ False := Iff.rfl

@[simp] theorem all_live {P : Job → Prop} {job : Job} : All P (live job) ↔ P job := Iff.rfl

@[simp] theorem all_freed {P : Job → Prop} {job : Job} : All P (freed job) ↔ True := Iff.rfl

@[simp] theorem get_live {fn : SourceFn} {job : Job} : get fn (live job) = .ok job := rfl

@[simp] theorem get_freed {fn : SourceFn} {job : Job} :
    get fn (freed job) = .error (.useAfterFree fn) := rfl

end JobRef

end Startup
