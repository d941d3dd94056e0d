import Startup.Environ
import Startup.Lib.Sat

/-!
# Events, blocked entries and the state shared by all jobs

Objects that the source links by pointer are named by numbers here: an
`EventId` is the address of an `Event`, a `JobId` the address of a `Job`.
`Sys` is what every function of the job machinery reads and writes besides
the job it is given: the event queue (`init/event.c`), the supply of
addresses and process ids, and a log of what init did to the outside.
-/

namespace Startup

abbrev EventId := Nat
abbrev JobId := Nat
abbrev ClassId := Nat
abbrev Pid := Nat
abbrev MessageId := Nat

/-- The functions whose assertions and accesses a run can fail in. -/
inductive SourceFn where
  | jobChangeGoal
  | jobChangeState
  | jobNextState
  | jobFinished
  | jobEmitEvent
  | jobProcessStart
  | jobProcessKill
  | jobProcessKillTimer
  | jobProcessTerminated
  | jobProcessTraceNew
  | jobProcessTraceNewChild
  | jobProcessChildReader
  | jobProcessCloseHandler
  | jobChildErrorHandler
  | jobClassStart
  | jobClassRestart
  | eventBlock
  | eventUnblock
  | eventPending
  | eventFinished
  | eventOperatorEnvironment
  | eventOperatorFds
  | eventOperatorEvents
  | jobClassConsider
  | jobClassReconsider
  | jobClassEventBlock
  | jobClassInductJob
  | jobClassInductJobs
  | confSelectJob
  | confFileDestroy
  | parseJob
  | stateFromString
  | eventNew
  | eventDeserialise
  | eventFromIndex
  | eventOperatorNew
  | eventOperatorDeserialiseAll
  | jobDeserialise
  | jobDeserialiseKillTimer
  | jobProcessSetKillTimer
  | jobProcessAdjKillTimer
  | jobClassDeserialiseJobEnviron
  | stateDeserialiseBlocked
  | stateDeserialiseBlocking
  | stateDeserialiseResolveDeps
  | processDeserialiseAll
  | stateRlimitDeserialiseAll
  | stateDataToHex
  | stateHexToData
  | cgroupNew
  | cgroupNameNew
  | cgroupSettingNew
  | cgroupAdd
  | cgroupSetup
  | stateRead
  | stateWrite
  | logHandleUnflushed
  | logClearUnflushed
  | jobClassNew
  | jobClassAddSafe
  | jobClassDeserialise
  deriving DecidableEq, Repr

/-- The ways a call can go wrong: an `nih_assert` of a function fails, or a
function reads or writes an object that has been freed. -/
inductive Fault where
  | assertFailed (fn : SourceFn)
  | useAfterFree (fn : SourceFn)
  | outOfFuel
  deriving DecidableEq, Repr

/-- `nih_assert` in the function `fn`. -/
abbrev nihAssert (fn : SourceFn) (b : Bool) : Except Fault Unit :=
  Lib.check (.assertFailed fn) b

/-- An assertion: the rest runs when it holds. -/
theorem sat_assert {fn : SourceFn} {b : Bool} {α : Type} {m : Except Fault α}
    {Q : α → Prop} {E : Fault → Prop} (hf : b = false → E (.assertFailed fn))
    (hm : b = true → Lib.Sat m Q E) : Lib.Sat (nihAssert fn b >>= fun _ => m) Q E := by
  rw [Lib.sat_bind, Lib.sat_check]
  split
  · rename_i hb
    exact hm hb
  · rename_i hb
    exact hf (by simpa using hb)

/-- What the functions read from the kernel and the libraries.  A step of a
run has a value of its own, so that two steps may read different things. -/
structure Host where
  /-- `apparmor_available ()` -/
  apparmorAvailable : Bool
  /-- the `disable_respawn` option of init -/
  disableRespawn : Bool
  /-- whether `kill (2)` succeeds -/
  killOk : Bool
  /-- whether `ptrace (2)` of a process succeeds -/
  ptraceOk : Pid → Bool
  /-- `cgroup_manager_available ()` -/
  cgroupManagerAvailable : Bool
  /-- the seconds of `CLOCK_MONOTONIC` -/
  now : Int
  /-- `getenv (3)` in the environment of init -/
  getenv : String → Option String
  /-- `nih_signal_to_name` of libnih -/
  signalToName : Int → Option String
  /-- `fnmatch (3)` of a pattern and a string, without flags -/
  fnmatch : String → String → Bool

/-- A host on which everything that may succeed does. -/
def plainHost : Host where
  apparmorAvailable := true
  disableRespawn := false
  killOk := true
  ptraceOk := fun _ => true
  cgroupManagerAvailable := true
  now := 0
  getenv := fun _ => none
  signalToName := fun _ => none
  fnmatch := fun pattern string => pattern == string

/-- `ProcessType` without `PROCESS_INVALID`, which is `none` where it can occur. -/
inductive ProcessType where
  | main
  | preStart
  | postStart
  | preStop
  | postStop
  | security
  deriving DecidableEq, Repr

/-- `process_name`. -/
def ProcessType.name : ProcessType → String
  | .main => "main"
  | .preStart => "pre-start"
  | .postStart => "post-start"
  | .preStop => "pre-stop"
  | .postStop => "post-stop"
  | .security => "security"

/-! ## Blocked entries and events -/

/-- `Blocked`: what an entry of a `blocking` list refers to. -/
inductive Blocked where
  | job (job : JobId)
  | event (event : EventId)
  | emitMethod (message : MessageId)
  | jobStartMethod (message : MessageId)
  | jobStopMethod (message : MessageId)
  | jobRestartMethod (message : MessageId)
  | instanceStartMethod (message : MessageId)
  | instanceStopMethod (message : MessageId)
  | instanceRestartMethod (message : MessageId)
  deriving DecidableEq, Repr

/-- `EventProgress`. -/
inductive EventProgress where
  | pending
  | handling
  | finished
  deriving DecidableEq, Repr

/-- `Event`.  The variables of an event are always of the form `KEY=VALUE`:
`control_emit_event` rejects others and init emits no others. -/
structure Event where
  id : EventId
  name : String
  env : List String
  fd : Int
  progress : EventProgress
  failed : Bool
  blockers : Nat
  blocking : List Blocked
  valid : environAllValid env = true
  deriving DecidableEq

/-! ## The shared state -/

/-- What init does to the outside, in the order of the calls. -/
inductive Action where
  /-- a process of a job was spawned -/
  | spawned (job : JobId) (process : ProcessType) (pid : Pid)
  /-- a signal was sent to the process group of a process -/
  | signalled (pid : Pid) (signal : Int)
  /-- the end of a process was handled -/
  | exited (pid : Pid)
  /-- a D-Bus method call was answered, with its reply or with an error -/
  | replied (message : MessageId) (ok : Bool)
  /-- `PTRACE_CONT` with the signal to deliver, or `PTRACE_DETACH` -/
  | continued (pid : Pid) (signal : Int)
  | detached (pid : Pid)
  /-- `event_operator_handle` was called for the `stop_on` of a job or the
  `start_on` of a class -/
  | offeredStop (event : EventId) (job : JobId)
  | offeredStart (event : EventId) (cls : ClassId)
  /-- the event made that condition true, so that the job is stopped or an
  instance of the class is started -/
  | stoppedFor (event : EventId) (job : JobId)
  | startedFor (event : EventId) (cls : ClassId)
  deriving DecidableEq, Repr

/-- The state shared by all jobs.  `log` has the latest action first. -/
structure Sys where
  events : List Event
  lastEvent : EventId
  lastPid : Pid
  log : List Action
  deriving DecidableEq

/-- Add an action to the log. -/
def Sys.act (sys : Sys) (a : Action) : Sys :=
  { sys with log := a :: sys.log }

/-- `event_new`: a pending event at the end of the queue, and its address.
`fd` and `blocking` are what the caller adds to the new event at once. -/
def eventNew (sys : Sys) (name : String) (env : List String)
    (valid : environAllValid env = true) (fd : Int) (blocking : List Blocked) :
    Sys × EventId :=
  let e := sys.lastEvent + 1
  let event : Event :=
    { id := e, name, env, fd, progress := .pending, failed := false, blockers := 0,
      blocking, valid }
  ({ sys with events := sys.events ++ [event], lastEvent := e }, e)

/-- The event at an address. -/
def Sys.event? (sys : Sys) (e : EventId) : Option Event :=
  sys.events.find? fun ev => ev.id = e

/-- Write to the event at an address. -/
def Sys.modifyEvent (sys : Sys) (e : EventId) (f : Event → Event) : Sys :=
  { sys with events := sys.events.map fun ev => if ev.id = e then f ev else ev }

/-- `event_block`. -/
def eventBlock (sys : Sys) (e : EventId) : Except Fault Sys :=
  match sys.event? e with
  | none => .error (.useAfterFree .eventBlock)
  | some _ => .ok (sys.modifyEvent e fun ev => { ev with blockers := ev.blockers + 1 })

/-- `event_unblock`. -/
def eventUnblock (sys : Sys) (e : EventId) : Except Fault Sys :=
  match sys.event? e with
  | none => .error (.useAfterFree .eventUnblock)
  | some ev => do
    nihAssert .eventUnblock (ev.blockers > 0)
    .ok (sys.modifyEvent e fun ev => { ev with blockers := ev.blockers - 1 })

end Startup
