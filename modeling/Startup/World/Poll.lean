import Startup.World.Conf

/-!
# Events and requests (`init/event.c`, `init/job_class.c`, `init/control.c`, `init/state.c`)

* the events that a client emits: `controlEmitEvent`;
* the handling of a pending event, `eventPendingHandleJobs`, and the end of
  one that nobody blocks, `eventFinished`; `eventPollEvent` is what `event_poll`
  does for one event of the list;
* `jobClassStart` and `jobClassInductJobs`;
* `stateFromString`: what a re-execution restores.
-/

namespace Startup

open Lib

/-! ## Emitting an event -/

/-- `control_emit_event_with_file`, for a name that is not empty and variables
that are valid; `event_new` alone is a call without a message. -/
def controlEmitEvent (w : World) (message : Option MessageId) (name : String)
    (env : List String) (valid : environAllValid env = true) (wait : Bool) (file : Int) : World :=
  let blocking := if wait then message.toList.map Blocked.emitMethod else []
  let sys := (eventNew w.sys name env valid file blocking).1
  match message with
  | none => w.setSys sys
  | some m => w.setSys (if wait then sys else sys.act (.replied m true))

/-! ## Handling a pending event -/

/-- `job_class_induct_job`: whether the instance could be named. -/
def jobClassInductJob (x : Host) (w : World) (c : ClassId) : Except Fault (World × Bool) := do
  let cls ← w.getClass .jobClassInductJob c
  match cls.startOn with
  | none => .error (.assertFailed .eventOperatorEnvironment)
  | some root => do
    let env ← eventOperatorEnvironment x w.sys root (jobClassEnvironment x w cls)
      "UPSTART_EVENTS"
    match environExpand cls.config.instancePattern env with
    | .error _ => do
      let w ← resetStartOn w cls
      .ok (w, false)
    | .ok name => do
      let (w, job) ← findOrNew w cls name
      let w ← withJob w .jobClassInductJob job.id fun sys job => inductInstance x sys job root env
      let cls ← w.getClass .jobClassInductJob c
      let w ← resetStartOn w cls
      .ok (w, true)

/-- The event is offered to the `start on` condition of a class, of which an
instance is started when it has become true. -/
def offerStartOn (x : Host) (w : World) (cls : ClassState) (root : EventOperator)
    (event : Event) : Except Fault (World × Bool) := do
  let (sys, root, matched) ← handleOperator x w.sys root event []
  let sys := sys.act (.offeredStart event.id cls.id)
  let w := (w.setSys sys).putClass { cls with startOn := some root }
  if matched && root.value then
    jobClassInductJob x (w.setSys (w.sys.act (.startedFor event.id cls.id))) cls.id
  else .ok (w, true)

/-- A class that needs the cgroup manager, which is not there: the events that
it needs are kept, until one of them matches. -/
def awaitCgroupManager (x : Host) (w : World) (cls : ClassState) (root : EventOperator)
    (event : Event) : Except Fault World :=
  if cls.cgmanagerWait then .ok w
  else do
    let (sys, root, matched) ← handleOperator x w.sys root event []
    let sys := sys.act (.offeredStart event.id cls.id)
    .ok ((w.setSys sys).putClass { cls with startOn := some root, cgmanagerWait := matched })

/-- `event_pending_handle_jobs` for the `start on` condition of a class. -/
def handleStartOn (x : Host) (w : World) (c : ClassId) (event : Event) :
    Except Fault (World × Bool) := do
  let cls ← w.getClass .eventPending c
  match cls.startOn with
  | none => .ok (w, true)
  | some root =>
    if !cls.config.cgroups then offerStartOn x w cls root event
    else if !x.cgroupManagerAvailable then do
      let w ← awaitCgroupManager x w cls root event
      .ok (w, true)
    else if !cls.cgmanagerWait then offerStartOn x w cls root event
    else do
      -- the matches from before the manager was there are given up
      let w ← resetStartOn w { cls with cgmanagerWait := false }
      offerStartOn x w { cls with cgmanagerWait := false, startOn := some (eventOperatorReset root) }
        (eventOperatorReset root) event

/-- `event_pending_handle_jobs` for the `stop on` conditions of the instances of
a class. -/
def handleInstances (x : Host) (event : Event) (w : World) (jobs : List JobId) :
    Except Fault World :=
  jobs.foldlM (fun w id => withJob w .eventPending id fun sys job =>
    handleStopOn x sys job event) w

/-- The loop of `event_pending_handle_jobs` over the classes.  It ends with the
first class of which no instance could be named. -/
def handleClasses (x : Host) (o : HashOrder) (event : Event) :
    World → List ClassId → Except Fault World
  | w, [] => .ok w
  | w, c :: cs => do
    let w ← handleInstances x event w (o.order ((w.instances c).map Job.id))
    match ← handleStartOn x w c event with
    | (w, true) => handleClasses x o event w cs
    | (w, false) => .ok w

/-- `event_pending_handle_jobs`.  No class and no instance leaves its table
during the loop, so that it is over those that are there at the start. -/
def eventPendingHandleJobs (x : Host) (o : HashOrder) (w : World) (event : Event) :
    Except Fault World :=
  handleClasses x o event w (o.order (w.registered.items.map Registration.cls))

/-! ## The end of an event -/

/-- One entry of the list in `event_finished`, which is freed afterwards. -/
def finishEntry (x : Host) (e : EventId) (w : World) (entry : Blocked) : Except Fault World := do
  let w ← match entry with
    | .job id => withJob w .eventFinished id (blockerFinished x)
    | .emitMethod m =>
      match w.sys.event? e with
      | none => .error (.useAfterFree .eventFinished)
      | some event => .ok (w.setSys (w.sys.act (.replied m (!event.failed))))
    | _ => .error (.assertFailed .eventFinished)
  .ok (w.setSys (w.sys.modifyEvent e fun ev => { ev with blocking := ev.blocking.drop 1 }))

/-- The event that follows a failed one. -/
def failedEvent (sys : Sys) (event : Event) : Sys :=
  if event.failed && !"/failed".toList.isSuffixOf event.name.toList then
    (eventNew sys (event.name ++ "/failed") event.env event.valid (-1) []).1
  else sys

/-- The event at an address is freed. -/
def Sys.removeEvent (sys : Sys) (e : EventId) : Sys :=
  { sys with events := sys.events.filter fun ev => ev.id ≠ e }

/-- `event_finished`. -/
def eventFinished (x : Host) (w : World) (e : EventId) : Except Fault World :=
  match w.sys.event? e with
  | none => .error (.useAfterFree .eventFinished)
  | some event => do
    nihAssert .eventFinished (event.progress = .finished)
    let w ← event.blocking.foldlM (finishEntry x e) w
    match w.sys.event? e with
    | none => .error (.useAfterFree .eventFinished)
    | some event => .ok (w.setSys ((failedEvent w.sys event).removeEvent e))

/-- `event_pending`. -/
def eventPending (x : Host) (o : HashOrder) (w : World) (event : Event) : Except Fault World :=
  let sys := w.sys.modifyEvent event.id fun ev => { ev with progress := .handling }
  eventPendingHandleJobs x o (w.setSys sys) event

/-- What `event_poll` does for an event that is not pending any more. -/
def pollHandled (x : Host) (w : World) (e : EventId) : Except Fault World :=
  match w.sys.event? e with
  | none => .error (.useAfterFree .eventPending)
  | some event =>
    if event.progress = .handling ∧ event.blockers ≠ 0 then .ok w
    else
      let sys := w.sys.modifyEvent e fun ev => { ev with progress := .finished }
      eventFinished x (w.setSys sys) e

/-- `event_poll` for one event of the list. -/
def eventPollEvent (x : Host) (o : HashOrder) (w : World) (e : EventId) : Except Fault World :=
  match w.sys.event? e with
  | none => .ok w
  | some event =>
    if event.progress = .pending then do
      let w ← eventPending x o w event
      pollHandled x w e
    else pollHandled x w e

/-! ## Requests for a class -/

/-- `job_class_start`. -/
def jobClassStart (x : Host) (w : World) (c : ClassId) (message : MessageId)
    (env : List String) (wait : Bool) : Except Fault World := do
  let cls ← w.getClass .jobClassStart c
  let refused := w.setSys (w.sys.act (.replied message false))
  if cls.config.cgroups && !x.cgroupManagerAvailable then .ok refused
  else if !environAllValid env then .ok refused
  else
    let env := environAppend x.getenv (jobClassEnvironment x w cls) true env
    match environExpand cls.config.instancePattern env with
    | .error _ => .ok refused
    | .ok name => do
      let (w, job) ← findOrNew w cls name
      withJob w .jobClassStart job.id fun sys job =>
        jobClassStartInstance x sys job env message wait

/-- `job_class_induct_jobs` for one class. -/
def inductWaiting (x : Host) (w : World) (c : ClassId) : Except Fault World := do
  let cls ← w.getClass .jobClassInductJobs c
  match cls.startOn with
  | none => .ok w
  | some root =>
    if !cls.cgmanagerWait then .ok w
    else do
      nihAssert .jobClassInductJobs root.value
      let (w, _) ← jobClassInductJob x w c
      let cls ← w.getClass .jobClassInductJobs c
      resetStartOn w { cls with cgmanagerWait := false }

/-- `job_class_induct_jobs`, when the cgroup manager has become available. -/
def jobClassInductJobs (x : Host) (o : HashOrder) (w : World) : Except Fault World := do
  nihAssert .jobClassInductJobs x.cgroupManagerAvailable
  (o.order (w.registered.items.map Registration.cls)).foldlM (inductWaiting x) w

/-! ## Re-execution -/

/-- The entries that are written to the state and read back: the requests of
D-Bus clients are not. -/
def Blocked.survives : Blocked → Bool
  | .job _ | .event _ => true
  | _ => false

/-- `job_serialise` and `job_deserialise`: of the set-up data only the latest of
each process are kept, while they are valid, and no readiness pipe is
watched. -/
def Job.restore (job : Job) : Job :=
  let latest (d : JobProcessData) : Bool := d.valid && job.processData d.process = some d.pid
  { job with
    blocking := job.blocking.filter Blocked.survives
    datas := job.datas.filter latest
    processData := fun p => (job.processData p).filter fun pid =>
      job.datas.any fun d => d.pid = pid && d.valid
    readyPipes := [] }

/-- `event_serialise` and `event_deserialise`. -/
def Event.restore (event : Event) : Event :=
  { event with blocking := event.blocking.filter Blocked.survives }

/-- The classes that are written to the state, with their instances. -/
def World.serialised (w : World) (cls : ClassState) : Bool :=
  w.getRegistered cls.config.name = some cls.id

/-- A file after `job_class_deserialise` of all classes: of those that it is found for, it
belongs to the last. -/
def restoreFile (w : World) (file : ConfFile) : ConfFile :=
  let owner := w.registered.items.reverse.find? fun r =>
    match confFileFind w r.name with
    | none => false
    | some found => found.source = file.source ∧ found.path = file.path
  { file with job := owner.map Registration.cls }

/-- A stateful re-execution: `state_to_string`, then `state_from_string`.  A job
with a kill timer fails `nih_assert (job->kill_process)`, since
`PROCESS_MAIN` is zero. -/
def stateFromString (w : World) : Except Fault World := do
  nihAssert .stateFromString (w.jobs.items.all fun job =>
    !(job.killTimer.isSome && job.killProcess = some .main))
  nihAssert .stateFromString (w.jobs.items.all fun job =>
    (job.blocking.filterMap fun b => match b with | .event e => some e | _ => none).all fun e =>
      (w.sys.event? e).any fun ev => ev.blockers ≠ 0)
  .ok { w with
    sys := { w.sys with events := w.sys.events.map Event.restore }
    classes := w.classes.filter w.serialised
    jobs := (w.jobs.filter fun job => (w.classes.get? job.classId).any w.serialised).map
      Job.restore fun _ => rfl
    files := w.files.map (restoreFile w) }

end Startup
