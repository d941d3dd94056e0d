import Startup.World.Machine

/-!
# The shutdown of a session (`init/quiesce.c`)

A session init is asked to shut down by the session, when the user logs out, or
by the system.  It emits `session-end`, and goes through the phases of
`QuiescePhase`: a time to wait for the jobs that `session-end` starts, then a time
to kill those that are left, then the end.

* `quiesce` is the request, `quiesceWaitCallback` the timer that runs every
  second, and `quiesceComplete` the short cut that `event_pending_handle_jobs`
  takes when no instance is left;
* `sessionStep` puts them together with everything else that happens to init.

`History` records what the phases are for: whether the event has been handled,
the jobs that it started and that are still there, and how long the phases took.
-/

namespace Startup

open Lib

/-- `QuiesceRequester`, without `QUIESCE_REQUESTER_INVALID`. -/
inductive QuiesceRequester where
  | system
  | session
  deriving DecidableEq, Repr

/-- `QuiescePhase`. -/
inductive QuiescePhase where
  | notQuiesced
  | wait
  | kill
  | cleanup
  deriving DecidableEq, Repr

/-- The order of the phases. -/
def QuiescePhase.rank : QuiescePhase → Nat
  | .notQuiesced => 0
  | .wait => 1
  | .kill => 2
  | .cleanup => 3

/-- `QUIESCE_DEFAULT_JOB_RUNTIME`. -/
def quiesceDefaultJobRuntime : Int := 5

/-- `JOB_DEFAULT_KILL_TIMEOUT`. -/
def jobDefaultKillTimeout : Int := 5

/-- The static variables of `quiesce.c`.  `finalising` is set when
`nih_main_loop_exit` has been called, `timer` while the periodic timer is there. -/
structure Quiesce where
  phase : QuiescePhase := .notQuiesced
  requester : Option QuiesceRequester := none
  maxKillTimeout : Int := 0
  phaseTime : Int := 0
  startTime : Int := 0
  sessionEndJobs : Bool := false
  finalising : Bool := false
  timer : Bool := false

/-- What has happened since the request: the `session-end` event and whether it
has been handled, the jobs that it started and that are still there, and the times
after which the wait and the kill phase were left. -/
structure History where
  sessionEnd : Option EventId := none
  handled : Bool := false
  unfinished : List JobId := []
  waited : Int := 0
  killed : Int := 0

/-- A session init. -/
structure SessionInit where
  world : World
  quiesce : Quiesce
  history : History

/-- A fault of init, or a failed assertion of `quiesce.c`. -/
inductive SessionFault where
  | world (fault : Fault)
  | assertFailed
  deriving DecidableEq, Repr

/-- A call of a function of init. -/
def ofWorld {α : Type} : Except Fault α → Except SessionFault α
  | .ok a => .ok a
  | .error f => .error (.world f)

/-- `nih_assert`. -/
abbrev quiesceAssert (b : Bool) : Except SessionFault Unit :=
  check .assertFailed b

/-! ## The jobs -/

/-- `job_process_jobs_running`: whether a job has a process. -/
def jobProcessJobsRunning (w : World) : Bool :=
  w.registered.items.any fun r => (w.instances r.cls).any fun job =>
    [.main, .preStart, .postStart, .preStop, .postStop, .security].any fun p => job.pid p ≠ 0

/-- `job_process_stop_all`. -/
def jobProcessStopAll (x : Host) (o : HashOrder) (w : World) : Except Fault World :=
  (o.order (w.registered.items.map Registration.cls)).foldlM (fun w c =>
    (o.order ((w.instances c).map Job.id)).foldlM (fun w id =>
      withJob w .jobChangeGoal id fun sys job => jobChangeGoal x sys job .stop) w) w

/-- `job_class_max_kill_timeout`. -/
def jobClassMaxKillTimeout (w : World) : Int :=
  w.registered.items.foldl (fun timeout r =>
    (w.instances r.cls).foldl (fun timeout job =>
      if job.cls.killTimeout > timeout then job.cls.killTimeout else timeout) timeout)
    jobDefaultKillTimeout

/-- No class in the hash table has an instance. -/
def noInstances (w : World) : Bool :=
  w.registered.items.all fun r => (w.instances r.cls).isEmpty

/-- Whether one of the leaves of a condition matches the event. -/
def leafMatches (x : Host) (event : Event) : EventOperator → Bool
  | .eventMatch name env _ _ => eventOperatorMatch x name env event []
  | .eventAnd _ l r => leafMatches x event l || leafMatches x event r
  | .eventOr _ l r => leafMatches x event l || leafMatches x event r

/-- `quiesce_event_match`. -/
def quiesceEventMatch (x : Host) (w : World) (event : Event) : Bool :=
  w.registered.items.any fun r =>
    ((w.classes.get? r.cls).bind ClassState.startOn).any (leafMatches x event)

/-! ## The end -/

/-- `quiesce_finalise`. -/
def quiesceFinalise (s : SessionInit) : Except SessionFault SessionInit := do
  quiesceAssert (s.quiesce.startTime ≠ 0)
  quiesceAssert (s.quiesce.phase = .cleanup)
  .ok { s with quiesce := { s.quiesce with finalising := true } }

/-- `quiesce_complete`. -/
def quiesceComplete (s : SessionInit) : Except SessionFault SessionInit :=
  quiesceFinalise { s with quiesce := { s.quiesce with phase := .cleanup } }

/-! ## The request -/

/-- `quiesce_reason`, which is translated by `gettext`. -/
def QuiesceRequester.reason : QuiesceRequester → String
  | .session => "logout"
  | .system => "shutdown"

/-- The `session-end` event. -/
def sessionEndEvent (x : Host) (sys : Sys) (requester : QuiesceRequester) : Sys × EventId :=
  eventNew sys "session-end" (environSet x [] "TYPE" requester.reason)
    (environAllValid_set x (show environAllValid [] = true from rfl) "TYPE" requester.reason)
    (-1) []

/-- The beginning of the kill phase. -/
def beginKill (x : Host) (o : HashOrder) (s : SessionInit) : Except SessionFault SessionInit := do
  let w ← ofWorld (jobProcessStopAll x o s.world)
  .ok { s with
    world := w
    quiesce := { s.quiesce with
      phase := .kill, maxKillTimeout := jobClassMaxKillTimeout s.world } }

/-- `quiesce`, at the time `now`. -/
def quiesce (x : Host) (o : HashOrder) (s : SessionInit) (requester : QuiesceRequester)
    (now : Int) : Except SessionFault SessionInit :=
  if s.quiesce.phase ≠ .notQuiesced then .ok s
  else
    let (sys, e) := sessionEndEvent x s.world.sys requester
    let w := s.world.setSys sys
    let s : SessionInit :=
      { world := w
        quiesce := { s.quiesce with
          requester := some requester, startTime := now, phaseTime := now, timer := true }
        history := { s.history with sessionEnd := some e } }
    match requester with
    | .system => beginKill x o s
    | .session =>
      if (w.sys.event? e).any (quiesceEventMatch x w) then do
        let w ← ofWorld (jobProcessStopAll x o w)
        .ok { s with
          world := w
          quiesce := { s.quiesce with phase := .wait, sessionEndJobs := true } }
      else beginKill x o s

/-! ## The timer -/

/-- The wait phase has lasted long enough. -/
def Quiesce.waitTimedOut (q : Quiesce) (now : Int) : Bool :=
  now - q.phaseTime ≥ quiesceDefaultJobRuntime

/-- The kill phase has lasted long enough. -/
def Quiesce.killTimedOut (q : Quiesce) (now : Int) : Bool :=
  q.phase = .kill && now - q.phaseTime > q.maxKillTimeout

/-- The label `out` of `quiesce_wait_callback`. -/
def waitOut (s : SessionInit) : Except SessionFault SessionInit := do
  let s ← quiesceComplete s
  .ok { s with quiesce := { s.quiesce with timer := false } }

/-- The last check of `quiesce_wait_callback`. -/
def waitOutUnlessRunning (s : SessionInit) : Except SessionFault SessionInit :=
  if jobProcessJobsRunning s.world then .ok s else waitOut s

/-- `quiesce_wait_callback`, at the time `now`; `later` is the time when a new
phase begins. -/
def quiesceWaitCallback (x : Host) (o : HashOrder) (s : SessionInit) (now later : Int) :
    Except SessionFault SessionInit := do
  quiesceAssert (s.quiesce.phaseTime ≠ 0)
  quiesceAssert s.quiesce.requester.isSome
  match s.quiesce.phase with
  | .kill => do
    quiesceAssert (s.quiesce.maxKillTimeout ≠ 0)
    if s.quiesce.killTimedOut now then
      waitOut { s with history := { s.history with killed := now - s.quiesce.phaseTime } }
    else waitOutUnlessRunning s
  | .wait =>
    if s.quiesce.waitTimedOut now ||
        (s.quiesce.sessionEndJobs && !jobProcessJobsRunning s.world) ||
        !jobProcessJobsRunning s.world then do
      let s ← beginKill x o { s with
        quiesce := { s.quiesce with phaseTime := later }
        history := { s.history with waited := now - s.quiesce.phaseTime } }
      waitOutUnlessRunning s
    else waitOutUnlessRunning s
  | .notQuiesced | .cleanup => .error .assertFailed

/-! ## Events -/

/-- `event_pending_handle_jobs` up to the check for a shutdown, and whether it
comes to that check. -/
def handleClassesToEnd (x : Host) (o : HashOrder) (event : Event) :
    World → List ClassId → Except Fault (World × Bool)
  | w, [] => .ok (w, true)
  | w, c :: cs => do
    let w ← handleInstances x event w (o.order ((w.instances c).map Job.id))
    match ← handleStartOn x w c event with
    | (w, true) => handleClassesToEnd x o event w cs
    | (w, false) => .ok (w, false)

/-- The jobs that an event has started: the goal is to start, and it was not
before, or the event had stopped the job first. -/
def startedBy (before after : World) (e : EventId) : List JobId :=
  (after.jobs.items.filter fun job => job.goal = .start &&
    (!(before.jobs.get? job.id).any (fun old => old.goal = .start) ||
      after.sys.log.contains (.stoppedFor e job.id))).map Job.id

/-- The job is still there. -/
def World.lives (w : World) (id : JobId) : Bool := (w.jobs.get? id).isSome

/-- The jobs that are gone are finished. -/
def SessionInit.settle (s : SessionInit) : SessionInit :=
  { s with history := { s.history with unfinished := s.history.unfinished.filter s.world.lives } }

/-- The record after an event has been offered to all jobs. -/
def History.offered (h : History) (before after : World) (e : EventId) : History :=
  if h.sessionEnd = some e ∧ h.handled = false then
    { h with handled := true, unfinished := startedBy before after e }
  else h

/-- Init after an event has been offered to all jobs. -/
def SessionInit.offered (s : SessionInit) (w : World) (e : EventId) : SessionInit :=
  SessionInit.settle { s with world := w, history := s.history.offered s.world w e }

/-- The end of `event_pending_handle_jobs`: a shutdown is completed when no
instance is left. -/
def completeIfEmpty (s : SessionInit) (toEnd : Bool) : Except SessionFault SessionInit :=
  if toEnd && s.quiesce.phase ≠ .notQuiesced && noInstances s.world then quiesceComplete s
  else .ok s

/-- `event_pending`. -/
def sessionPending (x : Host) (o : HashOrder) (s : SessionInit) (event : Event) :
    Except SessionFault SessionInit := do
  let sys := s.world.sys.modifyEvent event.id fun ev => { ev with progress := .handling }
  let (w, toEnd) ← ofWorld (handleClassesToEnd x o event (s.world.setSys sys)
    (o.order (s.world.registered.items.map Registration.cls)))
  completeIfEmpty (s.offered w event.id) toEnd

/-- `event_poll` for an event that has been offered to all jobs. -/
def sessionHandled (x : Host) (s : SessionInit) (e : EventId) :
    Except SessionFault SessionInit := do
  let w ← ofWorld (pollHandled x s.world e)
  .ok { s with world := w }

/-- `event_poll` for one event of the list. -/
def sessionPollEvent (x : Host) (o : HashOrder) (s : SessionInit) (e : EventId) :
    Except SessionFault SessionInit :=
  match s.world.sys.event? e with
  | none => .ok s
  | some event =>
    if event.progress = .pending then do
      let s ← sessionPending x o s event
      sessionHandled x s e
    else sessionHandled x s e

/-! ## Runs -/

/-- What can happen to a session init.  A re-execution begins a new run. -/
inductive SessionInput where
  | world (input : WorldInput)
  | poll (event : EventId) (order : HashOrder)
  | quiesce (requester : QuiesceRequester) (now : Int) (order : HashOrder)
  | timer (now later : Int) (order : HashOrder)

/-- What an input makes init do. -/
def sessionInput (x : Host) (s : SessionInit) : SessionInput → Except SessionFault SessionInit
  | .world i => do
    let w ← ofWorld (worldStep x s.world i)
    .ok { s with world := w }
  | .poll e o => sessionPollEvent x o s e
  | .quiesce requester now o => quiesce x o s requester now
  | .timer now later o => quiesceWaitCallback x o s now later

/-- The step that an input makes init take. -/
def sessionStep (x : Host) (s : SessionInit) (i : SessionInput) :
    Except SessionFault SessionInit := do
  let s ← sessionInput x s i
  .ok s.settle

/-- The inputs of `World` that are inputs of a session init as they are. -/
def WorldInput.plain : WorldInput → Prop
  | .poll _ _ | .reexec => False
  | _ => True

/-- The inputs that a session init can receive.  From the request on,
`disable_respawn` is set. -/
def SessionEnabled (x : Host) (s : SessionInit) (i : SessionInput) : Prop :=
  (s.quiesce.phase ≠ .notQuiesced → x.disableRespawn = true) ∧
    match i with
    | .world i => i.plain ∧ WorldEnabled x s.world i
    | .timer _ _ _ => s.quiesce.timer = true
    | _ => True

/-- A session init has just started. -/
structure SessionInit.Initial (s : SessionInit) : Prop where
  world : s.world.Initial
  quiesce : s.quiesce = {}
  history : s.history = {}

/-- The states of a session init in the runs whose inputs all meet a condition. -/
abbrev SessionReached (C : Host → SessionInit → SessionInput → Prop) : SessionInit → Prop :=
  Reach SessionInit.Initial
    (fun s (i : Host × SessionInput) => SessionEnabled i.1 s i.2 ∧ C i.1 s i.2)
    fun s i => sessionStep i.1 s i.2

end Startup
