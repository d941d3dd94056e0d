import Startup.Job.FrameRequest
import Startup.Lib.Run

/-!
# Runs of a job

The life of one job, from `job_new` until it is freed: requests, events, and
notifications about its processes, in any order.  A step has a host of its
own, so that what the functions read from the kernel may differ from step to
step.  Between the steps of a job the rest of init may do what it likes to the
shared state, within `Elsewhere`.
-/

namespace Startup

open Lib

/-- What can happen to a job. -/
inductive Input where
  /-- `job_change_goal` is called -/
  | changeGoal (goal : JobGoal)
  | start (message : MessageId) (wait : Bool)
  | stop (message : MessageId) (wait : Bool)
  | restart (message : MessageId) (wait : Bool)
  | classStart (env : List String) (message : MessageId) (wait : Bool)
  | classStop (env : List String) (message : MessageId) (wait : Bool)
  | classRestart (env : List String) (message : MessageId) (wait : Bool)
  /-- an event is offered to the `stop on` condition of the job -/
  | stopEvent (event : Event)
  /-- the events of the `start on` condition of the class start the job -/
  | induct (startOn : EventOperator) (env : List String)
  /-- the event that the job waits for has finished -/
  | blockerFinished
  /-- bytes from the set-up pipe of the child `pid` -/
  | childError (pid : Pid) (permanent : Bool)
  /-- the set-up pipe of the child `pid` is closed -/
  | childClosed (pid : Pid)
  /-- `SIGCHLD` for a process of the job -/
  | childEvent (process : ProcessType) (event : ChildEvent)
  /-- text from the readiness pipe of the child `pid` -/
  | readyText (pid : Pid) (buf : String)
  | killTimer
  /-- the rest of init changes the shared state -/
  | elsewhere (sys : Sys)

/-- What the rest of init may do to the shared state between two steps of a
job: addresses and process ids are not given out twice, the log only grows, the
requests that wait for the job are answered by nobody else, and the blocks that
the job holds are not given back. -/
structure Elsewhere (sys : Sys) (job : Job) (sys' : Sys) : Prop where
  lastEvent : sys.lastEvent ≤ sys'.lastEvent
  lastPid : sys.lastPid ≤ sys'.lastPid
  log : ∃ acts, sys'.log = acts ++ sys.log ∧
    ∀ m ok, Action.replied m ok ∈ acts → ∀ b ∈ job.blocking, b.message? ≠ some m
  owned : Owned sys' job

/-- The step that an input makes a job take. -/
def jobStep (x : Host) (sys : Sys) (job : Job) : Input → Except Fault (Sys × JobRef)
  | .changeGoal goal => jobChangeGoal x sys job goal
  | .start message wait => jobStart x sys job message wait
  | .stop message wait => jobStop x sys job message wait
  | .restart message wait => jobRestart x sys job message wait
  | .classStart env message wait => jobClassStartInstance x sys job env message wait
  | .classStop env message wait => jobClassStopInstance x sys job env message wait
  | .classRestart env message wait => jobClassRestartInstance x sys job env message wait
  | .stopEvent event => handleStopOn x sys job event
  | .induct startOn env => inductInstance x sys job startOn env
  | .blockerFinished => blockerFinished x sys job
  | .childError pid permanent => jobProcessChildReader x sys job pid permanent
  | .childClosed pid => jobProcessCloseHandler x sys job pid
  | .childEvent process event => jobProcessHandler x sys job process event
  | .readyText _ buf => jobProcessReadyfdReader x sys job buf
  | .killTimer => jobProcessKillTimer sys job
  | .elsewhere sys' => .ok (sys', .live job)

/-- The inputs that a job can receive.  Only `job_process_terminated` asks for
a respawn; an event that is handled is in the queue, as are those that have
matched the condition of a class; a pipe is watched until the job is freed; a
process is found by its pid. -/
def Enabled (sys : Sys) (job : Job) : Input → Prop
  | .changeGoal goal => goal ≠ .respawn
  | .stopEvent event => (sys.event? event.id).isSome = true
  | .induct startOn _ => Grounded sys startOn
  | .blockerFinished => job.blocker.isSome = true
  | .childError pid _ | .childClosed pid => (job.data? pid).isSome = true
  | .childEvent process _ => job.alive process = true
  | .readyText pid _ => pid ∈ job.readyPipes
  | .killTimer => job.killTimer.isSome = true
  | .elsewhere sys' => Elsewhere sys job sys'
  | _ => True

/-- A step of a run; nothing happens to a job that has been freed. -/
def step (s : Sys × JobRef) (i : Host × Input) : Except Fault (Sys × JobRef) :=
  match s.2 with
  | .live job => jobStep i.1 s.1 job i.2
  | .freed _ => .ok s

/-- The start of a run: a job has just been created. -/
def Created (s : Sys × JobRef) : Prop :=
  ∃ id classId cls name stopOn, s.2 = .live (jobNew id classId cls name stopOn) ∧
    Owned s.1 (jobNew id classId cls name stopOn)

/-- An input that the job can receive and that meets a condition. -/
def Admits (C : Host → Sys → Job → Input → Prop) (s : Sys × JobRef) (i : Host × Input) : Prop :=
  match s.2 with
  | .live job => Enabled s.1 job i.2 ∧ C i.1 s.1 job i.2
  | .freed _ => True

/-- The states of the runs whose inputs all meet a condition. -/
abbrev Reached (C : Host → Sys → Job → Input → Prop) : Sys × JobRef → Prop :=
  Reach Created (Admits C) step

/-- No condition. -/
abbrev Always : Host → Sys → Job → Input → Prop := fun _ _ _ _ => True

/-- The rule for invariants of a job: a new job satisfies it, and every step
keeps it. -/
theorem Reached.invariant {C : Host → Sys → Job → Input → Prop} {I : Job → Prop}
    (hinit : ∀ id classId cls name stopOn, I (jobNew id classId cls name stopOn))
    (hstep : ∀ x sys job i, I job → Enabled sys job i → C x sys job i →
      Sat (jobStep x sys job i) (fun r => r.2.All I) (fun _ => True))
    {s : Sys × JobRef} (h : Reached C s) : s.2.All I := by
  refine Reach.invariant (I := fun s => s.2.All I) ?_ ?_ h
  · rintro ⟨sys, ref⟩ ⟨id, classId, cls, name, stopOn, rfl, -⟩
    exact hinit id classId cls name stopOn
  · rintro ⟨sys, job | job⟩ ⟨x, i⟩ hI hok
    · exact hstep x sys job i hI hok.1 hok.2
    · exact hI

/-- What a step does to the shared state: a call on the job stays within its frame,
and the rest of init does what it may. -/
inductive Steps (sys : Sys) (job : Job) : Input → Sys → JobRef → Prop where
  | call {i : Input} {blocker : Option EventId} {sys' : Sys} {ref : JobRef}
      (frame : Frame sys { job with blocker := blocker } sys' ref.job) : Steps sys job i sys' ref
  | elsewhere (sys' : Sys) (may : Elsewhere sys job sys') :
      Steps sys job (.elsewhere sys') sys' (.live job)

theorem jobStep_steps {x : Host} {sys : Sys} {job : Job} {i : Input} (ho : Owned sys job)
    (hi : Enabled sys job i) :
    Sat (jobStep x sys job i) (fun r => Steps sys job i r.1 r.2) (fun _ => True) := by
  have hframed : ∀ {m} {blocker : Option EventId}, Framed sys { job with blocker := blocker } m →
      Sat m (fun r => Steps sys job i r.1 r.2) (fun _ => True) := by
    intro m blocker hm
    exact Sat.mono hm (fun _ h => .call h) fun _ _ => trivial
  cases i with
  | changeGoal goal => exact hframed (jobChangeGoal_frame ho)
  | start => exact hframed (jobStart_frame ho)
  | stop => exact hframed (jobStop_frame ho)
  | restart => exact hframed (jobRestart_frame ho)
  | classStart => exact hframed (jobClassStartInstance_frame ho)
  | classStop => exact hframed (jobClassStopInstance_frame ho)
  | classRestart => exact hframed (jobClassRestartInstance_frame ho)
  | stopEvent event => exact hframed (handleStopOn_frame ho hi)
  | induct startOn env => exact hframed (inductInstance_frame ho hi)
  | blockerFinished => exact hframed (blockerFinished_frame ho)
  | childError => exact hframed (jobProcessChildReader_frame ho)
  | childClosed => exact hframed (jobProcessCloseHandler_frame ho)
  | childEvent => exact hframed (jobProcessHandler_frame ho)
  | readyText => exact hframed (jobProcessReadyfdReader_frame ho)
  | killTimer => exact hframed jobProcessKillTimer_frame
  | elsewhere sys' => exact .elsewhere sys' hi

/-- Every step keeps the blocks that a job holds. -/
theorem jobStep_owned {x : Host} {sys : Sys} {job : Job} {i : Input} (ho : Owned sys job)
    (hi : Enabled sys job i) :
    Sat (jobStep x sys job i) (fun r => r.2.All (Owned r.1)) (fun _ => True) := by
  refine (jobStep_steps ho hi).imp fun r hr => ?_
  obtain ⟨sys', job' | job'⟩ := r
  · cases hr with
    | call frame => exact frame.owned ⟨ho.held, ho.entries, ho.linked⟩
    | elsewhere _ may => exact may.owned
  · trivial

/-- Every step only adds to the log. -/
theorem jobStep_log {x : Host} {sys : Sys} {job : Job} {i : Input} (ho : Owned sys job)
    (hi : Enabled sys job i) :
    Sat (jobStep x sys job i) (fun r => ∃ acts, r.1.log = acts ++ sys.log) (fun _ => True) := by
  refine (jobStep_steps ho hi).imp fun r hr => ?_
  obtain ⟨sys', ref⟩ := r
  cases hr with
  | call frame =>
    obtain ⟨new, hextends, -⟩ := frame.queue
    exact hextends.log
  | elsewhere _ may =>
    obtain ⟨acts, hlog, -⟩ := may.log
    exact ⟨acts, hlog⟩

/-- The queue has the blocks that a job holds, in every run. -/
theorem Reached.owned {C : Host → Sys → Job → Input → Prop} {s : Sys × JobRef}
    (h : Reached C s) : s.2.All (Owned s.1) := by
  refine Reach.invariant (I := fun s => s.2.All (Owned s.1)) ?_ ?_ h
  · rintro ⟨sys, ref⟩ ⟨id, classId, cls, name, stopOn, rfl, ho⟩
    exact ho
  · rintro ⟨sys, job | job⟩ ⟨x, i⟩ hI hok
    · exact jobStep_owned hI hok.1
    · exact hI

/-! ## Concrete runs -/

/-- A class with the given processes, each a plain command. -/
def plainClass (processes : List ProcessType) : JobClass where
  name := "plain"
  process := fun p => if p ∈ processes then some ⟨false, "/bin/" ++ p.name⟩ else none

/-- A job of a class that has just been created, with nothing else going on. -/
def newRun (cls : JobClass) : Sys × JobRef :=
  (⟨[], 0, 0, []⟩, .live (jobNew 1 1 cls "" none))

theorem reached_newRun (C : Host → Sys → Job → Input → Prop) (cls : JobClass) :
    Reached C (newRun cls) :=
  .init ⟨1, 1, cls, "", none, rfl, by simp [Job.refs, jobNew], by simp [jobNew],
    by simp [jobNew]⟩

/-- A step of a concrete run on the plain host. -/
theorem Reached.next {C : Host → Sys → Job → Input → Prop} {sys : Sys} {job : Job}
    (h : Reached C (sys, .live job)) (i : Input)
    (hi : Enabled sys job i ∧ C plainHost sys job i) {s' : Sys × JobRef}
    (hs : jobStep plainHost sys job i = .ok s') : Reached C s' :=
  .step (i := (plainHost, i)) h hi hs

end Startup
