import Startup.Job.Keeping
import Startup.Job.WakeUp

/-!
# Following a main process that forks

A job with `expect fork` or `expect daemon` lets init trace its main process.  The
kernel stops the process for each signal and at each fork and exec, tells init, and
waits for an answer.

* `Tracee`, `Stop`, `Reports`: where the kernel has the process, and what it may
  report next.
* `followStep`: a notification reaches `job_process_handler`; the answers to the
  process that has stopped are written down.
* `jobAdvance_leaves`: a job that leaves `JOB_SPAWNED` answers no process, and does
  not come back.
* `follows_main`: in every run in which no signal is reported before the first exec,
  nor for a child before its `SIGSTOP`, every stop is answered once, and the job leaves
  `JOB_SPAWNED` when its process has forked as often as it is expected to.
-/

namespace Startup

open Lib

variable {x : Host} {sys sys' : Sys} {job : Job}

/-! ## Answers -/

/-- The action lets the process `pid`, which has stopped, go on. -/
def Action.answers (pid : Pid) : Action → Bool
  | .continued p _ | .detached p => p = pid
  | _ => false

/-- The answers to a process, the latest first. -/
def Sys.answers (sys : Sys) (pid : Pid) : List Action :=
  sys.log.filter (Action.answers pid)

/-- The answers to a process since an earlier state. -/
def newAnswers (sys sys' : Sys) (pid : Pid) : List Action :=
  (sys'.answers pid).take ((sys'.answers pid).length - (sys.answers pid).length)

theorem newAnswers_eq {pid : Pid} {new : List Action}
    (h : sys'.answers pid = new ++ sys.answers pid) : newAnswers sys sys' pid = new := by
  rw [newAnswers, h]
  simp

/-- Nobody has been answered. -/
def Unanswered (sys sys' : Sys) : Prop := ∀ pid, sys'.answers pid = sys.answers pid

theorem Unanswered.of_log (h : sys'.log = sys.log) : Unanswered sys sys' := fun pid => by
  rw [Sys.answers, h]
  rfl

theorem Unanswered.of_append {acts : List Action} (h : sys'.log = acts ++ sys.log)
    (hacts : ∀ a ∈ acts, ∀ pid, a.answers pid = false) : Unanswered sys sys' := fun pid => by
  have hnone : acts.filter (Action.answers pid) = [] :=
    List.filter_eq_nil_iff.mpr fun a ha => by simp [hacts a ha pid]
  rw [Sys.answers, h, List.filter_append, hnone]
  rfl

theorem Unanswered.trans {sys'' : Sys} (h : Unanswered sys sys') (h' : Unanswered sys' sys'') :
    Unanswered sys sys'' := fun pid => (h' pid).trans (h pid)

theorem Finished.unanswered {failed : Bool} {bs : List Blocked} (h : Finished failed sys bs sys') :
    Unanswered sys sys' := by
  refine .of_append h.log fun a ha pid => ?_
  obtain ⟨m, -, rfl⟩ := List.mem_map.mp (List.mem_reverse.mp ha)
  rfl

/-- The states in which a job rests that has left `JOB_SPAWNED`, and those through which
it gets there. -/
def JobState.afterSpawned : JobState → Bool
  | .postStarting | .postStart | .running | .stopping => true
  | _ => false

/-- What a pass of the loop keeps on the way out of `JOB_SPAWNED`. -/
theorem Enters.leaves {old : JobState} {pass : Pass} (h : Enters x sys old job pass)
    (hs : job.state.afterSpawned = true) :
    pass.Holds (fun sys' job' state => Unanswered sys sys' ∧ job'.pid .main = job.pid .main ∧
      job'.state = job.state ∧ state.afterSpawned = true) (fun _ _ => False) := by
  cases h with
  | spawn p proc state =>
    have hp : p = .postStart := by
      rw [state] at hs
      cases p <;> simp [ProcessType.spawnState, JobState.afterSpawned] at hs ⊢
    subst hp
    refine ⟨fun pid => ?_, ?_, rfl, rfl⟩
    · simp [Sys.answers, processStarted, Sys.act, Action.answers]
    · simp [processStarted, Function.update]
  | noSpawn p state =>
    have hp : p = .postStart := by
      rw [state] at hs
      cases p <;> simp [ProcessType.spawnState, JobState.afterSpawned] at hs ⊢
    subst hp
    exact ⟨.of_log rfl, rfl, rfl, rfl⟩
  | skip p state =>
    have hp : p = .postStart := by
      rw [state] at hs
      cases p <;> simp [ProcessType.waitState, JobState.afterSpawned] at hs ⊢
    subst hp
    exact ⟨.of_log rfl, rfl, rfl, rfl⟩
  | wait p state => exact ⟨.of_log rfl, rfl, rfl, hs⟩
  | resumed state goal from_ finish => exact ⟨finish.unanswered, rfl, rfl, hs⟩
  | running state goal from_ emit task finish =>
    exact ⟨(Unanswered.of_log emit.log).trans finish.unanswered, rfl, rfl, hs⟩
  | runningTask state goal from_ emit => exact ⟨.of_log emit.log, rfl, rfl, hs⟩
  | stopping state from_ emit => exact ⟨.of_log emit.log, rfl, rfl, hs⟩
  | starting state | kill state | dead state | waiting state =>
    simp [state, JobState.afterSpawned] at hs

/-- At the head of the loop, on the way out of `JOB_SPAWNED`. -/
structure Departs (sys₀ : Sys) (pid : Pid) (sys : Sys) (job : Job) (state : JobState) : Prop where
  unanswered : Unanswered sys₀ sys
  pid : job.pid .main = pid
  heads : state.afterSpawned = true
  departs : job.state = .spawned → job.blocker = none

theorem jobEnterState_departs {sys₀ : Sys} {pid : Pid} {state : JobState}
    (h : Departs sys₀ pid sys job state) :
    Sat (jobEnterState x sys job.state { job with state := state })
      (Pass.Holds (Departs sys₀ pid) fun _ _ => False) (fun _ => True) := by
  refine (jobEnterState_enters x sys job.state _).mono (fun pass hpass => ?_) fun _ _ => trivial
  have hleaves := hpass.leaves h.heads
  cases pass with
  | next sys' job' state' =>
    obtain ⟨hun, hpid, hstate, hheads⟩ := hleaves
    refine ⟨h.unanswered.trans hun, hpid.trans h.pid, hheads, fun hspawned => ?_⟩
    have hafter := h.heads
    rw [show state = .spawned from hstate.symm.trans hspawned] at hafter
    cases hafter
  | freed => exact hleaves

/-- A job that leaves `JOB_SPAWNED` is not freed and keeps its main process; nobody is
answered. -/
theorem jobAdvance_leaves (hs : job.state = .spawned) (hb : job.blocker = none) :
    Sat (jobAdvance x sys job) (fun r => Unanswered sys r.1 ∧
      ∃ job', r.2 = .live job' ∧ job'.state ≠ .spawned ∧ job'.pid .main = job.pid .main)
      (fun _ => True) := by
  refine jobAdvance_rule (by rw [hs]; rfl) (fun _ => trivial) (fun hsome => ?_)
    fun state _ hf => ?_
  · simp [hb] at hsome
  have hheads : state.afterSpawned = true := by
    have hedge := hf.edge
    rw [hs] at hedge
    revert hedge
    cases state <;> simp [edge, JobState.afterSpawned]
  have hstart : Departs sys (job.pid .main) sys (job.setGoal job.goal.next) state :=
    ⟨.of_log rfl, rfl, hheads, fun _ => hb⟩
  refine (jobChangeState_passes (fun sys' j state' h _ _ => jobEnterState_departs h)
    hstart).imp fun r hr => ?_
  obtain ⟨sys', j | j⟩ := r
  · obtain ⟨state', hdeparts, hor⟩ := hr
    refine ⟨hdeparts.unanswered, j, rfl, fun hspawned => ?_, hdeparts.pid⟩
    rcases hor with heq | hsome
    · have hafter := hdeparts.heads
      rw [← heq, hspawned] at hafter
      cases hafter
    · rw [hdeparts.departs hspawned] at hsome
      cases hsome
  · exact hr.elim

/-! ## The handlers of the trace -/

theorem answers_continued (sys : Sys) (pid : Pid) (signal : Int) :
    (sys.act (.continued pid signal)).answers pid = [.continued pid signal] ++ sys.answers pid := by
  simp [Sys.answers, Sys.act, Action.answers]

theorem answers_detached (sys : Sys) (pid : Pid) :
    (sys.act (.detached pid)).answers pid = [.detached pid] ++ sys.answers pid := by
  simp [Sys.answers, Sys.act, Action.answers]

/-- A signal is delivered to a process that init follows. -/
theorem jobProcessHandler_signal (hs : job.state = .spawned) (ht : job.traceState = .normal)
    (signal : Int) :
    jobProcessHandler x sys job .main (.trapped signal) =
      .ok (sys.act (.continued (job.pid .main) signal), .live job) := by
  simp [jobProcessHandler, jobProcessTraceSignal, Job.mainStarting, hs, ht]

/-- The first exec starts the trace. -/
theorem jobProcessHandler_firstExec (hs : job.state = .spawned) (ht : job.traceState = .new)
    (hok : x.ptraceOk (job.pid .main) = true) :
    jobProcessHandler x sys job .main (.trapped 5) =
      .ok (sys.act (.continued (job.pid .main) 0), .live { job with traceState := .normal }) := by
  simp [jobProcessHandler, jobProcessTraceNew, Job.mainStarting, hs, ht, hok]
  rfl

/-- Nobody answers a process that has received a signal before its trace has started. -/
theorem jobProcessHandler_early {signal : Int}
    (h : job.traceState = .new ∧ signal ≠ 5 ∨ job.traceState = .newChild ∧ signal ≠ 19) :
    jobProcessHandler x sys job .main (.trapped signal) = .ok (sys, .live job) := by
  rcases h with ⟨ht, hne⟩ | ⟨ht, hne⟩ <;>
    simp [jobProcessHandler, jobProcessTraceSignal, ht, hne]

/-- What is done for a new child that has stopped: the trace ends with the first child
where the job expects a fork, and with the second one otherwise. -/
theorem jobProcessTraceNewChild_eq (hs : job.state = .spawned) (ht : job.traceState = .newChild)
    (hok : x.ptraceOk (job.pid .main) = true) :
    jobProcessTraceNewChild x sys job .main =
      if 0 < job.traceForks ∨ job.cls.expect = .fork then
        jobAdvance x (sys.act (.detached (job.pid .main)))
          { job with traceForks := job.traceForks + 1, traceState := .none }
      else .ok (sys.act (.continued (job.pid .main) 0),
        .live { job with traceForks := job.traceForks + 1, traceState := .normal }) := by
  simp [jobProcessTraceNewChild, jobProcessTraceNew, Job.mainStarting, hs, ht, hok]
  rfl

/-- The process has forked: it goes on alone, and the child takes its place. -/
theorem jobProcessHandler_fork (hs : job.state = .spawned) (ht : job.traceState = .normal)
    (hok : x.ptraceOk (job.pid .main) = true) :
    jobProcessHandler x sys job .main .ptraceFork =
      if x.ptraceOk (sys.lastPid + 1) then
        jobProcessTraceNewChild x
          ({ sys with lastPid := sys.lastPid + 1 }.act (.detached (job.pid .main)))
          { job.setPid .main (sys.lastPid + 1) with traceState := .newChild } .main
      else .ok ({ sys with lastPid := sys.lastPid + 1 }.act (.detached (job.pid .main)),
        .live { job.setPid .main (sys.lastPid + 1) with traceState := .newChild }) := by
  cases hc : x.ptraceOk (sys.lastPid + 1) <;>
    simp [jobProcessHandler, jobProcessTraceFork, Job.mainStarting, hs, ht, hok, hc]

/-- An exec ends the trace of a process that has been forked. -/
theorem jobProcessHandler_exec (hs : job.state = .spawned) (ht : job.traceState = .normal) :
    jobProcessHandler x sys job .main .ptraceExec =
      if job.traceForks ≠ 0 then
        jobAdvance x (sys.act (.detached (job.pid .main))) { job with traceState := .none }
      else .ok (sys.act (.continued (job.pid .main) 0), .live job) := by
  simp [jobProcessHandler, jobProcessTraceExec, Job.mainStarting, hs, ht]

/-! ## The kernel -/

/-- Where the kernel has the process that init follows. -/
inductive Tracee where
  /-- it has not executed its program yet -/
  | setUp
  /-- it runs; or it has forked, and init has been told only of the child -/
  | traced (childStopped : Bool)
  /-- it has been forked, and its `SIGSTOP` has not been reported -/
  | newborn
  /-- it has stopped, and has not been answered -/
  | left
  /-- it is not traced any more -/
  | gone
  deriving DecidableEq, Repr

/-- Why the process has stopped. -/
inductive Stop where
  /-- a signal that somebody has sent to it -/
  | signal (signum : Int)
  /-- the `SIGTRAP` with which it executes its program -/
  | firstExec
  /-- it has forked; `stopped` says whether the child has stopped before that is handled -/
  | fork (stopped : Bool)
  /-- the `SIGSTOP` of a child -/
  | childStop
  | exec
  deriving DecidableEq, Repr

/-- What `job_process_handler` is told. -/
def Stop.event : Stop → ChildEvent
  | .signal signum => .trapped signum
  | .firstExec => .trapped 5
  | .fork _ => .ptraceFork
  | .childStop => .trapped 19
  | .exec => .ptraceExec

/-- A stop that has been reported, with the answers to the process. -/
structure Report where
  stop : Stop
  pid : Pid
  answers : List Action

/-- The process has been answered once.  The signals that the kernel has made up itself
are not delivered. -/
def Report.Answered (r : Report) : Prop :=
  match r.stop with
  | .signal signum => r.answers = [.continued r.pid signum]
  | .firstExec => r.answers = [.continued r.pid 0]
  | .fork _ => r.answers = [.detached r.pid]
  | .childStop | .exec => r.answers = [.continued r.pid 0] ∨ r.answers = [.detached r.pid]

/-- Whether the stops, the latest first, end the trace: with the first child where a
fork is expected; with the second one, or an exec of the first, otherwise. -/
def traceEnds (expect : ExpectType) : List Stop → Bool
  | [] => false
  | stop :: older => traceEnds expect older || match stop with
    | .childStop => expect = .fork || older.contains .childStop
    | .exec => older.contains .childStop
    | _ => false

/-- A job that is followed, with the kernel's side of it. -/
structure Followed where
  sys : Sys
  ref : JobRef
  expect : ExpectType
  tracee : Tracee
  /-- the process that the kernel has created last for the job -/
  pid : Pid
  /-- the stops that have been reported, the latest first -/
  reports : List Report
  /-- how often the job has left `JOB_SPAWNED` -/
  departures : Nat

/-- What can happen meanwhile. -/
inductive FollowInput where
  /-- the process stops -/
  | stop (stop : Stop)
  /-- the `SIGSTOP` of a child is reported before the fork -/
  | earlyChild (child : Pid)
  /-- anything else that happens to the job -/
  | other (input : Input)

/-- `job_process_find` among the processes of one job. -/
def jobProcessFind (job : Job) (pid : Pid) : Option ProcessType :=
  [ProcessType.main, .preStart, .postStart, .preStop, .postStop, .security].find? fun p =>
    job.pid p = pid

/-- A notification for the process `pid`: `job_process_handler` ignores those of which it
knows nothing. -/
def notify (x : Host) (sys : Sys) (job : Job) (pid : Pid) (event : ChildEvent) :
    Except Fault (Sys × JobRef) :=
  match jobProcessFind job pid with
  | none => .ok (sys, .live job)
  | some process => jobProcessHandler x sys job process event

/-- Where the kernel has a process with the answers that it has got: one that is
continued runs as before. -/
def resumed (answers : List Action) (running : Tracee) : Tracee :=
  match answers with
  | [] => .left
  | .detached _ :: _ => .gone
  | _ :: _ => running

/-- The job is in `JOB_SPAWNED`. -/
def JobRef.isSpawned : JobRef → Bool
  | .live job => job.state = .spawned
  | .freed _ => false

namespace Followed

/-- The job is called, and may leave `JOB_SPAWNED`. -/
def call (s : Followed) (sys : Sys) (ref : JobRef) : Followed :=
  { s with
    sys, ref
    departures := s.departures + if s.ref.isSpawned && !ref.isSpawned then 1 else 0 }

/-- The process has forked, and the child takes its place. -/
def forkedTo (s : Followed) (stop : Stop) (sys : Sys) (ref : JobRef) : Followed :=
  let answers := newAnswers s.sys sys s.pid
  { s.call sys ref with
    pid := s.sys.lastPid + 1
    tracee := if answers.isEmpty then .left else .newborn
    reports := ⟨stop, s.pid, answers⟩ :: s.reports }

/-- A stop has been handled.  Where a child has stopped before the fork is handled, the
answer to its `SIGSTOP` is among the actions as well. -/
def handled (s : Followed) (stop : Stop) (sys : Sys) (ref : JobRef) : Followed :=
  let answers := newAnswers s.sys sys s.pid
  let reports := ⟨stop, s.pid, answers⟩ :: s.reports
  match stop with
  | .signal _ => { s.call sys ref with tracee := resumed answers s.tracee, reports }
  | .firstExec | .childStop | .exec =>
    { s.call sys ref with tracee := resumed answers (.traced false), reports }
  | .fork false => s.forkedTo stop sys ref
  | .fork true =>
    let s' := s.forkedTo stop sys ref
    let childAnswers := newAnswers s.sys sys s'.pid
    { s' with
      tracee := if s'.tracee = .left then .left else resumed childAnswers (.traced false)
      reports := ⟨.childStop, s'.pid, childAnswers⟩ :: s'.reports }

end Followed

/-- The step that an input makes init take. -/
def followStep (x : Host) (s : Followed) (i : FollowInput) : Except Fault Followed :=
  match s.ref with
  | .freed _ => .ok s
  | .live job =>
    match i with
    | .stop stop => do
      let (sys, ref) ← notify x s.sys job s.pid stop.event
      .ok (s.handled stop sys ref)
    | .earlyChild child => do
      let (sys, ref) ← notify x s.sys job child (.trapped 19)
      .ok { s.call sys ref with tracee := .traced true }
    | .other input => do
      let (sys, ref) ← jobStep x s.sys job input
      .ok (s.call sys ref)

/-- What the kernel may report.  Signals that it cannot tell from its own are left out. -/
def Reports (s : Followed) : FollowInput → Prop
  | .stop (.signal signum) => s.tracee = .setUp ∧ signum ≠ 5 ∨ s.tracee = .traced false ∨
      s.tracee = .newborn ∧ signum ≠ 19
  | .stop .firstExec => s.tracee = .setUp
  | .stop (.fork stopped) => s.tracee = .traced false ∨ s.tracee = .traced true ∧ stopped = true
  | .stop .childStop => s.tracee = .newborn
  | .stop .exec => s.tracee = .traced false
  | .earlyChild child => s.tracee = .traced false ∧ s.sys.lastPid < child
  | .other _ => True

/-- `ptrace (2)` works for a process that has stopped, and only for such a one. -/
def PtraceWorks (x : Host) (s : Followed) : FollowInput → Prop
  | .stop (.fork stopped) => x.ptraceOk s.pid = true ∧ x.ptraceOk (s.sys.lastPid + 1) = stopped
  | .stop _ => x.ptraceOk s.pid = true
  | _ => True

/-- Until the job leaves `JOB_SPAWNED`, requests and events may come, and the set-up
pipes be closed. -/
def Besides (s : Followed) : FollowInput → Prop
  | .other i => ∃ job, s.ref = .live job ∧ job.state = .spawned ∧ Enabled s.sys job i ∧
      (i.requests ∨ ∃ pid, i = .childClosed pid)
  | _ => True

/-- What `job_change_state` leaves of a job whose main process it has spawned. -/
def spawnedMain (sys : Sys) (job : Job) (proc : Process) : Sys × Job :=
  let (sys, job) := processStarted sys job .main proc
  (sys, { job with state := .spawned })

/-- The start of a run: the main process has been spawned. -/
inductive Spawned : Followed → Prop where
  | main (sys : Sys) (job : Job) (proc : Process) (goal : job.goal = .start)
      (blocker : job.blocker = none) (proc_ : job.cls.process .main = some proc)
      (expects : job.cls.expect = .fork ∨ job.cls.expect = .daemon) (owned : Owned sys job)
      (given : ∀ p, job.pid p ≤ sys.lastPid) :
      Spawned ⟨(spawnedMain sys job proc).1, .live (spawnedMain sys job proc).2, job.cls.expect,
        .setUp, sys.lastPid + 1, [], 0⟩

/-- The states of the runs whose inputs all meet a condition. -/
abbrev FollowReached (C : Followed → FollowInput → Prop) : Followed → Prop :=
  Reach Spawned (fun s (i : Host × FollowInput) =>
    (Reports s i.2 ∧ PtraceWorks i.1 s i.2 ∧ Besides s i.2) ∧ C s i.2)
    fun s i => followStep i.1 s i.2

/-- No signal is reported before the process executes its program, nor for a child before
its `SIGSTOP`. -/
def Timely (s : Followed) : FollowInput → Prop
  | .stop (.signal _) => s.tracee = .traced false
  | _ => True

/-! ## The invariant -/

/-- The state of the trace that belongs to where the kernel has the process. -/
def Tracee.traceState : Tracee → Option TraceState
  | .setUp => some .new
  | .traced _ => some .normal
  | .newborn => some .newChild
  | .left | .gone => none

/-- The stops that have been reported, the latest first. -/
def Followed.stops (s : Followed) : List Stop := s.reports.map Report.stop

/-- Init follows the process. -/
structure Watching (s : Followed) (job : Job) : Prop where
  ref : s.ref = .live job
  settled : Settled (· ≠ .security) job
  owned : Owned s.sys job
  state : job.state = .spawned
  expect : job.cls.expect = s.expect
  expects : s.expect = .fork ∨ s.expect = .daemon
  pid : job.pid .main = s.pid
  given : ∀ p, job.pid p ≤ s.sys.lastPid
  trace : s.tracee.traceState = some job.traceState
  forks : job.traceForks = s.stops.count .childStop
  unended : traceEnds s.expect s.stops = false
  departures : s.departures = 0

/-- The trace has ended. -/
structure Departed (s : Followed) (job : Job) : Prop where
  ref : s.ref = .live job
  state : job.state ≠ .spawned
  pid : job.pid .main = s.pid
  gone : s.tracee = .gone
  ended : traceEnds s.expect s.stops = true
  departures : s.departures = 1

/-- What holds in every state. -/
structure Following (s : Followed) : Prop where
  answered : ∀ r ∈ s.reports, r.Answered
  job : ∃ job, Watching s job ∨ Departed s job

namespace Watching

variable {s : Followed}

theorem alive (h : Watching s job) : job.alive .main = true :=
  h.settled.driven .main (by simp) (by rw [h.state]; rfl)

theorem blocker (h : Watching s job) : job.blocker = none := by
  have hb := h.settled.blocked
  rw [h.state] at hb
  simpa using hb

theorem find (h : Watching s job) : jobProcessFind job s.pid = some .main := by
  simp [jobProcessFind, h.pid]

/-- Nobody knows a process that has not been given out. -/
theorem find_none (h : Watching s job) {child : Pid} (hchild : s.sys.lastPid < child) :
    jobProcessFind job child = none := by
  have hne : ∀ p, job.pid p ≠ child := fun p heq => by
    have hle := h.given p
    rw [heq] at hle
    exact absurd hle (Nat.not_le.mpr hchild)
  simp [jobProcessFind, hne]

/-- The process goes on, and init goes on to follow it. -/
theorem goesOn (h : Watching s job) (stop : Stop) (signal : Int) (sys₁ : Sys) (job' : Job)
    (hset : Settled (· ≠ .security) job') (howned : Owned sys₁ job')
    (hstate : job'.state = job.state)
    (hcls : job'.cls = job.cls) (hpid : job'.pid = job.pid)
    (htrace : (match stop with | .signal _ => s.tracee | _ => .traced false).traceState =
      some job'.traceState)
    (hforks : job'.traceForks = (stop :: s.stops).count .childStop)
    (hunended : traceEnds s.expect (stop :: s.stops) = false)
    (hstop : ∀ stopped, stop ≠ .fork stopped) (hlast : sys₁.lastPid = s.sys.lastPid)
    (hanswers : sys₁.answers s.pid = [.continued s.pid signal] ++ s.sys.answers s.pid) :
    Watching (s.handled stop sys₁ (.live job')) job' ∧
      (s.handled stop sys₁ (.live job')).reports =
        ⟨stop, s.pid, [.continued s.pid signal]⟩ :: s.reports := by
  have hspawned : (s.ref.isSpawned && !(JobRef.live job').isSpawned) = false := by
    simp [JobRef.isSpawned, hstate, h.state]
  have hgiven : ∀ p, job'.pid p ≤ sys₁.lastPid := fun p => by
    rw [hpid, hlast]
    exact h.given p
  have hnew := newAnswers_eq hanswers
  cases stop with
  | fork stopped => exact absurd rfl (hstop stopped)
  | signal | firstExec | childStop | exec =>
    refine ⟨⟨rfl, hset, howned, hstate.trans h.state, hcls ▸ h.expect, h.expects, ?_, hgiven, ?_,
      ?_, ?_, ?_⟩, ?_⟩
    · exact (congrFun hpid _).trans h.pid
    · simpa [Followed.handled, Followed.call, hnew, resumed] using htrace
    · exact hforks
    · exact hunended
    · show s.departures + _ = 0
      rw [hspawned, h.departures]
      rfl
    · simp [Followed.handled, Followed.call, hnew]

/-- The trace ends, and the job leaves `JOB_SPAWNED`. -/
theorem departs (h : Watching s job) {stop : Stop} {job' : Job} {sys₁ : Sys}
    (hstate : job'.state ≠ .spawned) (hpid : job'.pid .main = s.pid)
    (hended : traceEnds s.expect (stop :: s.stops) = true)
    (hstop : ∀ stopped, stop ≠ .fork stopped)
    (hanswers : sys₁.answers s.pid = [.detached s.pid] ++ s.sys.answers s.pid) :
    Departed (s.handled stop sys₁ (.live job')) job' ∧
      (s.handled stop sys₁ (.live job')).reports =
        ⟨stop, s.pid, [.detached s.pid]⟩ :: s.reports := by
  have hspawned : (s.ref.isSpawned && !(JobRef.live job').isSpawned) = true := by
    simp [JobRef.isSpawned, h.ref, h.state, hstate]
  have hnew := newAnswers_eq hanswers
  cases stop with
  | fork stopped => exact absurd rfl (hstop stopped)
  | signal | firstExec | childStop | exec =>
    refine ⟨⟨rfl, hstate, hpid, ?_, hended, ?_⟩, ?_⟩
    · simp [Followed.handled, Followed.call, hnew, resumed]
    · show s.departures + _ = 1
      rw [hspawned, h.departures]
      rfl
    · simp [Followed.handled, Followed.call, hnew]

end Watching

theorem Unanswered.detached {pid : Pid} (h : Unanswered (sys.act (.detached pid)) sys') :
    sys'.answers pid = [.detached pid] ++ sys.answers pid ∧
      ∀ p, p ≠ pid → sys'.answers p = sys.answers p := by
  refine ⟨(h pid).trans (answers_detached sys pid), fun p hp => (h p).trans ?_⟩
  simp [Sys.answers, Sys.act, Action.answers, hp.symm]

theorem answers_continued_ne (sys : Sys) {pid p : Pid} (signal : Int) (hp : p ≠ pid) :
    (sys.act (.continued pid signal)).answers p = sys.answers p := by
  simp [Sys.answers, Sys.act, Action.answers, hp.symm]

/-- The trace of the process ends. -/
theorem Watching.leaves {s : Followed} (h : Watching s job) (forks : Nat) :
    Sat (jobAdvance x (s.sys.act (.detached s.pid))
        { job with traceForks := forks, traceState := .none })
      (fun r => (r.1.answers s.pid = [.detached s.pid] ++ s.sys.answers s.pid ∧
          ∀ p, p ≠ s.pid → r.1.answers p = s.sys.answers p) ∧
        ∃ job', r.2 = .live job' ∧ job'.state ≠ .spawned ∧ job'.pid .main = s.pid)
      (fun _ => True) := by
  have hstate : ({ job with traceForks := forks, traceState := .none } : Job).state = .spawned :=
    h.state
  refine (jobAdvance_leaves hstate h.blocker).imp fun r hr => ?_
  obtain ⟨hun, job', hlive, hleft, hpid⟩ := hr
  exact ⟨hun.detached, job', hlive, hleft, hpid.trans h.pid⟩

/-- A child stops for the first time, and the trace ends with it or goes on. -/
theorem Watching.childStop {s : Followed} (h : Watching s job) (ha : ∀ r ∈ s.reports, r.Answered)
    (ht : s.tracee = .newborn) (hok : x.ptraceOk s.pid = true) :
    Sat (jobProcessTraceNewChild x s.sys job .main)
      (fun r => Following (s.handled .childStop r.1 r.2) ∧
        ∀ p, p ≠ s.pid → r.1.answers p = s.sys.answers p) (fun _ => True) := by
  have htrace : job.traceState = .newChild := by
    have htrace := h.trace
    rw [ht] at htrace
    exact (Option.some.inj htrace).symm
  have hends : traceEnds s.expect (.childStop :: s.stops) = true ↔
      0 < job.traceForks ∨ job.cls.expect = .fork := by
    rw [h.forks, h.expect, List.count_pos_iff]
    simp [traceEnds, h.unended, or_comm]
  rw [jobProcessTraceNewChild_eq h.state htrace (h.pid ▸ hok), h.pid]
  split
  · rename_i hend
    refine (h.leaves _).imp fun r hr => ?_
    obtain ⟨sys₁, ref⟩ := r
    obtain ⟨⟨hanswers, hothers⟩, job', hlive, hstate, hpid⟩ := hr
    dsimp only at hlive
    subst hlive
    obtain ⟨hdeparted, hreports⟩ := h.departs hstate hpid (hends.mpr hend) (by simp) hanswers
    refine ⟨⟨fun r hr => ?_, job', .inr hdeparted⟩, hothers⟩
    rw [hreports] at hr
    rcases List.mem_cons.mp hr with rfl | hr
    · exact .inr rfl
    · exact ha r hr
  · rename_i hend
    obtain ⟨hwatching, hreports⟩ := h.goesOn .childStop 0 (s.sys.act (.continued s.pid 0))
      { job with traceForks := job.traceForks + 1, traceState := .normal }
      (h.settled.trace _ _) ⟨h.owned.held, h.owned.entries, h.owned.linked⟩ rfl rfl rfl rfl
      (by simp [h.forks]) (by simpa using mt hends.mp hend) (by simp) rfl
      (answers_continued s.sys s.pid 0)
    refine ⟨⟨fun r hr => ?_, _, .inl hwatching⟩, fun p hp => answers_continued_ne s.sys 0 hp⟩
    rw [hreports] at hr
    rcases List.mem_cons.mp hr with rfl | hr
    · exact .inl rfl
    · exact ha r hr

/-- The process has forked: it is let go, and the child is followed. -/
theorem Watching.forked {s : Followed} (h : Watching s job) (stop : Stop)
    (hstop : stop = .fork true ∨ stop = .fork false) :
    Watching (s.forkedTo stop ({ s.sys with lastPid := s.sys.lastPid + 1 }.act (.detached s.pid))
        (.live { job.setPid .main (s.sys.lastPid + 1) with traceState := .newChild }))
      { job.setPid .main (s.sys.lastPid + 1) with traceState := .newChild } ∧
    newAnswers s.sys ({ s.sys with lastPid := s.sys.lastPid + 1 }.act (.detached s.pid)) s.pid =
      [.detached s.pid] := by
  have hnew : newAnswers s.sys
      ({ s.sys with lastPid := s.sys.lastPid + 1 }.act (.detached s.pid)) s.pid =
        [.detached s.pid] :=
    newAnswers_eq (answers_detached { s.sys with lastPid := s.sys.lastPid + 1 } s.pid)
  refine ⟨⟨rfl, ?_, ⟨h.owned.held, h.owned.entries, h.owned.linked⟩, h.state, h.expect, h.expects,
    ?_, fun p => ?_, ?_, ?_, ?_, ?_⟩, hnew⟩
  · exact ((h.settled.setPid .main (s.sys.lastPid + 1)).mono
      fun _ hq => ⟨hq, fun _ => Nat.succ_pos _⟩).trace _ _
  · simp [Job.setPid, Followed.forkedTo]
  · have hle : job.pid p ≤ s.sys.lastPid := h.given p
    show Function.update job.pid .main (s.sys.lastPid + 1) p ≤ s.sys.lastPid + 1
    rw [Function.update_apply]
    split
    · exact le_refl _
    · exact Nat.le_succ_of_le hle
  · simp [Followed.forkedTo, hnew, Tracee.traceState]
  · have hcount : (s.forkedTo stop ({ s.sys with lastPid := s.sys.lastPid + 1 }.act
        (.detached s.pid)) (.live { job.setPid .main (s.sys.lastPid + 1) with
          traceState := .newChild })).stops.count .childStop = s.stops.count .childStop := by
      rcases hstop with rfl | rfl <;> simp [Followed.stops, Followed.forkedTo]
    rw [hcount]
    exact h.forks
  · rcases hstop with rfl | rfl <;>
      simpa [Followed.stops, Followed.forkedTo, traceEnds, Followed.call] using h.unended
  · have hspawned : ({ job.setPid .main (s.sys.lastPid + 1) with
        traceState := .newChild } : Job).state = .spawned := h.state
    have hstays : (JobRef.live { job.setPid .main (s.sys.lastPid + 1) with
        traceState := .newChild }).isSpawned = true := decide_eq_true hspawned
    simp [Followed.forkedTo, Followed.call, hstays, h.departures]

/-- A fork whose child has stopped before is a fork and then the stop of the child. -/
theorem Watching.handled_fork {s : Followed} (h : Watching s job) {r : Sys × JobRef}
    (hothers : ∀ p, p ≠ s.sys.lastPid + 1 → r.1.answers p =
      ({ s.sys with lastPid := s.sys.lastPid + 1 }.act (.detached s.pid)).answers p) :
    s.handled (.fork true) r.1 r.2 =
      (s.forkedTo (.fork true) ({ s.sys with lastPid := s.sys.lastPid + 1 }.act (.detached s.pid))
        (.live { job.setPid .main (s.sys.lastPid + 1) with traceState := .newChild })).handled
          .childStop r.1 r.2 := by
  have hne : s.pid ≠ s.sys.lastPid + 1 := by
    have hle := h.given .main
    rw [h.pid] at hle
    exact Nat.ne_of_lt (Nat.lt_succ_of_le hle)
  obtain ⟨hwatching, hnew⟩ := h.forked (.fork true) (.inl rfl)
  have hparent : newAnswers s.sys r.1 s.pid = [.detached s.pid] :=
    newAnswers_eq ((hothers s.pid hne).trans
      (answers_detached { s.sys with lastPid := s.sys.lastPid + 1 } s.pid))
  have hchild : newAnswers ({ s.sys with lastPid := s.sys.lastPid + 1 }.act (.detached s.pid)) r.1
      (s.sys.lastPid + 1) = newAnswers s.sys r.1 (s.sys.lastPid + 1) := by
    have hsame : ({ s.sys with lastPid := s.sys.lastPid + 1 }.act (.detached s.pid)).answers
        (s.sys.lastPid + 1) = s.sys.answers (s.sys.lastPid + 1) := by
      simp [Sys.answers, Sys.act, Action.answers, hne]
    rw [newAnswers, newAnswers, hsame]
  have hspawned : s.ref.isSpawned = true := by simp [JobRef.isSpawned, h.ref, h.state]
  have hstays : (JobRef.live { job.setPid .main (s.sys.lastPid + 1) with
      traceState := .newChild }).isSpawned = true := decide_eq_true h.state
  simp [Followed.handled, Followed.forkedTo, Followed.call, hparent, hchild, hnew, hspawned, hstays,
    h.departures]

/-! ## Runs -/

/-- The process stops, and there is no signal that it could have received too early. -/
theorem Watching.stop {s : Followed} (h : Watching s job) (ha : ∀ r ∈ s.reports, r.Answered)
    {stop : Stop} (hreports : Reports s (.stop stop)) (hok : PtraceWorks x s (.stop stop))
    (htimely : Timely s (.stop stop)) :
    Sat (jobProcessHandler x s.sys job .main stop.event)
      (fun r => Following (s.handled stop r.1 r.2)) (fun _ => True) := by
  have htrace := h.trace
  cases stop with
  | signal signum =>
    rw [show s.tracee = .traced false from htimely] at htrace
    have ht : job.traceState = .normal := (Option.some.inj htrace).symm
    show Sat (jobProcessHandler x s.sys job .main (.trapped signum)) _ _
    rw [jobProcessHandler_signal h.state ht, h.pid]
    obtain ⟨hwatching, hlist⟩ := h.goesOn (.signal signum) signum
      (s.sys.act (.continued s.pid signum)) job h.settled
      ⟨h.owned.held, h.owned.entries, h.owned.linked⟩ rfl rfl rfl h.trace (by simp [h.forks])
      (by simp [traceEnds, h.unended]) (by simp) rfl (answers_continued s.sys s.pid signum)
    refine ⟨fun r hr => ?_, job, .inl hwatching⟩
    rw [hlist] at hr
    rcases List.mem_cons.mp hr with rfl | hr
    · rfl
    · exact ha r hr
  | firstExec =>
    rw [show s.tracee = .setUp from hreports] at htrace
    have ht : job.traceState = .new := (Option.some.inj htrace).symm
    show Sat (jobProcessHandler x s.sys job .main (.trapped 5)) _ _
    have hok : x.ptraceOk s.pid = true := hok
    rw [jobProcessHandler_firstExec h.state ht (h.pid ▸ hok), h.pid]
    obtain ⟨hwatching, hlist⟩ := h.goesOn .firstExec 0
      (s.sys.act (.continued s.pid 0)) { job with traceState := .normal } (h.settled.trace _ _)
      ⟨h.owned.held, h.owned.entries, h.owned.linked⟩ rfl rfl rfl rfl (by simp [h.forks])
      (by simp [traceEnds, h.unended]) (by simp) rfl
      (answers_continued s.sys s.pid 0)
    refine ⟨fun r hr => ?_, _, .inl hwatching⟩
    rw [hlist] at hr
    rcases List.mem_cons.mp hr with rfl | hr
    · rfl
    · exact ha r hr
  | childStop =>
    have ht : s.tracee = .newborn := hreports
    rw [ht] at htrace
    have htrace : job.traceState = .newChild := (Option.some.inj htrace).symm
    have hnew : jobProcessHandler x s.sys job .main (.trapped 19) =
        jobProcessTraceNewChild x s.sys job .main := by
      simp [jobProcessHandler, htrace]
    show Sat (jobProcessHandler x s.sys job .main (.trapped 19)) _ _
    rw [hnew]
    exact (h.childStop ha ht hok).imp fun r hr => hr.1
  | exec =>
    rw [show s.tracee = .traced false from hreports] at htrace
    have ht : job.traceState = .normal := (Option.some.inj htrace).symm
    have hends : traceEnds s.expect (.exec :: s.stops) = true ↔ job.traceForks ≠ 0 := by
      rw [h.forks, ← Nat.pos_iff_ne_zero, List.count_pos_iff]
      simp [traceEnds, h.unended]
    show Sat (jobProcessHandler x s.sys job .main .ptraceExec) _ _
    rw [jobProcessHandler_exec h.state ht, h.pid]
    split
    · rename_i hend
      refine (h.leaves job.traceForks).imp fun r hr => ?_
      obtain ⟨sys₁, ref⟩ := r
      obtain ⟨⟨hanswers, -⟩, job', hlive, hstate, hpid⟩ := hr
      dsimp only at hlive
      subst hlive
      obtain ⟨hdeparted, hlist⟩ := h.departs hstate hpid (hends.mpr hend) (by simp) hanswers
      refine ⟨fun r hr => ?_, job', .inr hdeparted⟩
      rw [hlist] at hr
      rcases List.mem_cons.mp hr with rfl | hr
      · exact .inr rfl
      · exact ha r hr
    · rename_i hend
      obtain ⟨hwatching, hlist⟩ := h.goesOn .exec 0 (s.sys.act (.continued s.pid 0)) job h.settled
        ⟨h.owned.held, h.owned.entries, h.owned.linked⟩ rfl rfl rfl (by rw [ht]; rfl)
        (by simp [h.forks]) (by simpa using mt hends.mp hend)
        (by simp) rfl (answers_continued s.sys s.pid 0)
      refine ⟨fun r hr => ?_, job, .inl hwatching⟩
      rw [hlist] at hr
      rcases List.mem_cons.mp hr with rfl | hr
      · exact .inl rfl
      · exact ha r hr
  | fork stopped =>
    have hnormal : job.traceState = .normal := by
      rcases hreports with ht | ⟨ht, -⟩ <;> rw [ht] at htrace <;>
        exact (Option.some.inj htrace).symm
    obtain ⟨hparent, hchild⟩ := hok
    show Sat (jobProcessHandler x s.sys job .main .ptraceFork) _ _
    rw [jobProcessHandler_fork h.state hnormal (h.pid ▸ hparent), hchild, h.pid]
    obtain ⟨hwatching, hnew⟩ := h.forked (.fork stopped) (by cases stopped <;> simp)
    have hanswered : ∀ r ∈ (s.forkedTo (.fork stopped)
        ({ s.sys with lastPid := s.sys.lastPid + 1 }.act (.detached s.pid))
        (.live { job.setPid .main (s.sys.lastPid + 1) with traceState := .newChild })).reports,
        r.Answered := by
      intro r hr
      rcases List.mem_cons.mp hr with rfl | hr
      · exact hnew
      · exact ha r hr
    cases stopped with
    | false => exact ⟨hanswered, _, .inl hwatching⟩
    | true =>
      refine (hwatching.childStop hanswered ?_ hchild).imp fun r hr => ?_
      · simp [Followed.forkedTo, hnew]
      obtain ⟨hfollowing, hothers⟩ := hr
      rw [h.handled_fork hothers]
      exact hfollowing

/-- A signal that is reported too early leaves the process stopped. -/
theorem Watching.early {s : Followed} (h : Watching s job) {signum : Int}
    (hreports : Reports s (.stop (.signal signum))) (hearly : ¬ Timely s (.stop (.signal signum))) :
    Sat (followStep x s (.stop (.signal signum))) (fun s' => s'.tracee = .left)
      (fun _ => False) := by
  have htrace := h.trace
  have hstate : job.traceState = .new ∧ signum ≠ 5 ∨ job.traceState = .newChild ∧ signum ≠ 19 := by
    rcases hreports with ⟨ht, hne⟩ | ht | ⟨ht, hne⟩
    · rw [ht] at htrace
      exact .inl ⟨(Option.some.inj htrace).symm, hne⟩
    · exact absurd ht hearly
    · rw [ht] at htrace
      exact .inr ⟨(Option.some.inj htrace).symm, hne⟩
  have hnew : newAnswers s.sys s.sys s.pid = [] := newAnswers_eq rfl
  simp only [followStep, h.ref, notify, h.find, Stop.event, jobProcessHandler_early hstate]
  show resumed (newAnswers s.sys s.sys s.pid) s.tracee = .left
  rw [hnew]
  rfl

/-- What requests and events leave alone of a job in `JOB_SPAWNED`. -/
structure Still (job job' : Job) : Prop where
  state : job'.state = .spawned
  cls : job'.cls = job.cls
  pid : job'.pid = job.pid
  traceState : job'.traceState = job.traceState
  traceForks : job'.traceForks = job.traceForks

theorem still_kept (job : Job) : Kept (JobRef.Live (Still job)) (fun _ => True) where
  given _ _ _ _ _ h := by
    have h := JobRef.live_live.mp h
    exact ⟨h.state, h.cls, h.pid, h.traceState, h.traceForks⟩
  changeGoal := by
    intro x sys j goal h
    have h : Still job j := h
    have hmoves : ¬ Moves j goal := by simp [Moves, h.state]
    rw [jobChangeGoal_eq, if_neg hmoves]
    exact ⟨h.state, h.cls, h.pid, h.traceState, h.traceForks⟩
  ofQueue _ := trivial
  freed _ := trivial

/-- The set-up pipe of a process does not move a job that expects a fork. -/
theorem jobProcessCloseHandler_still {pid : Pid} (hs : job.state = .spawned)
    (hexpect : job.cls.expect ≠ .none) :
    Sat (jobProcessCloseHandler x sys job pid) (fun r => r.2.Live (Still job)) (fun _ => True) := by
  unfold jobProcessCloseHandler
  split
  · trivial
  split
  · exact ⟨hs, rfl, rfl, rfl, rfl⟩
  have hdata : (job.modifyData pid fun d => { d with valid := false, script := none }).state =
      .spawned := hs
  have hcls : (job.modifyData pid fun d => { d with valid := false, script := none }).cls.expect ≠
      .none := hexpect
  dsimp only
  rw [if_neg (by simp [hcls]), sat_bind]
  refine sat_ok.mpr ?_
  rw [JobRef.get_live, sat_bind]
  refine sat_ok.mpr ?_
  rw [if_neg (by simp [hdata, JobState.spawning?])]
  exact ⟨hs, rfl, rfl, rfl, rfl⟩

/-- What happens to the job besides leaves it followed. -/
theorem Watching.other {s : Followed} (h : Watching s job) {i : Input}
    (hi : Enabled s.sys job i) (hkind : i.requests ∨ ∃ pid, i = .childClosed pid) :
    Sat (jobStep x s.sys job i) (fun r => ∃ job', Watching (s.call r.1 r.2) job')
      (fun _ => True) := by
  have hstill : Sat (jobStep x s.sys job i) (fun r => r.2.Live (Still job)) (fun _ => True) := by
    rcases hkind with hrequest | ⟨pid, rfl⟩
    · have hself : Still job job := ⟨h.state, rfl, rfl, rfl, rfl⟩
      exact request_keeps (still_kept job) hrequest hself
    · apply jobProcessCloseHandler_still h.state
      rw [h.expect]
      rcases h.expects with he | he <;> simp [he]
  have hsettled := jobStep_settled (x := x) h.settled hi fun hne => absurd rfl hne
  have hsteps := (jobStep_steps (x := x) h.owned hi).and (jobStep_owned (x := x) h.owned hi)
  refine ((hstill.and hsettled).and hsteps).mono (fun r hr => ?_) fun _ _ => trivial
  obtain ⟨sys', job' | job'⟩ := r
  · obtain ⟨⟨hsame, hset⟩, hstep, howned⟩ := hr
    have hsame : Still job job' := hsame
    have hle : s.sys.lastPid ≤ sys'.lastPid := by
      cases hstep with
      | call frame =>
        obtain ⟨new, hext, -⟩ := frame.queue
        exact hext.lastPid
      | elsewhere _ may => exact may.lastPid
    have hstays : (JobRef.live job').isSpawned = true := decide_eq_true hsame.state
    refine ⟨job', rfl, hset, howned, hsame.state, hsame.cls ▸ h.expect, h.expects,
      (congrFun hsame.pid _).trans h.pid, fun p => ?_, hsame.traceState ▸ h.trace,
      hsame.traceForks.trans h.forks, h.unended, ?_⟩
    · rw [hsame.pid]
      exact (h.given p).trans hle
    · simp [Followed.call, hstays, h.departures]
  · exact hr.1.1.elim

/-- Every step leaves the job followed. -/
theorem followStep_following {s : Followed} {i : FollowInput} (h : Following s)
    (hreports : Reports s i) (hok : PtraceWorks x s i) (hbesides : Besides s i)
    (htimely : Timely s i) : Sat (followStep x s i) Following (fun _ => True) := by
  obtain ⟨ha, job, hwatching | hdeparted⟩ := h
  · cases i with
    | stop stop =>
      simp only [followStep, hwatching.ref, notify, hwatching.find]
      rw [sat_bind]
      exact (hwatching.stop ha hreports hok htimely).imp fun r hr => hr
    | earlyChild child =>
      simp only [followStep, hwatching.ref, notify, hwatching.find_none hreports.2]
      have htrace := hwatching.trace
      rw [hreports.1] at htrace
      have hstays : (JobRef.live job).isSpawned = true := decide_eq_true hwatching.state
      refine ⟨ha, job, .inl ⟨rfl, hwatching.settled, hwatching.owned, hwatching.state,
        hwatching.expect, hwatching.expects, hwatching.pid, hwatching.given, htrace,
        hwatching.forks, hwatching.unended, ?_⟩⟩
      simp [Followed.call, hstays, hwatching.departures]
    | other input =>
      obtain ⟨job', href, -, henabled, hkind⟩ := hbesides
      rw [hwatching.ref] at href
      cases href
      simp only [followStep, hwatching.ref]
      rw [sat_bind]
      refine (hwatching.other henabled hkind).imp fun r hr => ?_
      obtain ⟨job', hwatching'⟩ := hr
      exact ⟨ha, job', .inl hwatching'⟩
  · -- the run is over
    cases i with
    | stop stop => cases stop <;> simp [Reports, hdeparted.gone] at hreports
    | earlyChild child => simp [Reports, hdeparted.gone] at hreports
    | other input =>
      obtain ⟨job', href, hstate, -⟩ := hbesides
      rw [hdeparted.ref] at href
      cases href
      exact absurd hstate hdeparted.state

/-- A job whose main process has been spawned is followed from its first exec on. -/
theorem Spawned.following {s : Followed} (h : Spawned s) : Following s := by
  cases h with
  | main sys job proc goal blocker proc_ expects owned given =>
    refine ⟨by simp, (spawnedMain sys job proc).2, .inl ⟨rfl, ?_, ?_, rfl, rfl, expects, ?_, ?_, ?_,
      rfl, rfl, rfl⟩⟩
    · refine ⟨?_, rfl, ?_, ?_, ?_, ?_⟩
      · simp [spawnedMain, processStarted, blocker]
      · simp [spawnedMain, processStarted, goal]
      · simp [spawnedMain, processStarted]
      · simp [spawnedMain, processStarted]
      · intro p _ hp
        have hmain : p = .main := (Option.some.inj hp).symm
        subst hmain
        simp [spawnedMain, processStarted, Job.alive]
    · exact ⟨owned.held, owned.entries, owned.linked⟩
    · simp [spawnedMain, processStarted]
    · intro p
      show Function.update job.pid .main (sys.lastPid + 1) p ≤ sys.lastPid + 1
      rw [Function.update_apply]
      split
      · exact le_refl _
      · exact Nat.le_succ_of_le (given p)
    · have htrace : (spawnedMain sys job proc).2.traceState = .new := by
        rcases expects with he | he <;> simp [spawnedMain, processStarted, he]
      exact congrArg some htrace.symm

/-- In every run in which no signal is reported too early, each stop has been answered
once; the main process is the one that has been forked last; and the job leaves
`JOB_SPAWNED` once, with the stop that ends the trace. -/
theorem follows_main {s : Followed} (h : FollowReached Timely s) :
    (∀ r ∈ s.reports, r.Answered) ∧ s.tracee ≠ .left ∧
      (s.tracee = .gone ↔ traceEnds s.expect s.stops = true) ∧
      s.departures = (if traceEnds s.expect s.stops then 1 else 0) ∧
      ∃ job, s.ref = .live job ∧ job.pid .main = s.pid ∧
        (job.state = .spawned ↔ traceEnds s.expect s.stops = false) := by
  have hfollowing : Following s := by
    refine Reach.invariant (fun s hs => hs.following) (fun s i hI hok => ?_) h
    exact followStep_following hI hok.1.1 hok.1.2.1 hok.1.2.2 hok.2
  obtain ⟨ha, job, hw | hd⟩ := hfollowing
  · have htrace := hw.trace
    refine ⟨ha, fun ht => ?_, ⟨fun ht => ?_, fun he => ?_⟩, ?_, job, hw.ref, hw.pid, ?_⟩
    · simp [ht, Tracee.traceState] at htrace
    · simp [ht, Tracee.traceState] at htrace
    · rw [hw.unended] at he
      cases he
    · rw [hw.unended, hw.departures]
      rfl
    · exact ⟨fun _ => hw.unended, fun _ => hw.state⟩
  · refine ⟨ha, by simp [hd.gone], ⟨fun _ => hd.ended, fun _ => hd.gone⟩, ?_, job, hd.ref, hd.pid,
      ?_⟩
    · rw [hd.ended, hd.departures]
      rfl
    · rw [hd.ended]
      exact ⟨fun hs => absurd hs hd.state, fun he => by cases he⟩

/-- A job whose main process is about to be spawned. -/
def spawningJob (expect : ExpectType) : Job :=
  { jobNew 1 1 { plainClass [.main] with expect } "" none with goal := .start, state := .spawning }

theorem reached_spawned (C : Followed → FollowInput → Prop) {expect : ExpectType}
    (h : expect = .fork ∨ expect = .daemon) :
    FollowReached C ⟨(spawnedMain ⟨[], 0, 0, []⟩ (spawningJob expect) ⟨false, "/bin/main"⟩).1,
      .live (spawnedMain ⟨[], 0, 0, []⟩ (spawningJob expect) ⟨false, "/bin/main"⟩).2, expect,
      .setUp, 1, [], 0⟩ :=
  .init (.main _ (spawningJob expect) _ rfl rfl rfl h
    ⟨by simp [Job.refs, spawningJob, jobNew], by simp [spawningJob, jobNew],
      by simp [spawningJob, jobNew]⟩ fun _ => le_refl _)

/-- A step of a concrete run; `ptraceOk` says which processes have stopped. -/
theorem FollowReached.next {C : Followed → FollowInput → Prop} {s s' : Followed}
    (h : FollowReached C s) (ptraceOk : Pid → Bool) (stop : Stop)
    (hi : (Reports s (.stop stop) ∧ PtraceWorks { plainHost with ptraceOk } s (.stop stop)) ∧
      C s (.stop stop))
    (hs : followStep { plainHost with ptraceOk } s (.stop stop) = .ok s') : FollowReached C s' :=
  .step (i := ({ plainHost with ptraceOk }, .stop stop)) h ⟨⟨hi.1.1, hi.1.2, trivial⟩, hi.2⟩ hs

/-- A daemon forks twice: the first time its child stops afterwards, the second time
before init is told of the fork. -/
theorem follows_main_daemon :
    ∃ s, FollowReached Timely s ∧ s.tracee = .gone ∧ s.pid = 3 ∧ s.departures = 1 := by
  have h₀ := reached_spawned Timely (.inr (Eq.refl ExpectType.daemon))
  have h₁ := h₀.next (fun _ => true) .firstExec ⟨⟨rfl, rfl⟩, trivial⟩ rfl
  have h₂ := h₁.next (fun pid => pid == 1) (.fork false) ⟨⟨.inl rfl, rfl, rfl⟩, trivial⟩ rfl
  have h₃ := h₂.next (fun _ => true) .childStop ⟨⟨rfl, rfl⟩, trivial⟩ rfl
  have h₄ := h₃.next (fun _ => true) (.fork true) ⟨⟨.inl rfl, rfl, rfl⟩, trivial⟩ rfl
  exact ⟨_, h₄, rfl, rfl, (follows_main h₄).2.2.2.1⟩

/-- A signal that comes before the first exec, or before the `SIGSTOP` of a child, leaves
the process stopped: it is not answered, and the job stays in `JOB_SPAWNED`. -/
theorem follows_early_signal :
    (∃ s, FollowReached (fun _ _ => True) s ∧ s.tracee = .left ∧ s.ref.isSpawned = true ∧
        s.reports.map Report.answers = [[]]) ∧
      ∃ s, FollowReached (fun _ _ => True) s ∧ s.tracee = .left ∧ s.ref.isSpawned = true ∧
        s.stops = [.signal 15, .fork false, .firstExec] := by
  have h₀ := reached_spawned (fun _ _ => True) (.inl (Eq.refl ExpectType.fork))
  have h₁ := h₀.next (fun _ => true) (.signal 15) ⟨⟨.inl ⟨rfl, by decide⟩, rfl⟩, trivial⟩ rfl
  have h₂ := h₀.next (fun _ => true) .firstExec ⟨⟨rfl, rfl⟩, trivial⟩ rfl
  have h₃ := h₂.next (fun pid => pid == 1) (.fork false) ⟨⟨.inl rfl, rfl, rfl⟩, trivial⟩ rfl
  have h₄ := h₃.next (fun _ => true) (.signal 15) ⟨⟨.inr (.inr ⟨rfl, by decide⟩), rfl⟩, trivial⟩ rfl
  exact ⟨⟨_, h₁, rfl, rfl, rfl⟩, _, h₄, rfl, rfl, rfl⟩

end Startup
