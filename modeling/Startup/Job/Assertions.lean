import Startup.Job.Machine
import Startup.Job.Placed

/-!
# The assertions of the state machine

In every run without stray set-up errors (`Job.strays`) no assertion of
`job_change_state`, `job_next_state` and `job_process_terminated` fails
(`reached_assertions`).  A set-up error is stray when it moves the job on while
another process is awaited: `job_child_error_handler` does not look at the state
of the job, and the error may come after the end of the process it is about.
-/

namespace Startup

open Lib

variable {x : Host} {sys : Sys} {job : Job}

/-! ## Set-up errors -/

/-- The goal with which a job goes on after a set-up error of a process. -/
def Job.goalAfterError (job : Job) (p : ProcessType) : JobGoal :=
  if p = .postStart ∨ p = .preStop then job.goal else .stop

/-- A set-up error of the process `p` moves the job on, and not to its end,
while another process is awaited; or it stops the running job and moves it on
from `JOB_PRE_STOP` at once. -/
def Job.strays (job : Job) (p : ProcessType) : Prop :=
  p ≠ .security ∧
    ((∃ q, q ≠ p ∧ job.state.driver = some q ∧ job.alive q = true ∧ job.state ≠ .spawned ∧
        ¬ (job.AtEnd ∧ job.goalAfterError p = .stop)) ∨
      (job.state = .running ∧ (p = .preStart ∨ p = .postStop) ∧ job.alive .main = true ∧
        job.has .preStop = true))

/-- The input is a stray set-up error. -/
def strayError (job : Job) : Input → Prop
  | .childError pid permanent => permanent = true ∧
      ∃ d, job.data? pid = some d ∧ d.valid = true ∧ job.strays d.process
  | _ => False

theorem Good.clear (h : Good job) (p : ProcessType) :
    Settled (fun q => q ≠ .security ∧ q ≠ p) (job.setPid p 0) ∧ Placed (job.setPid p 0) :=
  ⟨(h.settled.setPid p 0).mono fun _ hq => ⟨hq.1, fun heq => absurd heq hq.2⟩,
    h.placed.clear p⟩

/-- After an error that is not stray no process is awaited, or the job goes to
its end. -/
theorem Good.loose_or_end {p : ProcessType} (h : Good job) (hp : p ≠ .security)
    (hn : ¬ job.strays p) :
    Loose (job.setPid p 0) ∨ job.AtEnd ∧ job.goalAfterError p = .stop := by
  by_cases hend : job.AtEnd ∧ job.goalAfterError p = .stop
  · exact .inr hend
  left
  intro q hq
  obtain ⟨hne, hq⟩ := alive_setPid_zero.mp hq
  obtain ⟨hhas, hmay⟩ := h.placed.processes q hq
  have hspawned : job.state.driver = some q → job.state = .spawned := by
    intro hd
    by_contra hs
    exact hn ⟨hp, .inl ⟨q, hne, hd, hq, hs, hend⟩⟩
  refine ⟨hhas, ?_⟩
  show q = .main ∧ (job.state = .spawned ∨ job.state = .postStart ∨ job.state = .running ∨
    job.state = .preStop ∨ job.state = .stopping)
  by_cases hqm : q = .main
  · subst hqm
    refine ⟨rfl, ?_⟩
    have hrest := h.settled.resting
    revert hspawned hmay hrest
    cases job.state <;> simp [JobState.driver, ProcessType.mayRun, JobState.spawning?]
  · have hd := ProcessType.driver_of_mayRun hmay hqm
    have hs := hspawned hd
    rw [hs] at hd
    exact absurd (Option.some.inj hd).symm hqm

/-- Moving on a job after an error that is not stray. -/
theorem Good.advance_after_error {p : ProcessType} {job' : Job} {goal : JobGoal} (h : Good job)
    (hw : job.state ≠ .waiting) (hp : p ≠ .security) (hn : ¬ job.strays p)
    (hc : SameCore ((job.setPid p 0).setGoal goal) job')
    (hgoal : job.goalAfterError p = goal)
    (hset : Settled (fun _ => False) job') : Keeps (jobAdvance x sys job') := by
  have hplaced : Placed job' := ((h.clear p).2.setGoal goal).same hc
  have hwait : job'.state = .waiting → job'.goal = .start := fun hs =>
    absurd (hc.state.symm.trans hs) hw
  cases hb : job'.blocker with
  | some e =>
    exact jobAdvance_keeps hset hwait (fun _ => hplaced) fun hnone => by simp [hb] at hnone
  | none =>
    rcases h.loose_or_end hp hn with hl | ⟨hend, hstop⟩
    · exact jobAdvance_keeps hset hwait (fun hs => by simp [hb] at hs)
        fun _ => (hl.setGoal goal).same hc
    · -- the job is freed
      have hend' : job'.AtEnd := by
        unfold Job.AtEnd
        rw [hc.state, hc.has]
        exact hend
      have hg : job'.goal = .stop := hc.goal.trans (hgoal.symm.trans hstop)
      refine ((jobAdvance_end hend' hg hb).and
        (jobAdvance_safe hset.resting (hset.nextOk hwait))).mono ?_ fun _ hf => hf.2
      rintro ⟨sys', job₁ | job₁⟩ ⟨hfreed, -⟩
      · exact absurd hfreed id
      · trivial

theorem failAndAdvance_keeps {p : ProcessType} (h : Good job) (hw : job.state ≠ .waiting)
    (hp : p ≠ .security ∧ p ≠ .postStart ∧ p ≠ .preStop) (hn : ¬ job.strays p) :
    Keeps (failAndAdvance x sys (job.setPid p 0) p) := by
  obtain ⟨hset, hplaced⟩ := h.clear p
  have hgoal : job.goalAfterError p = .stop := by simp [Job.goalAfterError, hp.2]
  unfold failAndAdvance Keeps
  rw [sat_bind]
  refine jobFailed_core.imp ?_
  rintro ⟨sys₁, job₁⟩ hc
  dsimp only at hc ⊢
  have hset₁ : Settled (fun _ => False) job₁ := (hset.mono fun _ hf => hf.elim).same hc
  rw [jobChangeGoal_eq, sat_bind]
  split
  · -- the job was running
    rename_i hm
    have hs₁ : job₁.state = .running := by
      rcases hm.2 with ⟨hm, -⟩ | ⟨-, hm⟩
      · cases hm
      · exact hm
    have hs : job.state = .running := hc.state.symm.trans hs₁
    have hb₁ : job₁.blocker = none := by
      have := hset₁.blocked
      simpa [hs₁] using this
    have hstops : (job₁.has .main && job₁.alive .main) = false ∨ job₁.has .preStop = false := by
      by_contra hc'
      simp only [not_or, Bool.not_eq_false, Bool.and_eq_true] at hc'
      rw [hc.alive, hc.has, hc.has, alive_setPid_zero] at hc'
      refine hn ⟨hp.1, .inr ⟨hs, ?_, hc'.1.2.2, hc'.2⟩⟩
      have hpm := hc'.1.2.1
      cases p <;> simp_all
    have hloose : Loose (job₁.setGoal .stop) :=
      ((hplaced.same hc).loose (.inr (.inl hs₁))).setGoal .stop
    have hs' : (job₁.setGoal .stop).state = .running := hs₁
    refine ((jobAdvance_running_stops hs' rfl hb₁ hstops).and
      (Sat.and (hset₁.move hm) (jobAdvance_placed hset₁.resting
        ⟨fun hs => absurd (hs₁.symm.trans hs) (by simp), by simp [Job.setGoal]⟩
        (fun _ => (hplaced.same hc).setGoal _) fun _ => hloose))).mono ?_ fun _ hf => hf.2.2
    rintro ⟨sys₂, job₂ | job₂⟩ ⟨hb₂, hset₂, hplaced₂⟩
    · rw [JobRef.get_live, sat_bind, sat_ok]
      have hset₂ : Settled (fun _ => True) job₂ := hset₂
      have hw₂ : job₂.state ≠ .waiting := fun hs => by
        have := hset₂.blocked.mp hb₂
        simp [hs] at this
      exact jobAdvance_keeps hset₂ (fun hs => absurd hs hw₂) (fun _ => hplaced₂) fun hnone => by
        have hb₂ : job₂.blocker.isSome = true := hb₂
        simp [hnone] at hb₂
    · rfl
  · rename_i hm
    rw [sat_ok, JobRef.get_live, sat_bind, sat_ok]
    exact h.advance_after_error hw hp.1 hn (hc.setGoal .stop) hgoal
      (hset₁.setGoal hm (by simp))

/-- A set-up error that is not stray keeps a job good. -/
theorem jobChildErrorHandler_keeps {p : ProcessType} (h : Good job) (hw : job.state ≠ .waiting)
    (hn : ¬ job.strays p) : Keeps (jobChildErrorHandler x sys job p) := by
  obtain ⟨hset, hplaced⟩ := h.clear p
  have hadvance : p = .postStart ∨ p = .preStop → Keeps (jobAdvance x sys (job.setPid p 0)) := by
    intro hp
    refine h.advance_after_error hw ?_ hn (.refl _) ?_ (hset.mono fun _ hf => hf.elim)
    · rcases hp with rfl | rfl <;> simp
    · simp [Job.goalAfterError, hp]
  unfold jobChildErrorHandler
  cases p with
  | security =>
    have hgood : Good (job.setPid .security 0) := ⟨hset.mono fun _ hq => ⟨hq, hq⟩, hplaced⟩
    show Sat (jobFailed sys (job.setPid .security 0) _ _ >>= _) _ _
    rw [sat_bind]
    exact jobFailed_core.imp fun r hc => jobChangeGoal_keeps (hgood.same hc) (by simp)
  | preStart => exact failAndAdvance_keeps h hw (by simp) hn
  | main => exact failAndAdvance_keeps h hw (by simp) hn
  | postStop => exact failAndAdvance_keeps h hw (by simp) hn
  | postStart => exact hadvance (.inl rfl)
  | preStop => exact hadvance (.inr rfl)

theorem Good.of_ref {fn : SourceFn} {ref : JobRef} {k : Job → Except Fault (Sys × JobRef)}
    (h : ref.All Good) (hfn : (Fault.useAfterFree fn).ofStateMachine = false)
    (hk : ∀ job, Good job → Keeps (k job)) : Keeps (ref.get fn >>= k) := by
  cases ref with
  | live job => exact hk job h
  | freed job => exact hfn

theorem Keeps.bind {m : Except Fault (Sys × JobRef)}
    {k : Sys × JobRef → Except Fault (Sys × JobRef)} (h : Keeps m)
    (hk : ∀ sys ref, ref.All Good → Keeps (k (sys, ref))) : Keeps (m >>= k) := by
  unfold Keeps
  rw [sat_bind]
  exact Sat.imp h fun r hr => hk r.1 r.2 hr

theorem jobProcessChildReader_keeps {pid : Pid} {permanent : Bool} (h : Good job)
    (hw : job.state ≠ .waiting) (hn : ¬ strayError job (.childError pid permanent)) :
    Keeps (jobProcessChildReader x sys job pid permanent) := by
  unfold jobProcessChildReader
  split
  · rfl
  · rename_i d hd
    split
    · exact h
    · rename_i hc
      simp only [Bool.or_eq_true, Bool.not_eq_true', not_or, Bool.not_eq_false] at hc
      have hmod : Good (job.modifyData pid fun d => { d with script := none }) :=
        h.same (modifyData_core job pid _)
      have hstray : ¬ (job.modifyData pid fun d => { d with script := none }).strays d.process :=
        fun hs => hn ⟨hc.2, d, hd, hc.1, hs⟩
      refine (jobChildErrorHandler_keeps hmod hw hstray).bind fun sys₁ ref h₁ => ?_
      exact Good.of_ref h₁ rfl fun j hj => hj.same (modifyData_core j pid _)

/-- The job leaves the state in which only the main process runs. -/
theorem Good.leaveSpawned (h : Good job) (hs : job.state = .spawned) {job' : Job}
    (hc : SameCore job job') : Keeps (jobAdvance x sys job') := by
  have hw : job'.state = .waiting → job'.goal = .start := fun hs' => by
    rw [hc.state, hs] at hs'
    cases hs'
  exact jobAdvance_keeps (h.settled.same hc) hw (fun _ => h.placed.same hc)
    fun _ => (h.placed.loose (.inr (.inr (.inl hs)))).same hc

theorem jobProcessCloseHandler_keeps {pid : Pid} (h : Good job) :
    Keeps (jobProcessCloseHandler x sys job pid) := by
  unfold jobProcessCloseHandler
  split
  · rfl
  split
  · exact h
  rename_i data _ _
  have hcore := modifyData_core job pid fun d => { d with valid := false, script := none }
  have hrest (sys₁ : Sys) (ref : JobRef) (hr : ref.All Good) : Keeps (do
      let job ← ref.get .jobProcessCloseHandler
      if job.state.spawning? then
        jobProcessTerminated x sys₁ job data.process data.status true
      else .ok (sys₁, .live job)) := by
    refine Good.of_ref hr rfl fun j hj => ?_
    rw [if_neg (by simp [hj.settled.resting])]
    exact hj
  dsimp only
  split
  · rename_i hs
    exact (h.leaveSpawned hs.1 hcore).bind hrest
  · exact hrest sys (.live _) (h.same hcore)

/-! ## Leaving the spawned state -/

theorem Good.trace (h : Good job) (forks : Nat) (trace : TraceState) :
    Good { job with traceForks := forks, traceState := trace } :=
  h.same ⟨rfl, rfl, rfl, rfl, rfl, id⟩

/-- Between two calls the main process is starting only in `JOB_SPAWNED`. -/
theorem Good.spawned_of_mainStarting (h : Good job) {p : ProcessType}
    (hm : job.mainStarting p = true) : p = .main ∧ job.state = .spawned := by
  obtain ⟨hp, hs | hs⟩ := of_decide_eq_true hm
  · have := h.settled.resting
    simp [hs, JobState.spawning?] at this
  · exact ⟨hp, hs⟩

theorem jobProcessStopped_keeps {p : ProcessType} (h : Good job) :
    Keeps (jobProcessStopped x sys job p) := by
  unfold jobProcessStopped
  split
  · exact h
  · rename_i hm
    split
    · exact h.leaveSpawned (h.spawned_of_mainStarting (by simpa using hm)).2 (.refl job)
    · exact h

theorem jobProcessTraceNew_keeps {p : ProcessType} (h : Good job) :
    Keeps (jobProcessTraceNew x sys job p) := by
  refine sat_assert (fun _ => rfl) fun _ => ?_
  split
  · exact h
  split
  · exact h
  · exact h.trace _ _

theorem jobProcessTraceNewChild_keeps {p : ProcessType} (h : Good job) :
    Keeps (jobProcessTraceNewChild x sys job p) := by
  refine sat_assert (fun _ => rfl) fun _ => ?_
  split
  · exact h
  · rename_i hm
    dsimp only
    split
    · exact h.leaveSpawned (h.spawned_of_mainStarting (by simpa using hm)).2
        ⟨rfl, rfl, rfl, rfl, rfl, id⟩
    · exact jobProcessTraceNew_keeps (h.trace _ _)

theorem jobProcessTraceFork_keeps {p : ProcessType} (h : Good job) (hp : job.alive p = true) :
    Keeps (jobProcessTraceFork x sys job p) := by
  unfold jobProcessTraceFork
  split
  · exact h
  split
  · exact h
  have hchild : Good { job.setPid p (sys.lastPid + 1) with traceState := .newChild } := by
    refine ⟨((h.settled.setPid p (sys.lastPid + 1)).mono
      fun _ hq => ⟨hq, fun _ => Nat.succ_pos _⟩).trace job.traceForks _, fun q hq => ?_,
      h.placed.fresh⟩
    refine h.placed.processes q ?_
    by_cases hqp : q = p
    · rw [hqp]
      exact hp
    · simpa [Job.alive, Job.setPid, Function.update, hqp] using hq
  dsimp only
  split
  · exact hchild
  · exact jobProcessTraceNewChild_keeps hchild

theorem jobProcessTraceExec_keeps {p : ProcessType} (h : Good job) :
    Keeps (jobProcessTraceExec x sys job p) := by
  unfold jobProcessTraceExec
  split
  · exact h
  · rename_i hm
    simp only [Bool.or_eq_true, Bool.not_eq_true', not_or, Bool.not_eq_false] at hm
    split
    · exact h.leaveSpawned (h.spawned_of_mainStarting hm.1).2 ⟨rfl, rfl, rfl, rfl, rfl, id⟩
    · exact h

theorem jobProcessReadyfdReader_keeps {buf : String} (h : Good job) :
    Keeps (jobProcessReadyfdReader x sys job buf) := by
  unfold jobProcessReadyfdReader
  split
  · rename_i hs
    exact h.leaveSpawned hs.1 (.refl job)
  · exact h

theorem jobProcessHandler_keeps {p : ProcessType} {event : ChildEvent} (h : Good job)
    (hp : job.alive p = true) : Keeps (jobProcessHandler x sys job p event) := by
  cases event with
  | exited | killed | dumped => exact jobProcessTerminated_keeps h hp
  | stopped signal =>
    simp only [jobProcessHandler]
    split
    · exact jobProcessStopped_keeps h
    · exact h
  | continued => exact h
  | trapped signal =>
    simp only [jobProcessHandler]
    split
    · exact jobProcessTraceNew_keeps h
    split
    · exact jobProcessTraceNewChild_keeps h
    · unfold jobProcessTraceSignal
      split <;> exact h
  | ptraceFork => exact jobProcessTraceFork_keeps h hp
  | ptraceExec => exact jobProcessTraceExec_keeps h

theorem jobProcessKillTimer_keeps (h : Good job) : Keeps (jobProcessKillTimer sys job) := by
  refine sat_assert (fun _ => rfl) fun _ => ?_
  split
  · rfl
  · refine sat_assert (fun _ => rfl) fun _ => ?_
    exact h.same ⟨rfl, rfl, rfl, rfl, rfl, id⟩

/-! ## Requests and events -/

theorem changeGoalFor_keeps {entry : Blocked} {message : MessageId} {wait : Bool}
    {goal : JobGoal} (h : Good job) (hg : goal ≠ .respawn) :
    Keeps (changeGoalFor x sys job entry message wait goal) := by
  unfold changeGoalFor Keeps
  rw [sat_bind]
  refine replaceBlocking_core.imp fun r hr => ?_
  exact (jobChangeGoal_keeps (h.same hr) fun heq => absurd heq hg).bind fun _ _ hr' => hr'

theorem restartFor_keeps {entry : Blocked} {message : MessageId} {wait : Bool}
    (h : Good job) : Keeps (restartFor x sys job entry message wait) := by
  unfold restartFor Keeps
  rw [sat_bind]
  refine replaceBlocking_core.imp fun r hr => ?_
  refine (jobChangeGoal_keeps (h.same hr) (by simp)).bind fun sys₁ ref h₁ => ?_
  refine Good.of_ref h₁ rfl fun j hj => ?_
  exact (jobChangeGoal_keeps hj (by simp)).bind fun _ _ hr' => hr'

theorem Good.setEnv (h : Good job) (startEnv stopEnv : Option (List String)) :
    Good { job with startEnv := startEnv, stopEnv := stopEnv } :=
  h.same ⟨rfl, rfl, rfl, rfl, rfl, id⟩

private theorem replyPath_keeps {m : Except Fault (Sys × JobRef)} {fn : SourceFn} {wait : Bool}
    (h : Keeps m) (hfn : (Fault.useAfterFree fn).ofStateMachine = false) :
    Keeps (do
      let (sys, ref) ← m
      if wait then .ok (sys, ref)
      else
        let job ← ref.get fn
        .ok (sys, .live job)) := by
  refine h.bind fun sys₁ ref h₁ => ?_
  dsimp only
  split
  · exact h₁
  · exact Good.of_ref h₁ hfn fun _ hj => hj

theorem stopForEvents_keeps {root : EventOperator} (h : Good job) :
    Keeps (stopForEvents x sys job root) := by
  unfold stopForEvents Keeps
  rw [sat_bind]
  refine takeStopEnv_core.imp fun r hr => ?_
  rw [sat_bind]
  refine blockOnEvents_core.imp fun r' hr' => ?_
  dsimp only
  rw [changeGoalIfOther_eq]
  refine (jobChangeGoal_keeps (h.same (hr.trans hr')) (by simp)).bind fun sys₁ ref h₁ => ?_
  refine Good.of_ref h₁ rfl fun j hj => ?_
  unfold Keeps
  rw [sat_bind]
  exact resetOperator_quiet.imp fun _ _ => hj.same ⟨rfl, rfl, rfl, rfl, rfl, id⟩

theorem handleStopOn_keeps {event : Event} (h : Good job) :
    Keeps (handleStopOn x sys job event) := by
  unfold handleStopOn Keeps
  split
  · exact h
  · rw [sat_bind]
    refine handleOperator_quiet.imp fun r _ => ?_
    have hroot : Good { job with stopOn := some r.2.1 } := h.same ⟨rfl, rfl, rfl, rfl, rfl, id⟩
    dsimp only
    split
    · exact stopForEvents_keeps hroot
    · exact hroot

theorem inductInstance_keeps {root : EventOperator} {env : List String} (h : Good job) :
    Keeps (inductInstance x sys job root env) := by
  unfold inductInstance Keeps
  rw [sat_bind]
  refine takeStartEnv_core.imp fun r hr => ?_
  rw [sat_bind]
  refine blockOnEvents_core.imp fun r' hr' => ?_
  dsimp only
  rw [changeGoalIfOther_eq]
  exact jobChangeGoal_keeps (h.same (hr.trans hr')) (by simp)

/-- The end of the event that a job waits for: no process but the main one runs
while a job is blocked. -/
theorem blockerFinished_keeps (h : Good job) (hb : job.blocker.isSome = true) :
    Keeps (blockerFinished x sys job) := by
  have hstate := h.settled.blocked.mp hb
  have hloose : Loose ({ job with blocker := none } : Job) := by
    intro p hp
    obtain ⟨hhas, hmay⟩ := h.placed.processes p hp
    refine ⟨hhas, ?_⟩
    rcases hstate with hs | hs <;> cases p <;>
      simp_all [ProcessType.mayRun, ProcessType.waitState]
  have hnext : NextOk ({ job with blocker := none } : Job) :=
    ⟨fun hs => by rcases hstate with h | h <;> exact absurd (h.symm.trans hs) (by simp),
      h.settled.respawn⟩
  refine .of (blockerFinished_settled h.settled) ?_
  exact jobAdvance_placed h.settled.resting hnext (by simp) fun _ => hloose

/-! ## Runs -/

theorem jobNew_good (id : JobId) (classId : ClassId) (cls : JobClass) (name : String)
    (stopOn : Option EventOperator) : Good (jobNew id classId cls name stopOn) := by
  refine ⟨?_, ?_, ?_⟩
  · refine ⟨?_, ?_, ?_, ?_, ?_, ?_⟩ <;> simp [jobNew, JobState.spawning?, JobState.driver]
  · simp [jobNew, Job.alive]
  · simp [jobNew]

/-- A step that does not handle a stray set-up error keeps a job good and trips
no assertion of the state machine. -/
theorem jobStep_keeps {i : Input} (h : Good job) (he : Enabled sys job i)
    (hn : ¬ strayError job i) : Keeps (jobStep x sys job i) := by
  cases i with
  | changeGoal goal => exact jobChangeGoal_keeps h fun hg => absurd hg he
  | start message wait =>
    simp only [jobStep, jobStart]
    split
    · exact h
    split
    · exact h
    · exact changeGoalFor_keeps (h.setEnv none job.stopEnv) (by simp)
  | stop message wait =>
    simp only [jobStep, jobStop]
    split
    · exact h
    · exact changeGoalFor_keeps (h.setEnv job.startEnv none) (by simp)
  | restart message wait =>
    simp only [jobStep, jobRestart]
    split
    · exact h
    · exact restartFor_keeps (h.setEnv none none)
  | classStart env message wait =>
    simp only [jobStep, jobClassStartInstance]
    split
    · exact h
    · exact replyPath_keeps (changeGoalFor_keeps (h.setEnv (some env) job.stopEnv) (by simp)) rfl
  | classStop env message wait =>
    simp only [jobStep, jobClassStopInstance]
    split
    · exact h
    · exact changeGoalFor_keeps (h.setEnv job.startEnv (some env)) (by simp)
  | classRestart env message wait =>
    simp only [jobStep, jobClassRestartInstance]
    split
    · exact h
    · exact replyPath_keeps (restartFor_keeps (h.setEnv (some env) none)) rfl
  | stopEvent event => exact handleStopOn_keeps h
  | induct startOn env => exact inductInstance_keeps h
  | blockerFinished => exact blockerFinished_keeps h he
  | childError pid permanent =>
    refine jobProcessChildReader_keeps h (fun hw => ?_) hn
    have hdata : (job.data? pid).isSome = true := he
    simp [Job.data?, h.placed.fresh hw] at hdata
  | childClosed pid => exact jobProcessCloseHandler_keeps h
  | childEvent process event => exact jobProcessHandler_keeps h he
  | readyText pid buf => exact jobProcessReadyfdReader_keeps h
  | killTimer => exact jobProcessKillTimer_keeps h
  | elsewhere sys' => exact h

/-- The runs without stray set-up errors. -/
abbrev NoStrays : Host → Sys → Job → Input → Prop := fun _ _ job i => ¬ strayError job i

theorem reached_good {s : Sys × JobRef} (h : Reached NoStrays s) : s.2.All Good :=
  Reached.invariant (fun _ _ _ _ _ => jobNew_good _ _ _ _ _)
    (fun _ _ _ _ h he hn => (jobStep_keeps h he hn).mono (fun _ => id) fun _ _ => trivial) h

/-- In a run without stray set-up errors no step trips an assertion of the state
machine. -/
theorem reached_assertions {s : Sys × JobRef} {i : Host × Input} (h : Reached NoStrays s)
    (hi : Admits NoStrays s i) :
    Sat (step s i) (fun _ => True) (fun f => f.ofStateMachine = false) := by
  have hgood := reached_good h
  obtain ⟨sys, job | job⟩ := s
  · exact (jobStep_keeps hgood hi.1 hi.2).imp fun _ _ => trivial
  · trivial

/-- The `post-start` process of a job cannot be set up, and the error is handled
before its end. -/
theorem reached_assertions_postStart :
    ∃ s, Reached NoStrays s ∧ Admits NoStrays s (plainHost, .childError 2 true) ∧
      Sat (step s (plainHost, .childError 2 true)) (fun _ => True)
        (fun f => f.ofStateMachine = false) := by
  have hquiet : ∀ {job : Job} {i : Input}, (∀ pid permanent, i ≠ .childError pid permanent) →
      ¬ strayError job i := by
    intro job i hi hs
    cases i <;> simp_all [strayError]
  have h₀ := reached_newRun NoStrays (plainClass [.main, .postStart, .preStop])
  have h₁ := h₀.next (.changeGoal .start) ⟨by simp [Enabled], hquiet (by simp)⟩ rfl
  have h₂ := h₁.next .blockerFinished ⟨rfl, hquiet (by simp)⟩ rfl
  have h₃ := h₂.next (.childClosed 1) ⟨rfl, hquiet (by simp)⟩ rfl
  obtain ⟨s, h, hi⟩ : ∃ s, Reached NoStrays s ∧
      Admits NoStrays s (plainHost, .childError 2 true) := by
    refine ⟨_, h₃, rfl, ?_⟩
    -- the job waits for the process that the error is about
    rintro ⟨-, d, hd, -, hp, ⟨q, hq, hdriver, -⟩ | ⟨hs, -⟩⟩
    · cases hd
      cases hdriver
      exact hq rfl
    · cases hs
  exact ⟨s, h, hi, reached_assertions h hi⟩

/-- A `post-start` process that could not be set up.  Its end is handled before
the error; when the error comes, the job is in `JOB_PRE_STOP`, and is moved on to
stopping while the `pre-stop` process runs.  The end of that process is then
not accepted. -/
theorem strayError_assertion :
    ∃ s i, Reached Always s ∧ Admits Always s i ∧
      step s i = .error (.assertFailed .jobProcessTerminated) := by
  have h₀ := reached_newRun Always (plainClass [.main, .postStart, .preStop])
  have h₁ := h₀.next (.changeGoal .start) ⟨by simp [Enabled], trivial⟩ rfl
  have h₂ := h₁.next .blockerFinished ⟨rfl, trivial⟩ rfl
  have h₃ := h₂.next (.childClosed 1) ⟨rfl, trivial⟩ rfl
  have h₄ := h₃.next (.childEvent .postStart (.exited 255)) ⟨rfl, trivial⟩ rfl
  have h₅ := h₄.next (.changeGoal .stop) ⟨by simp [Enabled], trivial⟩ rfl
  have h₆ := h₅.next (.childError 2 true) ⟨rfl, trivial⟩ rfl
  exact ⟨_, (plainHost, .childEvent .preStop (.exited 0)), h₆, ⟨rfl, trivial⟩, rfl⟩

end Startup
