import Startup.Job.Machine
import Startup.Job.Settled

/-!
# No stuck job

A job at rest is waiting to be started, is running, or has a wake-up to come:
the event it waits for or the end of a process.  This holds in every run in
which no set-up error of the security process is handled in `JOB_SECURITY`
(`reached_noStuck`); the case of that process in `job_child_error_handler`
clears the pid without changing the state (`securityError_stuck`).
-/

namespace Startup

open Lib

variable {D : ProcessType → Prop} {x : Host} {sys : Sys} {job : Job}

/-! ## Every step keeps a job settled -/

/-- The input is a set-up error of the security process in `JOB_SECURITY`. -/
def securityError (job : Job) : Input → Prop
  | .childError pid permanent => permanent = true ∧ job.state = .security ∧
      ∃ d, job.data? pid = some d ∧ d.valid = true ∧ d.process = .security
  | _ => False

theorem jobNew_settled (id : JobId) (classId : ClassId) (cls : JobClass) (name : String)
    (stopOn : Option EventOperator) : Settled D (jobNew id classId cls name stopOn) := by
  refine ⟨?_, ?_, ?_, ?_, ?_, ?_⟩ <;> simp [jobNew, JobState.spawning?, JobState.driver]

/-- Every step keeps a job settled, unless it handles a set-up error of the
security process in `JOB_SECURITY`. -/
theorem jobStep_settled {i : Input} (h : Settled D job) (he : Enabled sys job i)
    (hsec : D .security → ¬ securityError job i) : Settling D (jobStep x sys job i) := by
  cases i with
  | changeGoal goal => exact h.changeGoal fun hg => absurd hg he
  | start message wait => exact jobStart_settled h
  | stop message wait => exact jobStop_settled h
  | restart message wait => exact jobRestart_settled h
  | classStart env message wait => exact jobClassStartInstance_settled h
  | classStop env message wait => exact jobClassStopInstance_settled h
  | classRestart env message wait => exact jobClassRestartInstance_settled h
  | stopEvent event => exact handleStopOn_settled h
  | induct startOn env => exact inductInstance_settled h
  | blockerFinished => exact blockerFinished_settled h
  | childError pid permanent =>
    refine jobProcessChildReader_settled h ?_
    rintro d hd hvalid rfl hD ⟨hp, hs⟩
    exact hsec hD ⟨rfl, hs, d, hd, hvalid, hp⟩
  | childClosed pid => exact jobProcessCloseHandler_settled h
  | childEvent process event => exact jobProcessHandler_settled h
  | readyText pid buf => exact jobProcessReadyfdReader_settled h
  | killTimer => exact jobProcessKillTimer_settled h
  | elsewhere sys' => exact h

/-- In every run a job is settled, but for the security process. -/
theorem reached_settled {C : Host → Sys → Job → Input → Prop}
    (h : Reached C (sys, .live job)) : Settled (· ≠ .security) job :=
  Reached.invariant (I := Settled (· ≠ .security)) (fun _ _ _ _ _ => jobNew_settled _ _ _ _ _)
    (fun _ _ _ _ h he _ => jobStep_settled h he fun hne => absurd rfl hne) h

/-! ## The wake-up of a job -/

/-- The event or the notification that moves the job on is still to come. -/
def Job.wakeUp (job : Job) : Prop :=
  match job.state with
  | .starting | .stopping => job.blocker.isSome = true
  | .security => 0 < job.pid .security
  | .preStart => 0 < job.pid .preStart
  | .spawned => 0 < job.pid .main
  | .postStart => 0 < job.pid .postStart
  | .preStop => 0 < job.pid .preStop
  | .killed => 0 < job.pid .main
  | .postStop => 0 < job.pid .postStop
  | _ => False

instance (job : Job) : Decidable job.wakeUp := by
  unfold Job.wakeUp
  cases job.state <;> infer_instance

/-- A job that is not stuck: it has a wake-up, or it runs with the goal to run,
or it waits to be started for the first time. -/
def NoStuck (job : Job) : Prop :=
  job.wakeUp ∨ (job.state = .running ∧ job.goal = .start) ∨
    (job.state = .waiting ∧ job.goal = .stop)

instance (job : Job) : Decidable (NoStuck job) := by
  unfold NoStuck
  infer_instance

/-- A settled job whose drivers are alive is not stuck. -/
theorem Settled.noStuck (h : Settled (fun _ => True) job) : NoStuck job := by
  have halive : ∀ p, job.state.driver = some p → 0 < job.pid p :=
    fun p hp => of_decide_eq_true (h.driven p trivial hp)
  have hblocked := h.blocked
  have hresting := h.resting
  cases hs : job.state
  case running => exact .inr (.inl ⟨hs, h.running hs⟩)
  case waiting => exact .inr (.inr ⟨hs, h.waiting hs⟩)
  all_goals
    left
    simp_all [Job.wakeUp, JobState.driver, JobState.spawning?]

/-- No job is stuck, in any run in which no set-up error of the security
process is handled in `JOB_SECURITY`. -/
theorem reached_noStuck {s : Sys × JobRef}
    (h : Reached (fun _ _ job i => ¬ securityError job i) s) : s.2.All NoStuck := by
  have hset : s.2.All (Settled fun _ => True) :=
    Reached.invariant (fun _ _ _ _ _ => jobNew_settled _ _ _ _ _)
      (fun _ _ _ _ h he hsec => jobStep_settled h he fun _ => hsec) h
  revert hset
  cases s.2 with
  | live job => exact Settled.noStuck
  | freed job => exact fun _ => trivial

/-- A job that waits for its security process, which has been spawned. -/
theorem reached_noStuck_security :
    ∃ sys job, Reached (fun _ _ job i => ¬ securityError job i) (sys, .live job) ∧
      job.state = .security ∧ NoStuck job := by
  have h₀ := reached_newRun (fun _ _ job i => ¬ securityError job i)
    (plainClass [.security, .main])
  have h₁ := h₀.next (.changeGoal .start) ⟨by simp [Enabled], id⟩ rfl
  have h₂ := h₁.next .blockerFinished ⟨rfl, id⟩ rfl
  exact ⟨_, _, h₂, rfl, reached_noStuck h₂⟩

/-- A job with a security process that could not be set up: the error is
handled, and the job stays in `JOB_SECURITY` with the goal to stop and no
process. -/
theorem securityError_stuck :
    ∃ sys job, Reached Always (sys, .live job) ∧ job.state = .security ∧ job.goal = .stop ∧
      job.pid .security = 0 ∧ ¬ NoStuck job := by
  have h₀ := reached_newRun Always (plainClass [.security, .main])
  have h₁ := h₀.next (.changeGoal .start) ⟨by simp [Enabled], trivial⟩ rfl
  have h₂ := h₁.next .blockerFinished ⟨rfl, trivial⟩ rfl
  have h₃ := h₂.next (.childError 1 true) ⟨rfl, trivial⟩ rfl
  exact ⟨_, _, h₃, rfl, rfl, rfl, by decide⟩

end Startup
