import Startup.Job.Machine

/-!
# What is left of a job that has been freed

Every call that frees a job does so at the end of `job_change_state`, after
`job_finished`: the job holds no entries and waits for no event.
-/

namespace Startup

open Lib

variable {x : Host} {sys : Sys} {job : Job}

/-- A job that has been freed has nothing left in its list of entries and does
not wait for an event. -/
def JobRef.Spent : JobRef → Prop
  | .live _ => True
  | .freed job => job.blocking = [] ∧ job.blocker = none

/-- If the program frees the job, the job is spent. -/
def Spends (m : Except Fault (Sys × JobRef)) : Prop :=
  Sat m (fun r => r.2.Spent) (fun _ => True)

theorem Spends.bind {α : Type} {m : Except Fault α} {k : α → Except Fault (Sys × JobRef)}
    (hk : ∀ a, Spends (k a)) : Spends (m >>= k) := by
  rw [Spends, sat_bind]
  exact (sat_true (m := m)).imp fun a _ => hk a

theorem Spends.of_live {m : Except Fault (Sys × JobRef)}
    (h : Sat m (fun r => r.2.Live fun _ => True) (fun _ => True)) : Spends m := by
  refine Sat.imp h ?_
  rintro ⟨sys, job | job⟩ h
  · trivial
  · exact h.elim

theorem jobChangeState_spent {state : JobState} : Spends (jobChangeState x sys job state) := by
  refine (jobChangeState_rule (I := fun _ _ _ => True)
    (F := fun _ job => job.blocking = [] ∧ job.blocker = none) ?_
    (fun _ _ _ _ _ _ _ _ => trivial) trivial).imp ?_
  · intro sys job state pass _ _ hb hpass
    cases hpass with
    | waiting => exact ⟨rfl, hb⟩
    | _ => trivial
  · rintro ⟨sys, job | job⟩ h
    · trivial
    · exact h

theorem jobAdvance_spent : Spends (jobAdvance x sys job) :=
  .bind fun _ => jobChangeState_spent

theorem jobChangeGoal_spent {goal : JobGoal} : Spends (jobChangeGoal x sys job goal) :=
  .of_live jobChangeGoal_live

theorem changeGoalFor_spent {entry : Blocked} {message : MessageId} {wait : Bool}
    {goal : JobGoal} : Spends (changeGoalFor x sys job entry message wait goal) := by
  refine .bind fun r => ?_
  rw [Spends, sat_bind]
  exact jobChangeGoal_spent.imp fun _ h => h

theorem restartFor_spent {entry : Blocked} {message : MessageId} {wait : Bool} :
    Spends (restartFor x sys job entry message wait) := by
  refine .bind fun r => .bind fun r => .bind fun j => ?_
  rw [Spends, sat_bind]
  exact jobChangeGoal_spent.imp fun _ h => h

theorem stopOrAdvance_spent {stop state : Bool} :
    Spends (stopOrAdvance x sys job stop state) := by
  have hend : ∀ (b : Bool) (sys : Sys) (j : Job), Spends
      (if b then .ok (sys, .live j) else if state then jobAdvance x sys j
        else .ok (sys, .live j)) := by
    intro b sys j
    split
    · trivial
    · split
      · exact jobAdvance_spent
      · trivial
  unfold stopOrAdvance
  cases stop with
  | false => exact hend false sys job
  | true => exact .bind fun r => .bind fun j => hend _ _ j

theorem afterTerminated_spent {p : ProcessType} {status : Int} {stateOnly : Bool} {v : Verdict} :
    Spends (afterTerminated x sys job p status stateOnly v) := by
  rw [afterTerminated_eq]
  exact .bind fun r => .bind fun _ => stopOrAdvance_spent

theorem jobProcessTerminated_spent {p : ProcessType} {status : Int} {stateOnly : Bool} :
    Spends (jobProcessTerminated x sys job p status stateOnly) := by
  unfold jobProcessTerminated
  split
  · split
    · trivial
    · exact .bind fun r => trivial
  · exact .bind fun r => .bind fun j => afterTerminated_spent

theorem jobProcessChildReader_spent {pid : Pid} {permanent : Bool} :
    Spends (jobProcessChildReader x sys job pid permanent) := by
  unfold jobProcessChildReader
  split
  · trivial
  · split
    · trivial
    · exact .bind fun r => .bind fun j => trivial

theorem jobProcessCloseHandler_spent {pid : Pid} :
    Spends (jobProcessCloseHandler x sys job pid) := by
  unfold jobProcessCloseHandler
  split
  · trivial
  · split
    · trivial
    · have hend : ∀ (sys : Sys) (j : Job) (d : JobProcessData), Spends
          (if j.state.spawning? then jobProcessTerminated x sys j d.process d.status true
            else .ok (sys, .live j)) := by
        intro sys j d
        split
        · exact jobProcessTerminated_spent
        · trivial
      dsimp only
      split
      · exact .bind fun r => .bind fun j => hend _ j _
      · exact .bind fun r => .bind fun j => hend _ j _

theorem jobProcessTraceNew_spent {p : ProcessType} :
    Spends (jobProcessTraceNew x sys job p) := by
  refine .bind fun _ => ?_
  split
  · trivial
  · split <;> trivial

theorem jobProcessTraceNewChild_spent {p : ProcessType} :
    Spends (jobProcessTraceNewChild x sys job p) := by
  refine .bind fun _ => ?_
  split
  · trivial
  · dsimp only
    split
    · exact jobAdvance_spent
    · exact jobProcessTraceNew_spent

theorem jobProcessHandler_spent {p : ProcessType} {event : ChildEvent} :
    Spends (jobProcessHandler x sys job p event) := by
  cases event with
  | exited | killed | dumped => exact jobProcessTerminated_spent
  | continued => trivial
  | stopped signal =>
    dsimp only [jobProcessHandler, jobProcessStopped]
    split
    · split
      · trivial
      · split
        · exact jobAdvance_spent
        · trivial
    · trivial
  | trapped signal =>
    dsimp only [jobProcessHandler, jobProcessTraceSignal]
    split
    · exact jobProcessTraceNew_spent
    · split
      · exact jobProcessTraceNewChild_spent
      · split <;> trivial
  | ptraceFork =>
    dsimp only [jobProcessHandler, jobProcessTraceFork]
    split
    · trivial
    · split
      · trivial
      · split
        · trivial
        · exact jobProcessTraceNewChild_spent
  | ptraceExec =>
    dsimp only [jobProcessHandler, jobProcessTraceExec]
    split
    · trivial
    · split
      · exact jobAdvance_spent
      · trivial

theorem handleStopOn_spent {event : Event} : Spends (handleStopOn x sys job event) := by
  unfold handleStopOn
  split
  · trivial
  · refine .bind fun r => ?_
    dsimp only
    split
    · exact .bind fun _ => .bind fun _ => .bind fun _ => .bind fun _ => .bind fun _ => trivial
    · trivial

theorem inductInstance_spent {root : EventOperator} {env : List String} :
    Spends (inductInstance x sys job root env) := by
  refine .bind fun r => .bind fun r => ?_
  dsimp only
  rw [changeGoalIfOther_eq]
  exact jobChangeGoal_spent

theorem jobClassStartInstance_spent {env : List String} {message : MessageId} {wait : Bool} :
    Spends (jobClassStartInstance x sys job env message wait) := by
  unfold jobClassStartInstance
  split
  · trivial
  · rw [Spends, sat_bind]
    refine changeGoalFor_spent.imp fun r hr => ?_
    dsimp only
    split
    · exact hr
    · exact Spends.bind fun j => trivial

theorem jobClassRestartInstance_spent {env : List String} {message : MessageId} {wait : Bool} :
    Spends (jobClassRestartInstance x sys job env message wait) := by
  unfold jobClassRestartInstance
  split
  · trivial
  · rw [Spends, sat_bind]
    refine restartFor_spent.imp fun r hr => ?_
    dsimp only
    split
    · exact hr
    · exact Spends.bind fun j => trivial

/-- A step frees a job only once the job is spent. -/
theorem jobStep_spent {i : Input} : Spends (jobStep x sys job i) := by
  cases i with
  | changeGoal => exact jobChangeGoal_spent
  | start =>
    dsimp only [jobStep, jobStart]
    split
    · trivial
    · split
      · trivial
      · exact changeGoalFor_spent
  | stop =>
    dsimp only [jobStep, jobStop]
    split
    · trivial
    · exact changeGoalFor_spent
  | restart =>
    dsimp only [jobStep, jobRestart]
    split
    · trivial
    · exact restartFor_spent
  | classStart => exact jobClassStartInstance_spent
  | classStop =>
    dsimp only [jobStep, jobClassStopInstance]
    split
    · trivial
    · exact changeGoalFor_spent
  | classRestart => exact jobClassRestartInstance_spent
  | stopEvent => exact handleStopOn_spent
  | induct => exact inductInstance_spent
  | blockerFinished => exact jobAdvance_spent
  | childError => exact jobProcessChildReader_spent
  | childClosed => exact jobProcessCloseHandler_spent
  | childEvent => exact jobProcessHandler_spent
  | readyText pid buf =>
    dsimp only [jobStep, jobProcessReadyfdReader]
    split
    · exact jobAdvance_spent
    · trivial
  | killTimer =>
    refine Spends.bind fun _ => ?_
    split
    · trivial
    · exact Spends.bind fun _ => trivial
  | elsewhere => trivial

end Startup
