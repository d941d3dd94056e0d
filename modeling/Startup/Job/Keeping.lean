import Startup.Job.Machine

/-!
# Properties that requests keep

A request or an event writes who waits for a job and the environment that it is
given, and changes the goal.  `Kept P E` says that the property `P` does not depend on
the former and that `job_change_goal` keeps it, where faults are among those of `E`;
then every request and every event keeps it (`request_keeps`).  It is a property of what
a call leaves, so that it may also say that the job is not freed.
-/

namespace Startup

open Lib

/-- The property is kept by what requests and events are made of. -/
structure Kept (P : JobRef → Prop) (E : Fault → Prop) : Prop where
  given : ∀ {job : Job} (blocking : List Blocked) (startEnv stopEnv : Option (List String))
    (fds : List Int) (stopOn : Option EventOperator), P (.live job) →
    P (.live { job with
      blocking := blocking, startEnv := startEnv, stopEnv := stopEnv, fds := fds
      stopOn := stopOn })
  changeGoal : ∀ {x : Host} {sys : Sys} {job : Job} {goal : JobGoal}, P (.live job) →
    Sat (jobChangeGoal x sys job goal) (fun r => P r.2) E
  ofQueue : ∀ {f : Fault}, f.ofQueue = true → E f
  freed : ∀ fn, E (.useAfterFree fn)

namespace Kept

variable {P : JobRef → Prop} {E : Fault → Prop} {x : Host} {sys : Sys} {job : Job}

/-- The job is accessed after a call. -/
theorem get (hP : Kept P E) {α : Type} {fn : SourceFn} {ref : JobRef} {k : Job → Except Fault α}
    {Q : α → Prop} (h : P ref) (hk : ∀ job, P (.live job) → Sat (k job) Q E) :
    Sat (ref.get fn >>= k) Q E := by
  cases ref with
  | live job => exact hk job h
  | freed job => exact hP.freed fn

theorem jobFinished (hP : Kept P E) {failed : Bool} (h : P (.live job)) :
    Sat (jobFinished sys job failed) (fun r => P (.live r.2)) E := by
  refine (jobFinished_sat.and jobFinished_ofQueue).mono (fun r hr => ?_)
    fun f hf => hP.ofQueue hf.2
  rw [hr.1.1]
  exact hP.given [] job.startEnv job.stopEnv job.fds job.stopOn h

theorem replaceBlocking (hP : Kept P E) {entry : Blocked} {wait : Bool} (h : P (.live job)) :
    Sat (replaceBlocking sys job entry wait) (fun r => P (.live r.2)) E := by
  unfold Startup.replaceBlocking
  rw [sat_bind]
  refine (hP.jobFinished h).imp fun r hr => ?_
  cases wait with
  | true => exact hP.given _ r.2.startEnv r.2.stopEnv r.2.fds r.2.stopOn hr
  | false => exact hr

theorem changeGoalFor (hP : Kept P E) {entry : Blocked} {message : MessageId} {wait : Bool}
    {goal : JobGoal} (h : P (.live job)) :
    Sat (changeGoalFor x sys job entry message wait goal) (fun r => P r.2) E := by
  unfold Startup.changeGoalFor
  rw [sat_bind]
  refine (hP.replaceBlocking h).imp fun r hr => ?_
  rw [sat_bind]
  exact (hP.changeGoal hr).imp fun r hr => hr

theorem restartFor (hP : Kept P E) {entry : Blocked} {message : MessageId} {wait : Bool}
    (h : P (.live job)) : Sat (restartFor x sys job entry message wait) (fun r => P r.2) E := by
  unfold Startup.restartFor
  rw [sat_bind]
  refine (hP.replaceBlocking h).imp fun r hr => ?_
  rw [sat_bind]
  refine (hP.changeGoal hr).imp fun r hr => ?_
  refine hP.get hr fun j hj => ?_
  rw [sat_bind]
  exact (hP.changeGoal hj).imp fun r hr => hr

/-- The reply with the path of the job. -/
theorem replyPath (hP : Kept P E) {m : Except Fault (Sys × JobRef)} {fn : SourceFn} {wait : Bool}
    (h : Sat m (fun r => P r.2) E) : Sat (do
      let (sys, ref) ← m
      if wait then .ok (sys, ref)
      else
        let job ← ref.get fn
        .ok (sys, .live job)) (fun r => P r.2) E := by
  rw [sat_bind]
  refine h.imp fun r hr => ?_
  dsimp only
  split
  · exact hr
  · exact hP.get hr fun j hj => hj

theorem takeStopEnv (hP : Kept P E) {root : EventOperator} (h : P (.live job)) :
    Sat (takeStopEnv x sys job root) (fun r => P (.live r.2)) E := by
  unfold Startup.takeStopEnv
  split
  · rw [sat_bind]
    refine eventOperatorEnvironment_ofQueue.mono (fun env _ => ?_) fun _ => hP.ofQueue
    exact hP.jobFinished (hP.given job.blocking job.startEnv (some env) job.fds job.stopOn h)
  · exact h

theorem takeStartEnv (hP : Kept P E) {root : EventOperator} {env : List String}
    (h : P (.live job)) :
    Sat (takeStartEnv x sys job root env) (fun r => P (.live r.2)) E := by
  unfold Startup.takeStartEnv
  split
  · rw [sat_bind]
    refine (hP.jobFinished (hP.given job.blocking (some env) job.stopEnv job.fds job.stopOn
      h)).imp fun r hr => ?_
    rw [sat_bind]
    refine eventOperatorFds_ofQueue.mono (fun fds _ => ?_) fun _ => hP.ofQueue
    exact hP.given r.2.blocking _ r.2.stopEnv _ r.2.stopOn hr
  · exact h

theorem blockOnEvents (hP : Kept P E) {root : EventOperator} {cond : Bool} (h : P (.live job)) :
    Sat (blockOnEvents sys job root cond) (fun r => P (.live r.2)) E := by
  unfold Startup.blockOnEvents
  split
  · rw [sat_bind]
    refine eventOperatorEvents_ofQueue.mono (fun r _ => ?_) fun _ => hP.ofQueue
    exact hP.given _ job.startEnv job.stopEnv job.fds job.stopOn h
  · exact h

theorem handleStopOn (hP : Kept P E) {event : Event} (h : P (.live job)) :
    Sat (handleStopOn x sys job event) (fun r => P r.2) E := by
  have hstop : ∀ (j : Job) (root : Option EventOperator), P (.live j) →
      P (.live { j with stopOn := root }) :=
    fun j root hj => hP.given j.blocking j.startEnv j.stopEnv j.fds root hj
  unfold Startup.handleStopOn
  split
  · exact h
  rw [sat_bind]
  refine handleOperator_ofQueue.mono (fun r _ => ?_) fun _ => hP.ofQueue
  dsimp only
  split
  · unfold stopForEvents
    rw [sat_bind]
    refine (hP.takeStopEnv (hstop job _ h)).imp fun r hr => ?_
    rw [sat_bind]
    refine (hP.blockOnEvents hr).imp fun r hr => ?_
    dsimp only
    rw [changeGoalIfOther_eq, sat_bind]
    refine (hP.changeGoal hr).imp fun r hr => ?_
    refine hP.get hr fun j hj => ?_
    rw [sat_bind]
    exact resetOperator_ofQueue.mono (fun r _ => hstop j _ hj) fun _ => hP.ofQueue
  · exact hstop job _ h

theorem inductInstance (hP : Kept P E) {root : EventOperator} {env : List String}
    (h : P (.live job)) :
    Sat (inductInstance x sys job root env) (fun r => P r.2) E := by
  unfold Startup.inductInstance
  rw [sat_bind]
  refine (hP.takeStartEnv h).imp fun r hr => ?_
  rw [sat_bind]
  refine (hP.blockOnEvents hr).imp fun r hr => ?_
  dsimp only
  rw [changeGoalIfOther_eq]
  exact hP.changeGoal hr

end Kept

/-- The inputs that are no notification about a process, a timer or an event that a
job waits for. -/
def Input.requests : Input → Prop
  | .childError _ _ | .childClosed _ | .childEvent _ _ | .readyText _ _ | .killTimer => False
  | .blockerFinished => False
  | _ => True

/-- Requests and events keep a property that `job_change_goal` keeps. -/
theorem request_keeps {P : JobRef → Prop} {E : Fault → Prop} (hP : Kept P E) {x : Host} {sys : Sys}
    {job : Job} {i : Input} (hi : i.requests) (h : P (.live job)) :
    Sat (jobStep x sys job i) (fun r => P r.2) E := by
  have hgiven : ∀ startEnv stopEnv,
      P (.live { job with startEnv := startEnv, stopEnv := stopEnv }) :=
    fun startEnv stopEnv => hP.given job.blocking startEnv stopEnv job.fds job.stopOn h
  cases i with
  | changeGoal => exact hP.changeGoal h
  | start =>
    dsimp only [jobStep, jobStart]
    split
    · exact h
    · split
      · exact h
      · exact hP.changeGoalFor (hgiven none job.stopEnv)
  | stop =>
    dsimp only [jobStep, jobStop]
    split
    · exact h
    · exact hP.changeGoalFor (hgiven job.startEnv none)
  | restart =>
    dsimp only [jobStep, jobRestart]
    split
    · exact h
    · exact hP.restartFor (hgiven none none)
  | classStart env =>
    dsimp only [jobStep, jobClassStartInstance]
    split
    · exact h
    · exact hP.replyPath (hP.changeGoalFor (hgiven (some env) job.stopEnv))
  | classStop env =>
    dsimp only [jobStep, jobClassStopInstance]
    split
    · exact h
    · exact hP.changeGoalFor (hgiven job.startEnv (some env))
  | classRestart env =>
    dsimp only [jobStep, jobClassRestartInstance]
    split
    · exact h
    · exact hP.replyPath (hP.restartFor (hgiven (some env) none))
  | stopEvent => exact hP.handleStopOn h
  | induct => exact hP.inductInstance h
  | elsewhere => exact h
  | childError | childClosed | childEvent | readyText | killTimer | blockerFinished =>
    exact hi.elim

end Startup
