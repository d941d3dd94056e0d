import Startup.Job.WakeUp

/-!
# The two notifications of a child that could not be set up

A child whose set-up fails reports the error through its pipe and exits with the
status 255.  Init may handle the error first (`errorFirst`) or the exit first
(`exitFirst`).  `orders_agree_iff` says for every reachable job exactly when the
two orders end in the same way.

The proof follows each handler through the stages of the job: `Stage` is what is
compared of the job, and what the next handler depends on.
-/

namespace Startup

open Lib

/-! ## The two orders -/

/-- What is compared at the end. -/
structure Outcome where
  state : JobState
  goal : JobGoal
  pid : ProcessType → Pid
  failed : Bool
  failedProcess : Option ProcessType

/-- The outcome that a job shows. -/
def Job.outcome (job : Job) : Outcome where
  state := job.state
  goal := job.goal
  pid := job.pid
  failed := job.failed
  failedProcess := job.failedProcess

/-- Both programs return, with jobs that are both there or both freed and show
the same outcome. -/
def SameEnd : Except Fault (Sys × JobRef) → Except Fault (Sys × JobRef) → Prop
  | .ok (_, .live job), .ok (_, .live job') => job.outcome = job'.outcome
  | .ok (_, .freed job), .ok (_, .freed job') => job.outcome = job'.outcome
  | _, _ => False

/-- The permanent error from the set-up pipe of a child; the pipe of a job that
has been freed is gone. -/
def childFailed (x : Host) (pid : Pid) : Sys × JobRef → Except Fault (Sys × JobRef)
  | (sys, .live job) => jobProcessChildReader x sys job pid true
  | (sys, .freed job) => .ok (sys, .freed job)

/-- The exit of the child that was the process `p` of the job.  It is ignored
where no job has a process of that pid. -/
def childExited (x : Host) (p : ProcessType) (pid : Pid) (status : Int) :
    Sys × JobRef → Except Fault (Sys × JobRef)
  | (sys, .live job) =>
    if job.pid p = pid then jobProcessHandler x sys job p (.exited status)
    else .ok (sys, .live job)
  | (sys, .freed job) => .ok (sys, .freed job)

/-- The error is handled first, and the exit second. -/
def errorFirst (x₁ x₂ : Host) (sys : Sys) (job : Job) (p : ProcessType) (pid : Pid) :
    Except Fault (Sys × JobRef) :=
  childFailed x₁ pid (sys, .live job) >>= childExited x₂ p pid 255

/-- The exit is handled first, and the error second. -/
def exitFirst (x₁ x₂ : Host) (sys : Sys) (job : Job) (p : ProcessType) (pid : Pid) :
    Except Fault (Sys × JobRef) :=
  childExited x₁ p pid 255 (sys, .live job) >>= childFailed x₂ pid

/-- The job waits for the process `p`, which has been spawned as the child `pid`
and neither of whose notifications has been handled. -/
structure Awaits (job : Job) (p : ProcessType) (pid : Pid) : Prop where
  state : job.state = p.waitState
  slot : job.pid p = pid
  pos : 0 < pid
  data : ∃ d, job.data? pid = some d ∧ d.valid = true ∧ d.process = p

/-- Whether the exit of a main process that could not be set up makes init find
that the job respawns too fast. -/
def Runaway (x : Host) (job : Job) : Prop :=
  job.goal = .start ∧ job.cls.respawn = true ∧ mainFailed job.cls 255 = true ∧
    x.disableRespawn = false ∧ (jobProcessCatchRunaway x job).2 = true

instance (x : Host) (job : Job) : Decidable (Runaway x job) := by
  unfold Runaway
  infer_instance

/-- The condition under which the order of the two notifications does not
matter. -/
def OrdersAgree (x : Host) (job : Job) : ProcessType → Prop
  | .security | .postStop => False
  | .preStart => True
  | .postStart | .preStop => job.goal ≠ .start
  | .main => ¬ (Runaway x job ∧ job.failed = false)

/-! ## Stages -/

/-- A job on its way: its outcome so far, whether it is blocked, and the set-up
data of the child, which are still valid. -/
structure Stage (p : ProcessType) (pid : Pid) (o : Outcome) (blocked : Bool) (sys : Sys)
    (job : Job) : Prop where
  outcome : job.outcome = o
  blocked : job.blocker.isSome = blocked
  owned : Owned sys job
  data : ∃ d, job.data? pid = some d ∧ d.valid = true ∧ d.process = p

/-- The program returns with the job, which satisfies `P`. -/
def Ends (m : Except Fault (Sys × JobRef)) (P : Sys → Job → Prop) : Prop :=
  ∃ sys job, m = .ok (sys, .live job) ∧ P sys job

theorem Ends.bind {m : Except Fault (Sys × JobRef)} {k : Sys × JobRef → Except Fault (Sys × JobRef)}
    {P Q : Sys → Job → Prop} (h : Ends m P) (hk : ∀ sys job, P sys job →
      Ends (k (sys, .live job)) Q) : Ends (m >>= k) Q := by
  obtain ⟨sys, job, rfl, hp⟩ := h
  exact hk sys job hp

theorem sameEnd_iff {m m' : Except Fault (Sys × JobRef)} {o o' : Outcome}
    (h : Ends m fun _ job => job.outcome = o) (h' : Ends m' fun _ job => job.outcome = o') :
    SameEnd m m' ↔ o = o' := by
  obtain ⟨sys, job, rfl, rfl⟩ := h
  obtain ⟨sys', job', rfl, rfl⟩ := h'
  exact Iff.rfl

namespace Outcome

/-- The outcome after a failure, of which the first is recorded. -/
def fail (o : Outcome) (p : Option ProcessType) : Outcome :=
  { o with failed := true, failedProcess := if o.failed then o.failedProcess else p }

/-- The outcome after the end of a process. -/
def clear (o : Outcome) (p : ProcessType) : Outcome :=
  { o with pid := Function.update o.pid p 0 }

/-- The states and goals from which a job goes straight to stopping. -/
def Stops (o : Outcome) : Prop :=
  (o.goal = .stop ∧ (o.state = .preStart ∨ o.state = .security ∨ o.state = .spawned)) ∨
    (o.goal ≠ .start ∧ (o.state = .postStart ∨ o.state = .preStop)) ∨
    (o.goal = .start ∧ o.state = .running)

/-- The outcome after `job_process_terminated` has recorded the end of a process
and set the goal. -/
def ended (o : Outcome) (p : ProcessType) (v : Verdict) : Outcome :=
  let o := if v.failed then (o.clear p).fail (some p) else o.clear p
  if v.stop then { o with goal := .stop } else o

end Outcome

namespace Stage

variable {p : ProcessType} {pid : Pid} {o : Outcome} {b : Bool} {sys : Sys} {job : Job}
  {x : Host}

theorem state (h : Stage p pid o b sys job) : job.state = o.state := by rw [← h.outcome]; rfl

theorem goal (h : Stage p pid o b sys job) : job.goal = o.goal := by rw [← h.outcome]; rfl

theorem failed (h : Stage p pid o b sys job) : job.failed = o.failed := by rw [← h.outcome]; rfl

theorem act (h : Stage p pid o b sys job) (a : Action) : Stage p pid o b (sys.act a) job :=
  ⟨h.outcome, h.blocked, (Frame.act sys job a).owned h.owned, h.data⟩

theorem clear (h : Stage p pid o b sys job) (q : ProcessType) :
    Stage p pid (o.clear q) b sys (job.setPid q 0) :=
  ⟨by rw [← h.outcome]; rfl, h.blocked, (setPid_frame q 0).owned h.owned, h.data⟩

theorem setGoal (h : Stage p pid o b sys job) (goal : JobGoal) :
    Stage p pid { o with goal := goal } b sys (job.setGoal goal) :=
  ⟨by rw [← h.outcome]; rfl, h.blocked, (setGoal_frame goal).owned h.owned, h.data⟩

theorem cancelKill (h : Stage p pid o b sys job) : Stage p pid o b sys job.cancelKill := by
  have ho := (cancelKill_frame sys job).owned h.owned
  revert ho
  unfold Job.cancelKill
  split
  · exact fun ho => ⟨h.outcome, h.blocked, ho, h.data⟩
  · exact fun _ => h

theorem catchRunaway (h : Stage p pid o b sys job) (x : Host) :
    Stage p pid o b sys (jobProcessCatchRunaway x job).1 := by
  have ho := (jobProcessCatchRunaway_frame x sys job).owned h.owned
  revert ho
  unfold jobProcessCatchRunaway
  split
  · split
    · exact fun ho => ⟨h.outcome, h.blocked, ho, h.data⟩
    · exact fun ho => ⟨h.outcome, h.blocked, ho, h.data⟩
  · exact fun _ => h

/-- `job_failed` returns, and records the first failure. -/
theorem fail (h : Stage p pid o b sys job) (q : Option ProcessType) (status : Int) :
    ∃ sys' job', jobFailed sys job q status = .ok (sys', job') ∧
      Stage p pid (o.fail q) b sys' job' := by
  have hsat : Sat (jobFailed sys job q status)
      (fun r => Fails sys job q status r.1 r.2 ∧ Frame sys job r.1 r.2) (fun _ => False) :=
    (jobFailed_sat.and (jobFailed_frame h.owned)).mono (fun _ h => h)
      fun _ hf => hf.1.2 h.owned.releasable
  obtain ⟨⟨sys', job'⟩, hm, hfails, hframe⟩ := hsat.exists_ok
  refine ⟨sys', job', hm, ?_, ?_, hframe.owned h.owned, ?_⟩
  · cases hfails with
    | already failed =>
      rw [h.failed] at failed
      rw [h.outcome, Outcome.fail, failed]
      cases o
      simp_all
    | now failed finish =>
      rw [h.failed] at failed
      rw [← h.outcome] at failed ⊢
      simp [Job.outcome, Outcome.fail] at failed ⊢
      simp [failed]
  · cases hfails <;> exact h.blocked
  · cases hfails <;> exact h.data

/-- The goal is set to stop where the job is neither running nor stopped. -/
theorem stop (h : Stage p pid o b sys job) (hs : o.state ≠ .running) :
    ∃ job', jobChangeGoal x sys job .stop = .ok (sys, .live job') ∧
      Stage p pid { o with goal := .stop } b sys job' := by
  refine ⟨job.setGoal .stop, ?_, h.setGoal .stop⟩
  rw [jobChangeGoal_eq, if_neg]
  simp [Moves, h.state, hs]

/-- A job that waits for an event stays where it is. -/
theorem stay (h : Stage p pid o true sys job) (hs : o.state = .stopping)
    (hg : o.goal ≠ .respawn) : Ends (jobAdvance x sys job) (Stage p pid o true) := by
  have hstate := h.state.trans hs
  have hgoal : job.goal ≠ .respawn := h.goal ▸ hg
  have hnext : jobNextState job = .ok (job, .killed) := by
    unfold jobNextState
    rw [hstate]
    cases hj : job.goal <;> simp_all
  refine ⟨sys, job, ?_, h⟩
  simp [jobAdvance, hnext, jobChangeState, jobChangeStateLoop, hstate, h.blocked, bind,
    Except.bind]

/-- A job that goes straight to stopping waits there for its event. -/
theorem stops (h : Stage p pid o false sys job) (hs : o.Stops) :
    Ends (jobAdvance x sys job)
      (Stage p pid { o with state := .stopping, goal := o.goal.next } true) := by
  have hb : job.blocker = none := by simpa using h.blocked
  have hself : ∀ goal, job.goal = goal → job.setGoal goal = job := by
    rintro _ rfl
    rfl
  have hnext : jobNextState job = .ok (job.setGoal job.goal.next, .stopping) := by
    unfold jobNextState
    rcases hs with ⟨hg, hs | hs | hs⟩ | ⟨hg, hs | hs⟩ | ⟨hg, hs⟩ <;>
      rw [← h.state] at hs <;> rw [← h.goal] at hg <;>
      cases hj : job.goal <;> simp_all [JobGoal.next]
  have hedge : edge (job.setGoal job.goal.next).goal (job.setGoal job.goal.next).state
      .stopping = true := by
    show edge _ job.state _ = true
    rw [h.state]
    rcases hs with ⟨-, hs | hs | hs⟩ | ⟨-, hs | hs⟩ | ⟨-, hs⟩ <;> simp [hs, edge]
  obtain ⟨sys', e, hemit, heq⟩ := jobChangeState_stopping x sys
    (show (job.setGoal job.goal.next).blocker = none from hb) hedge
  have hframe : Framed sys job (jobAdvance x sys job) := jobAdvance_frame h.owned
  have hadvance : jobAdvance x sys job = .ok (sys', .live { job.setGoal job.goal.next with
      state := .stopping, blocker := some e }) := by
    rw [jobAdvance, hnext]
    exact heq
  rw [hadvance] at hframe
  refine ⟨_, _, hadvance, ?_, rfl, Frame.owned hframe h.owned, h.data⟩
  rw [← h.outcome]
  rfl

/-- From its `post-start` or `pre-stop` process a job goes on to running. -/
theorem runs (h : Stage p pid o false sys job) (hs : o.state = .postStart ∨ o.state = .preStop)
    (hg : o.goal = .start) :
    Ends (jobAdvance x sys job) (Stage p pid { o with state := .running } false) := by
  have hb : job.blocker = none := by simpa using h.blocked
  have hgoal := h.goal.trans hg
  have hstate : job.state = .postStart ∨ job.state = .preStop := by
    rw [h.state]
    exact hs
  have hnext : jobNextState job = .ok (job, .running) := by
    unfold jobNextState
    rcases hstate with hs | hs <;> simp [hs, hgoal]
  have hframe : Framed sys job (jobAdvance x sys job) := jobAdvance_frame h.owned
  -- the loop ends after one pass
  have hloop : ∀ (sys' : Sys) (job' : Job), job'.state = .running →
      jobChangeStateLoop x 16 sys' job' .running = .ok (sys', .live job') := by
    intro sys' job' hs'
    rw [jobChangeStateLoop, if_pos hs']
  have hne : job.state ≠ .running := by rcases hstate with hs | hs <;> simp [hs]
  have hpass : ∃ sys' job', jobEnterState x sys job.state { job with state := .running } =
      .ok (.next sys' job' .running) ∧ job'.state = .running ∧
      job'.outcome = { o with state := .running } ∧ job'.blocker = none ∧
      job'.datas = job.datas := by
    have hout : ∀ job' : Job, job'.state = .running → job'.goal = job.goal →
        job'.pid = job.pid → job'.failed = job.failed → job'.failedProcess = job.failedProcess →
        job'.outcome = { o with state := .running } := by
      intro job' h₁ h₂ h₃ h₄ h₅
      rw [← h.outcome]
      simp [Job.outcome, h₁, h₂, h₃, h₄, h₅]
    have hrel := h.owned.releasable
    have henter : Sat (jobEnterState x sys job.state { job with state := .running })
        (fun pass => ∃ sys' job', pass = .next sys' job' .running ∧ job'.state = .running ∧
          job'.outcome = { o with state := .running } ∧ job'.blocker = none ∧
          job'.datas = job.datas) (fun _ => False) := by
      unfold jobEnterState
      dsimp only
      refine sat_assert (fun h => by simp [hgoal] at h) fun _ =>
        sat_assert (fun h => by rcases hstate with hs | hs <;> simp [hs] at h) fun _ => ?_
      split
      · rw [sat_bind]
        refine jobFinished_sat.mono ?_ fun f hf => hf.2 hrel
        rintro ⟨sys', _⟩ ⟨rfl, -⟩
        exact ⟨sys', _, rfl, rfl, hout _ rfl rfl rfl rfl rfl, hb, rfl⟩
      · obtain ⟨sys₁, e, he⟩ := jobEmitEvent_ok x sys { job with state := .running } (by rfl)
        have hrel₁ := (jobEmitEvent_emitted he).releasable hrel
        simp only [he, sat_bind, sat_ok]
        split
        · rw [sat_bind]
          refine jobFinished_sat.mono ?_ fun f hf => hf.2 hrel₁
          rintro ⟨sys', _⟩ ⟨rfl, -⟩
          exact ⟨sys', _, rfl, rfl, hout _ rfl rfl rfl rfl rfl, hb, rfl⟩
        · exact ⟨sys₁, _, rfl, rfl, hout _ rfl rfl rfl rfl rfl, hb, rfl⟩
    obtain ⟨pass, hpass, sys', job', rfl, hrest⟩ := henter.exists_ok
    exact ⟨sys', job', hpass, hrest⟩
  obtain ⟨sys', job', hp, hrun, hout, hb', hdatas⟩ := hpass
  have hadvance : jobAdvance x sys job = .ok (sys', .live job') := by
    rw [jobAdvance, hnext]
    show jobChangeState x sys job .running = _
    rw [jobChangeState, jobChangeStateLoop, if_neg hne, if_neg (by simp [hb]), hp]
    exact hloop sys' job' hrun
  rw [hadvance] at hframe
  refine ⟨_, _, hadvance, hout, by simp [hb'], Frame.owned hframe h.owned, ?_⟩
  simpa [Job.data?, hdatas] using h.data

/-! ### The handlers -/

variable {q : ProcessType} {P : Sys → Job → Prop}

/-- A failure, and a goal to stop that does not move the job. -/
theorem failAndAdvance (h : Stage p pid o b sys job) (hs : o.state ≠ .running)
    (hadvance : ∀ sys' job', Stage p pid { o.fail (some q) with goal := .stop } b sys' job' →
      Ends (jobAdvance x sys' job') P) :
    Ends (Startup.failAndAdvance x sys job q) P := by
  obtain ⟨sys₁, job₁, heq₁, h₁⟩ := h.fail (some q) (-1)
  obtain ⟨job₂, heq₂, h₂⟩ := h₁.stop (x := x) (show (o.fail (some q)).state ≠ .running from hs)
  have hend := hadvance sys₁ job₂ h₂
  rw [Startup.failAndAdvance, heq₁]
  simp only [bind, Except.bind, heq₂, JobRef.get_live]
  exact hend

/-- What `job_process_child_reader` does besides calling the error handler is
not compared. -/
theorem childFailed (h : Stage p pid o b sys job) {o' : Outcome}
    (hhandler : ∀ job', Stage p pid o b sys job' →
      Ends (jobChildErrorHandler x sys job' p) fun _ j => j.outcome = o') :
    Ends (Startup.childFailed x pid (sys, .live job)) fun _ j => j.outcome = o' := by
  obtain ⟨d, hd, hvalid, hp⟩ := h.data
  have hscript : Stage p pid o b sys (job.modifyData pid fun d => { d with script := none }) := by
    refine ⟨h.outcome, h.blocked, (modifyData_frame pid _).owned h.owned,
      { d with script := none }, ?_, hvalid, hp⟩
    have hpid : d.pid = pid := by simpa using List.find?_some hd
    simp only [Job.data?, Job.modifyData, List.find?_map]
    have hfun : ((fun d : JobProcessData => decide (d.pid = pid)) ∘ fun d =>
        if d.pid = pid then { d with script := none } else d) = fun d => decide (d.pid = pid) := by
      funext d
      simp only [Function.comp]
      split <;> simp_all
    rw [hfun, show job.datas.find? (fun d => decide (d.pid = pid)) = some d from hd]
    simp [hpid]
  obtain ⟨sys', job', heq, hout⟩ := hhandler _ hscript
  refine ⟨sys', job'.modifyData pid fun d => { d with valid := false }, ?_, hout⟩
  simp only [Startup.childFailed, jobProcessChildReader, hd, hvalid, Bool.not_true, Bool.or_self,
    Bool.false_eq_true, if_false, hp]
  rw [heq]
  rfl

/-- The rest of `job_process_terminated`, for a job that is not running. -/
theorem afterTerminated (h : Stage p pid o b sys job) {status : Int} {v : Verdict}
    (hs : o.state ≠ .running)
    (hstay : v.state = false → ∀ sys' job', Stage p pid (o.ended q v) b sys' job' → P sys' job')
    (hadvance : v.state = true → ∀ sys' job', Stage p pid (o.ended q v) b sys' job' →
      Ends (jobAdvance x sys' job') P) :
    Ends (Startup.afterTerminated x sys job q status false v) P := by
  obtain ⟨failed, stop, state⟩ := v
  -- what follows the record of the end
  have hrest : ∀ (o₁ : Outcome) (sys₁ : Sys) (job₁ : Job), Stage p pid o₁ b sys₁ job₁ →
      o₁.state ≠ .running →
      o.ended q ⟨failed, stop, state⟩ = (if stop then { o₁ with goal := .stop } else o₁) →
      Ends (stopOrAdvance x sys₁ job₁ stop state) P := by
    intro o₁ sys₁ job₁ h₁ hs₁ ho
    have hgoal : ∃ job₂, (if stop then jobChangeGoal x sys₁ job₁ .stop
        else .ok (sys₁, .live job₁)) = .ok (sys₁, .live job₂) ∧
        Stage p pid (o.ended q ⟨failed, stop, state⟩) b sys₁ job₂ := by
      rw [ho]
      cases stop with
      | true => exact h₁.stop hs₁
      | false => exact ⟨job₁, rfl, h₁⟩
    obtain ⟨job₂, heq₂, h₂⟩ := hgoal
    have hs₂ : job₂.state ≠ .running := by
      rw [h₂.state, ho]
      cases stop <;> exact hs₁
    have hend : Ends (if state then jobAdvance x sys₁ job₂ else .ok (sys₁, .live job₂)) P := by
      cases state with
      | true => exact hadvance rfl sys₁ job₂ h₂
      | false => exact ⟨sys₁, job₂, rfl, hstay rfl sys₁ job₂ h₂⟩
    unfold stopOrAdvance
    cases stop <;> simp only [Bool.false_eq_true, if_false, if_true] at heq₂ ⊢ <;> rw [heq₂] <;>
      simpa [bind, Except.bind, hs₂] using hend
  have hclear := h.cancelKill.clear q
  rw [afterTerminated_eq]
  cases failed with
  | true =>
    obtain ⟨sys₁, job₁, heq₁, h₁⟩ := hclear.fail (some q) status
    have := hrest _ sys₁ job₁ h₁ hs rfl
    simpa [heq₁, bind, Except.bind, nihAssert] using this
  | false =>
    have := hrest _ sys _ hclear hs rfl
    simpa [bind, Except.bind, nihAssert] using this

/-- The exit of a process that the job waits for, other than the main one: the
job goes on, with a failure unless the process is one of the two whose failure
is ignored. -/
theorem exited (h : Stage p pid o false sys job) (hs : o.state = p.waitState)
    (hp : p ≠ .main) (hslot : job.pid p = pid) {v : Verdict}
    (hv : v = if p = .postStart ∨ p = .preStop then ⟨false, false, true⟩ else ⟨true, true, true⟩)
    (hadvance : ∀ sys' job', Stage p pid (o.ended p v) false sys' job' →
      Ends (jobAdvance x sys' job') P) :
    Ends (childExited x p pid 255 (sys, .live job)) P := by
  have hstate := h.state.trans hs
  have hne : o.state ≠ .running := by
    rw [hs]
    cases p <;> simp [ProcessType.waitState]
  have hrest : job.state.spawning? = false := by
    rw [hstate]
    cases p <;> rfl
  have hswitch : ∀ sys', processTerminated x sys' job p 255 = .ok (sys', .live job, v) := by
    intro sys'
    rw [hv]
    cases p <;> simp_all [processTerminated, ProcessType.waitState, nihAssert, bind, Except.bind]
  simp only [childExited, hslot, if_true, jobProcessHandler, jobProcessTerminated, hrest,
    Bool.false_eq_true, if_false, hswitch]
  exact (h.act (.exited pid)).afterTerminated hne (by subst hv; split <;> simp) fun _ => hadvance

/-- A set-up error that is handled while the job waits to stop. -/
theorem errorLate (h : Stage p pid o true sys job) (hs : o.state = .stopping)
    (hg : o.goal ≠ .respawn) :
    Ends (jobChildErrorHandler x sys job p) fun _ j => j.outcome =
      if p = .postStart ∨ p = .preStop then o.clear p
      else { (o.clear p).fail (some p) with goal := .stop } := by
  have hclear := h.clear p
  have hne : o.state ≠ .running := by simp [hs]
  have hfail : Ends (Startup.failAndAdvance x sys (job.setPid p 0) p)
      (fun _ j => j.outcome = { (o.clear p).fail (some p) with goal := .stop }) := by
    refine hclear.failAndAdvance hne fun sys' job' h' => ?_
    obtain ⟨sys₁, job₁, heq, h₁⟩ := h'.stay (x := x) hs (by simp)
    exact ⟨sys₁, job₁, heq, h₁.outcome⟩
  have hstay : Ends (jobAdvance x sys (job.setPid p 0)) (fun _ j => j.outcome = o.clear p) := by
    obtain ⟨sys₁, job₁, heq, h₁⟩ := hclear.stay (x := x) hs hg
    exact ⟨sys₁, job₁, heq, h₁.outcome⟩
  cases p with
  | security =>
    obtain ⟨sys₁, job₁, heq₁, h₁⟩ := hclear.fail (some .security) (-1)
    obtain ⟨job₂, heq₂, h₂⟩ := h₁.stop (x := x) hne
    refine ⟨sys₁, job₂, ?_, h₂.outcome⟩
    simp only [jobChildErrorHandler, heq₁, bind, Except.bind]
    exact heq₂
  | preStart | main | postStop => exact hfail
  | postStart | preStop => exact hstay

end Stage

/-! ## The ends of the two orders -/

variable {x x₁ x₂ : Host} {sys : Sys} {job : Job} {p : ProcessType} {pid : Pid} {o o₁ : Outcome}

/-- Once the error has been handled, the exit is ignored. -/
theorem errorFirst_ends (hpos : 0 < pid)
    (h : Ends (childFailed x₁ pid (sys, .live job)) fun _ j => j.outcome = o)
    (hzero : o.pid p = 0) :
    Ends (errorFirst x₁ x₂ sys job p pid) fun _ j => j.outcome = o := by
  refine h.bind fun sys' job' hout => ⟨sys', job', ?_, hout⟩
  have hslot : job'.pid p = 0 := by
    rw [← hzero, ← hout]
    rfl
  rw [childExited, if_neg (by rw [hslot]; exact hpos.ne)]

/-- Once the job waits to stop, the error changes nothing of its state. -/
theorem exitFirst_ends (h : Ends (childExited x₁ p pid 255 (sys, .live job)) (Stage p pid o₁ true))
    (hs : o₁.state = .stopping) (hg : o₁.goal ≠ .respawn) :
    Ends (exitFirst x₁ x₂ sys job p pid) fun _ j => j.outcome =
      if p = .postStart ∨ p = .preStop then o₁.clear p
      else { (o₁.clear p).fail (some p) with goal := .stop } :=
  h.bind fun _ _ h₁ => h₁.childFailed fun _ h₂ => h₂.errorLate hs hg

/-- A job that waits for a process is at the first stage. -/
theorem Awaits.stage (ha : Awaits job p pid) (h : Reached Always (sys, .live job)) :
    Stage p pid job.outcome false sys job := by
  refine ⟨rfl, ?_, h.owned, ha.data⟩
  have hset : Settled (· ≠ .security) job := reached_settled h
  have hb := hset.blocked
  rw [ha.state] at hb
  cases hj : job.blocker with
  | none => rfl
  | some e => cases p <;> simp [hj, ProcessType.waitState] at hb

theorem Awaits.goal (ha : Awaits job p pid) (h : Reached Always (sys, .live job))
    (hp : p ≠ .postStart ∧ p ≠ .preStop) : job.goal ≠ .respawn := by
  intro hg
  have hset : Settled (· ≠ .security) job := reached_settled h
  have := hset.respawn hg
  rw [ha.state] at this
  cases p <;> simp_all [ProcessType.waitState]

/-- A `pre-start` process that cannot be set up. -/
theorem preStart_orders (h : Reached Always (sys, .live job)) (ha : Awaits job .preStart pid) :
    SameEnd (errorFirst x₁ x₂ sys job .preStart pid) (exitFirst x₁ x₂ sys job .preStart pid) := by
  have hstage := ha.stage h
  have hs : job.outcome.state = .preStart := ha.state
  have herror : Ends (childFailed x₁ pid (sys, .live job)) fun _ j => j.outcome =
      { (job.outcome.clear .preStart).fail (some .preStart) with
        goal := .stop, state := .stopping } := by
    refine hstage.childFailed fun job' h' => ?_
    refine (h'.clear .preStart).failAndAdvance (by simp [Outcome.clear, hs]) fun sys₁ job₁ h₁ => ?_
    obtain ⟨sys₂, job₂, heq, h₂⟩ := h₁.stops (x := x₁)
      (.inl ⟨rfl, .inl (by simp [Outcome.clear, Outcome.fail, hs])⟩)
    exact ⟨sys₂, job₂, heq, h₂.outcome⟩
  have hexit : Ends (childExited x₁ .preStart pid 255 (sys, .live job))
      (Stage .preStart pid { job.outcome.ended .preStart ⟨true, true, true⟩ with
        state := .stopping } true) := by
    refine hstage.exited hs (by simp) ha.slot rfl fun sys₁ job₁ h₁ => ?_
    exact h₁.stops (.inl ⟨rfl, .inl (by simp [Outcome.ended, Outcome.clear, Outcome.fail, hs])⟩)
  refine (sameEnd_iff (errorFirst_ends ha.pos herror ?_) (exitFirst_ends hexit rfl ?_)).mpr ?_
  · simp [Outcome.fail, Outcome.clear]
  · simp [Outcome.ended]
  · simp [Outcome.ended, Outcome.fail, Outcome.clear]

/-- A `post-start` or `pre-stop` process that cannot be set up: with the goal to
run, the job goes on to running whichever notification comes first, and stops
when the error comes second. -/
theorem ignored_orders (h : Reached Always (sys, .live job)) (ha : Awaits job p pid)
    (hp : p = .postStart ∨ p = .preStop) :
    SameEnd (errorFirst x₁ x₂ sys job p pid) (exitFirst x₁ x₂ sys job p pid) ↔
      job.goal ≠ .start := by
  have hstage := ha.stage h
  have hs : job.outcome.state = .postStart ∨ job.outcome.state = .preStop := by
    rcases hp with rfl | rfl
    · exact .inl ha.state
    · exact .inr ha.state
  have hmain : p ≠ .main := by rcases hp with rfl | rfl <;> simp
  have hhandler : ∀ (x : Host) (sys' : Sys) (job' : Job),
      jobChildErrorHandler x sys' job' p = jobAdvance x sys' (job'.setPid p 0) := by
    rcases hp with rfl | rfl <;> exact fun _ _ _ => rfl
  by_cases hg : job.goal = .start
  · have hgoal : job.outcome.goal = .start := hg
    have herror : Ends (childFailed x₁ pid (sys, .live job)) fun _ j => j.outcome =
        { job.outcome.clear p with state := .running } := by
      refine hstage.childFailed fun job' h' => ?_
      rw [hhandler]
      obtain ⟨sys₁, job₁, heq, h₁⟩ := (h'.clear p).runs (x := x₁) hs hgoal
      exact ⟨sys₁, job₁, heq, h₁.outcome⟩
    have hexit : Ends (childExited x₁ p pid 255 (sys, .live job))
        (Stage p pid { job.outcome.clear p with state := .running } false) := by
      refine hstage.exited ha.state hmain ha.slot (v := ⟨false, false, true⟩) (by simp [hp])
        fun sys₁ job₁ h₁ => h₁.runs hs hgoal
    have hlate : Ends (exitFirst x₁ x₂ sys job p pid) fun _ j =>
        j.outcome = { (job.outcome.clear p).clear p with state := .stopping } := by
      refine hexit.bind fun _ _ h₁ => h₁.childFailed fun _ h₂ => ?_
      rw [hhandler]
      obtain ⟨sys₃, job₃, heq, h₃⟩ := (h₂.clear p).stops (x := x₂) (.inr (.inr ⟨hgoal, rfl⟩))
      refine ⟨sys₃, job₃, heq, h₃.outcome.trans ?_⟩
      simp [Outcome.clear, hgoal, JobGoal.next]
    rw [sameEnd_iff (errorFirst_ends ha.pos herror (by simp [Outcome.clear])) hlate]
    simp [hg]
  · have hgoal : job.outcome.goal ≠ .start := hg
    have herror : Ends (childFailed x₁ pid (sys, .live job)) fun _ j => j.outcome =
        { job.outcome.clear p with state := .stopping, goal := job.outcome.goal.next } := by
      refine hstage.childFailed fun job' h' => ?_
      rw [hhandler]
      obtain ⟨sys₁, job₁, heq, h₁⟩ := (h'.clear p).stops (x := x₁) (.inr (.inl ⟨hgoal, hs⟩))
      exact ⟨sys₁, job₁, heq, h₁.outcome⟩
    have hexit : Ends (childExited x₁ p pid 255 (sys, .live job)) (Stage p pid
        { job.outcome.clear p with state := .stopping, goal := job.outcome.goal.next } true) := by
      refine hstage.exited ha.state hmain ha.slot (v := ⟨false, false, true⟩) (by simp [hp])
        fun sys₁ job₁ h₁ => h₁.stops (.inr (.inl ⟨hgoal, hs⟩))
    rw [sameEnd_iff (errorFirst_ends ha.pos herror (by simp [Outcome.clear]))
      (exitFirst_ends hexit rfl (JobGoal.next_ne_respawn _)), if_pos hp]
    simp [hg, Outcome.clear]

/-- A security process that cannot be set up: the error leaves the job in
`JOB_SECURITY`, while the exit stops it. -/
theorem security_orders (h : Reached Always (sys, .live job)) (ha : Awaits job .security pid) :
    ¬ SameEnd (errorFirst x₁ x₂ sys job .security pid)
      (exitFirst x₁ x₂ sys job .security pid) := by
  have hstage := ha.stage h
  have hs : job.outcome.state = .security := ha.state
  have herror : Ends (childFailed x₁ pid (sys, .live job)) fun _ j => j.outcome =
      { (job.outcome.clear .security).fail (some .security) with goal := .stop } := by
    refine hstage.childFailed fun job' h' => ?_
    obtain ⟨sys₁, job₁, heq₁, h₁⟩ := (h'.clear .security).fail (some .security) (-1)
    obtain ⟨job₂, heq₂, h₂⟩ := h₁.stop (x := x₁) (by simp [Outcome.clear, Outcome.fail, hs])
    refine ⟨sys₁, job₂, ?_, h₂.outcome⟩
    simp only [jobChildErrorHandler, heq₁, bind, Except.bind]
    exact heq₂
  have hexit : Ends (childExited x₁ .security pid 255 (sys, .live job))
      (Stage .security pid { job.outcome.ended .security ⟨true, true, true⟩ with
        state := .stopping } true) := by
    refine hstage.exited hs (by simp) ha.slot rfl fun sys₁ job₁ h₁ => ?_
    exact h₁.stops (.inl ⟨rfl, .inr (.inl
      (by simp [Outcome.ended, Outcome.clear, Outcome.fail, hs]))⟩)
  rw [sameEnd_iff (errorFirst_ends ha.pos herror (by simp [Outcome.fail, Outcome.clear]))
    (exitFirst_ends hexit rfl (by simp [Outcome.ended]))]
  intro heq
  have := congrArg Outcome.state heq
  simp [Outcome.ended, Outcome.fail, Outcome.clear, hs] at this

/-- A `post-stop` process that cannot be set up: the error frees the job, and
the reader of the pipe goes on to use it. -/
theorem postStop_orders (h : Reached Always (sys, .live job)) (ha : Awaits job .postStop pid) :
    ¬ SameEnd (errorFirst x₁ x₂ sys job .postStop pid)
      (exitFirst x₁ x₂ sys job .postStop pid) := by
  obtain ⟨d, hd, hvalid, hp⟩ := ha.data
  have hset : Settled (· ≠ .security) job := reached_settled h
  have hb : job.blocker = none := by
    have := hset.blocked
    rw [ha.state] at this
    simpa [ProcessType.waitState] using this
  have hreader : Sat (childFailed x₁ pid (sys, .live job)) (fun _ => False) (fun _ => True) := by
    simp only [childFailed, jobProcessChildReader, hd, hvalid, hp, jobChildErrorHandler,
      failAndAdvance, Bool.not_true, Bool.or_self, Bool.false_eq_true, if_false, sat_bind]
    refine jobFailed_core.mono (fun r hc => ?_) fun _ _ => trivial
    have hs : r.2.state = .postStop := hc.state.trans ha.state
    rw [jobChangeGoal_eq, if_neg (by simp [Moves, hs])]
    simp only [sat_ok, JobRef.get_live]
    have hend : (r.2.setGoal .stop).AtEnd := .inl hs
    refine (jobAdvance_end hend rfl (hc.blocker.trans hb)).imp ?_
    rintro ⟨sys', job' | job'⟩ hfreed
    · exact hfreed.elim
    · trivial
  have herror : Sat (errorFirst x₁ x₂ sys job .postStop pid) (fun _ => False)
      (fun _ => True) := by
    rw [errorFirst, sat_bind]
    exact hreader.imp fun _ hf => hf.elim
  cases hm : errorFirst x₁ x₂ sys job .postStop pid with
  | ok r => exact absurd (herror.of_ok hm) id
  | error f => simp [SameEnd]

/-- The `switch` of `job_process_terminated` for a main process that could not be
set up: the job stops or the process is to be respawned. -/
theorem mainTerminated_spawned (x : Host) (sys : Sys) {job : Job} (hs : job.state = .spawned) :
    mainTerminated x sys job 255 =
      if job.goal ≠ .start then .ok (sys, .live job, ⟨false, false, true⟩)
      else if !mainFailed job.cls 255 || !job.cls.respawn || x.disableRespawn then
        .ok (sys, .live job, ⟨mainFailed job.cls 255, true, true⟩)
      else if (jobProcessCatchRunaway x job).2 then
        jobFailed sys (jobProcessCatchRunaway x job).1 none 0 >>= fun r =>
          .ok (r.1, .live r.2, ⟨false, true, true⟩)
      else
        jobChangeState x sys (jobProcessCatchRunaway x job).1 .stopping >>= fun r =>
          .ok (r.1, r.2, ⟨false, false, false⟩) := by
  have hwaits : job.waits = false := by simp [Job.waits, hs]
  have hcatch := (jobProcessCatchRunaway_core x job).state.trans hs
  unfold mainTerminated
  simp only [hs, hwaits, nihAssert, reduceCtorEq, or_false, or_true, decide_true, check_true,
    if_false, Bool.not_false]
  split
  · rfl
  split
  · rfl
  split
  · rfl
  · simp [bind, Except.bind, hcatch]

/-- The exit of a main process that could not be set up: the job stops, with the
failure that is recorded, or with that of a runaway. -/
theorem main_exited (h : Reached Always (sys, .live job)) (ha : Awaits job .main pid) :
    ∃ o₁ : Outcome, Ends (childExited x .main pid 255 (sys, .live job)) (Stage .main pid o₁ true) ∧
      o₁.state = .stopping ∧ o₁.goal ≠ .respawn ∧
      o₁.fail (some .main) = { (job.outcome.clear .main).fail
        (if Runaway x job then none else some .main) with state := .stopping, goal := o₁.goal } := by
  have hstage := (ha.stage h).act (.exited pid)
  have hstate : job.state = .spawned := ha.state
  have hs : job.outcome.state = .spawned := hstate
  have hne : job.outcome.state ≠ .running := by simp [hs]
  have hgoal : job.goal ≠ .respawn := ha.goal h (by simp)
  have hexit : childExited x .main pid 255 (sys, .live job) =
      (mainTerminated x (sys.act (.exited pid)) job 255 >>= fun r => do
        let job ← r.2.1.get .jobProcessTerminated
        afterTerminated x r.1 job .main 255 false r.2.2) := by
    simp only [childExited, ha.slot, if_true, jobProcessHandler, jobProcessTerminated, hstate,
      JobState.spawning?, Bool.false_eq_true, if_false, processTerminated]
  rw [hexit, mainTerminated_spawned x _ hstate]
  clear hexit
  -- the job goes on to stopping from the verdict `v`
  have hgo : ∀ (o : Outcome) (sys' : Sys) (job' : Job) (v : Verdict), Stage .main pid o false sys' job' →
      o.state = .spawned → v.state = true → (o.ended .main v).goal = .stop →
      Ends (afterTerminated x sys' job' .main 255 false v)
        (Stage .main pid { o.ended .main v with state := .stopping, goal := .stop } true) := by
    intro o sys' job' v h' ho hv hstop
    refine h'.afterTerminated (by simp [ho]) (by simp [hv]) fun _ sys₁ job₁ h₁ => ?_
    have hspawned : (o.ended .main v).state = .spawned := by
      unfold Outcome.ended
      dsimp only
      split <;> split <;> exact ho
    have := h₁.stops (x := x) (.inl ⟨hstop, .inr (.inr hspawned)⟩)
    rwa [hstop] at this
  by_cases hg : job.goal = .start
  · rw [if_neg (by simp [hg])]
    by_cases hlast : (!mainFailed job.cls 255 || !job.cls.respawn || x.disableRespawn) = true
    · rw [if_pos hlast]
      have hrun : ¬ Runaway x job := by
        rintro ⟨-, h₁, h₂, h₃, -⟩
        simp [h₁, h₂, h₃] at hlast
      refine ⟨_, hgo _ _ _ ⟨mainFailed job.cls 255, true, true⟩ hstage hs rfl rfl, rfl, by simp, ?_⟩
      rw [if_neg hrun]
      cases mainFailed job.cls 255 <;> cases hf : job.outcome.failed <;>
        simp [Outcome.ended, Outcome.fail, Outcome.clear, hf]
    · rw [if_neg hlast]
      have hlast' : mainFailed job.cls 255 = true ∧ job.cls.respawn = true ∧
          x.disableRespawn = false := by
        simpa [and_assoc] using hlast
      have hcatch := hstage.catchRunaway x
      by_cases hrunaway : (jobProcessCatchRunaway x job).2 = true
      · have hrun : Runaway x job := ⟨hg, hlast'.2.1, hlast'.1, hlast'.2.2, hrunaway⟩
        obtain ⟨sys₁, job₁, heq₁, h₁⟩ := hcatch.fail none 0
        rw [if_pos hrunaway, heq₁]
        refine ⟨_, hgo _ sys₁ job₁ ⟨false, true, true⟩ h₁ hs rfl rfl, rfl, by simp, ?_⟩
        rw [if_pos hrun]
        cases hf : job.outcome.failed <;> simp [Outcome.ended, Outcome.fail, Outcome.clear, hf]
      · have hrun : ¬ Runaway x job := fun h => hrunaway h.2.2.2.2
        have hb : (jobProcessCatchRunaway x job).1.blocker = none := by
          simpa using hcatch.blocked
        have hstate₁ : (jobProcessCatchRunaway x job).1.state = .spawned := hcatch.state.trans hs
        obtain ⟨sys₁, e, -, heq₁⟩ := jobChangeState_stopping x (sys.act (.exited pid)) hb
          (by simp [hstate₁, edge])
        have hframe : Framed _ _ (jobChangeState x (sys.act (.exited pid))
            (jobProcessCatchRunaway x job).1 .stopping) := jobChangeState_frame hcatch.owned
        rw [heq₁] at hframe
        have h₁ : Stage .main pid { job.outcome with state := .stopping } true sys₁
            { (jobProcessCatchRunaway x job).1 with state := .stopping, blocker := some e } := by
          refine ⟨?_, rfl, Frame.owned hframe hcatch.owned, hcatch.data⟩
          rw [← hcatch.outcome]
          rfl
        rw [if_neg hrunaway, heq₁]
        refine ⟨{ job.outcome.clear .main with state := .stopping }, ?_, rfl, hgoal, ?_⟩
        · show Ends (afterTerminated x sys₁ _ .main 255 false ⟨false, false, false⟩) _
          exact h₁.afterTerminated (by simp) (fun _ _ _ h₂ => h₂) (by simp)
        · rw [if_neg hrun]
          cases hf : job.outcome.failed <;> simp [Outcome.fail, Outcome.clear, hf]
  · have hrun : ¬ Runaway x job := fun h => hg h.1
    have hstop : job.goal = .stop := by cases hj : job.goal <;> simp_all
    rw [if_pos hg]
    refine ⟨_, hgo _ _ _ ⟨false, false, true⟩ hstage hs rfl hstop, rfl, by simp, ?_⟩
    rw [if_neg hrun]
    cases hf : job.outcome.failed <;> simp [Outcome.ended, Outcome.fail, Outcome.clear, hf]

/-- A main process that cannot be set up. -/
theorem main_orders (h : Reached Always (sys, .live job)) (ha : Awaits job .main pid) :
    SameEnd (errorFirst x₁ x₂ sys job .main pid) (exitFirst x₁ x₂ sys job .main pid) ↔
      ¬ (Runaway x₁ job ∧ job.failed = false) := by
  have hstage := ha.stage h
  have hs : job.outcome.state = .spawned := ha.state
  have herror : Ends (childFailed x₁ pid (sys, .live job)) fun _ j => j.outcome =
      { (job.outcome.clear .main).fail (some .main) with goal := .stop, state := .stopping } := by
    refine hstage.childFailed fun job' h' => ?_
    refine (h'.clear .main).failAndAdvance (by simp [Outcome.clear, hs]) fun sys₁ job₁ h₁ => ?_
    obtain ⟨sys₂, job₂, heq, h₂⟩ := h₁.stops (x := x₁)
      (.inl ⟨rfl, .inr (.inr (by simp [Outcome.clear, Outcome.fail, hs]))⟩)
    exact ⟨sys₂, job₂, heq, h₂.outcome⟩
  obtain ⟨o₁, hexit, hs₁, hg₁, ho₁⟩ := main_exited (x := x₁) h ha
  have hlate : (o₁.clear .main).fail (some .main) =
      { ((job.outcome.clear .main).fail (if Runaway x₁ job then none else some .main)) with
        state := .stopping, goal := o₁.goal } := by
    rw [show (o₁.clear .main).fail (some .main) = (o₁.fail (some .main)).clear .main from rfl, ho₁]
    simp [Outcome.fail, Outcome.clear]
  rw [sameEnd_iff (errorFirst_ends ha.pos herror (by simp [Outcome.fail, Outcome.clear]))
    (exitFirst_ends hexit hs₁ hg₁), if_neg (by simp), hlate]
  have hfailed : job.outcome.failed = job.failed := rfl
  by_cases hrun : Runaway x₁ job <;> cases hf : job.failed <;>
    simp [Outcome.fail, Outcome.clear, hrun, hf, hfailed]

/-- The order of the two notifications of a child that could not be set up does
not matter exactly for `pre-start`, for `post-start` and `pre-stop` when the goal
is not to run, and for the main process unless its exit makes the job fail for
respawning too fast. -/
theorem orders_agree_iff (h : Reached Always (sys, .live job)) (ha : Awaits job p pid)
    (x₁ x₂ : Host) :
    SameEnd (errorFirst x₁ x₂ sys job p pid) (exitFirst x₁ x₂ sys job p pid) ↔
      OrdersAgree x₁ job p := by
  cases p with
  | main => exact main_orders h ha
  | preStart => exact iff_of_true (preStart_orders h ha) trivial
  | postStart => exact ignored_orders h ha (.inl rfl)
  | preStop => exact ignored_orders h ha (.inr rfl)
  | postStop => exact iff_of_false (postStop_orders h ha) id
  | security => exact iff_of_false (security_orders h ha) id

/-- A `pre-start` process that has just been spawned. -/
theorem orders_agree_preStart :
    ∃ sys job, Reached Always (sys, .live job) ∧ job.state = .preStart ∧
      SameEnd (errorFirst plainHost plainHost sys job .preStart 1)
        (exitFirst plainHost plainHost sys job .preStart 1) := by
  have h₀ := reached_newRun Always (plainClass [.preStart, .main])
  have h₁ := h₀.next (.changeGoal .start) ⟨by simp [Enabled], trivial⟩ rfl
  have h₂ := h₁.next .blockerFinished ⟨rfl, trivial⟩ rfl
  exact ⟨_, _, h₂, rfl, (orders_agree_iff (p := .preStart) h₂
    ⟨rfl, rfl, by decide, _, rfl, rfl, rfl⟩ plainHost plainHost).mpr trivial⟩

/-- A `post-start` process that has just been spawned and cannot be set up: the
job ends up running when the error is handled first, and stopping when the exit
is. -/
theorem orders_differ_postStart :
    ∃ sys job, Reached Always (sys, .live job) ∧ Awaits job .postStart 2 ∧
      ¬ SameEnd (errorFirst plainHost plainHost sys job .postStart 2)
        (exitFirst plainHost plainHost sys job .postStart 2) := by
  have h₀ := reached_newRun Always (plainClass [.main, .postStart])
  have h₁ := h₀.next (.changeGoal .start) ⟨by simp [Enabled], trivial⟩ rfl
  have h₂ := h₁.next .blockerFinished ⟨rfl, trivial⟩ rfl
  have h₃ := h₂.next (.childClosed 1) ⟨rfl, trivial⟩ rfl
  refine ⟨_, _, h₃, ⟨rfl, rfl, by decide, _, rfl, rfl, rfl⟩, fun h => ?_⟩
  cases congrArg Outcome.state h

end Startup
