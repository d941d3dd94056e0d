import Startup.Job.Change

/-!
# What the functions of a job do

One statement for each function, from which the invariants are derived.

* `SameCore`: the fields that the state machine reads.
* `jobChangeGoal_eq`: a goal is set, and the job moves only out of waiting and
  out of running.
* `jobAdvance_rule`: `job_change_state (job, job_next_state (job))`.
* `jobAdvance_live`: a job that is not yet being stopped is not freed.
* `Terminates`: the cases of `job_process_terminated`, and
  `afterTerminated_rule` for what they have in common.
-/

namespace Startup

open Lib

/-! ## The fields of the state machine -/

theorem alive_setPid_zero {job : Job} {p q : ProcessType} :
    (job.setPid p 0).alive q = true ↔ q ≠ p ∧ job.alive q = true := by
  by_cases h : q = p
  · simp [Job.alive, Job.setPid, h]
  · simp [Job.alive, Job.setPid, Function.update, h]

/-- The two jobs agree on what the state machine reads. -/
structure SameCore (job job' : Job) : Prop where
  cls : job'.cls = job.cls
  state : job'.state = job.state
  goal : job'.goal = job.goal
  pid : job'.pid = job.pid
  blocker : job'.blocker = job.blocker
  datas : job.datas = [] → job'.datas = []

namespace SameCore

variable {job job' job'' : Job}

theorem refl (job : Job) : SameCore job job := ⟨rfl, rfl, rfl, rfl, rfl, id⟩

theorem trans (h : SameCore job job') (h' : SameCore job' job'') : SameCore job job'' :=
  ⟨h'.cls.trans h.cls, h'.state.trans h.state, h'.goal.trans h.goal, h'.pid.trans h.pid,
    h'.blocker.trans h.blocker, h'.datas ∘ h.datas⟩

theorem setPid (h : SameCore job job') (p : ProcessType) (pid : Pid) :
    SameCore (job.setPid p pid) (job'.setPid p pid) :=
  ⟨h.cls, h.state, h.goal, by simp [Job.setPid, h.pid], h.blocker, h.datas⟩

theorem setGoal (h : SameCore job job') (goal : JobGoal) :
    SameCore (job.setGoal goal) (job'.setGoal goal) :=
  ⟨h.cls, h.state, rfl, h.pid, h.blocker, h.datas⟩

theorem alive (h : SameCore job job') (p : ProcessType) : job'.alive p = job.alive p := by
  simp [Job.alive, h.pid]

theorem has (h : SameCore job job') (p : ProcessType) : job'.has p = job.has p := by
  simp [Job.has, h.cls]

theorem waits (h : SameCore job job') : job'.waits = job.waits := by
  simp [Job.waits, h.state, h.has, h.alive]

end SameCore

theorem Fails.core {sys sys' : Sys} {job job' : Job} {p : Option ProcessType} {status : Int}
    (h : Fails sys job p status sys' job') : SameCore job job' := by
  cases h with
  | already failed => exact SameCore.refl job
  | now failed finish => exact ⟨rfl, rfl, rfl, rfl, rfl, id⟩

theorem jobFinished_core {sys : Sys} {job : Job} {failed : Bool} :
    Sat (jobFinished sys job failed) (fun r => SameCore job r.2)
      (fun f => f.ofStateMachine = false) := by
  refine jobFinished_sat.mono ?_ fun f hf => hf.1
  rintro ⟨sys', _⟩ ⟨rfl, -⟩
  exact ⟨rfl, rfl, rfl, rfl, rfl, id⟩

theorem jobFailed_core {sys : Sys} {job : Job} {p : Option ProcessType} {status : Int} :
    Sat (jobFailed sys job p status) (fun r => SameCore job r.2)
      (fun f => f.ofStateMachine = false) :=
  jobFailed_sat.mono (fun _ h => h.core) fun _ h => h.1

theorem jobProcessCatchRunaway_core (x : Host) (job : Job) :
    SameCore job (jobProcessCatchRunaway x job).1 := by
  unfold jobProcessCatchRunaway
  split
  · split <;> exact ⟨rfl, rfl, rfl, rfl, rfl, id⟩
  · exact SameCore.refl job

theorem modifyData_core (job : Job) (pid : Pid) (f : JobProcessData → JobProcessData) :
    SameCore job (job.modifyData pid f) :=
  ⟨rfl, rfl, rfl, rfl, rfl, fun h => by simp [Job.modifyData, h]⟩

theorem replaceBlocking_core {sys : Sys} {job : Job} {entry : Blocked} {wait : Bool} :
    Sat (replaceBlocking sys job entry wait) (fun r => SameCore job r.2)
      (fun f => f.ofStateMachine = false) := by
  unfold replaceBlocking
  rw [sat_bind]
  refine jobFinished_core.imp fun r hr => ?_
  dsimp only [sat_ok]
  split
  · exact hr.trans ⟨rfl, rfl, rfl, rfl, rfl, id⟩
  · exact hr

theorem takeStopEnv_core {x : Host} {sys : Sys} {job : Job} {root : EventOperator} :
    Sat (takeStopEnv x sys job root) (fun r => SameCore job r.2)
      (fun f => f.ofStateMachine = false) := by
  unfold takeStopEnv
  split
  · rw [sat_bind]
    refine eventOperatorEnvironment_quiet.imp fun env _ => ?_
    refine jobFinished_core.imp fun r hr => ?_
    exact ⟨hr.cls, hr.state, hr.goal, hr.pid, hr.blocker, hr.datas⟩
  · exact SameCore.refl job

theorem takeStartEnv_core {x : Host} {sys : Sys} {job : Job} {root : EventOperator}
    {env : List String} :
    Sat (takeStartEnv x sys job root env) (fun r => SameCore job r.2)
      (fun f => f.ofStateMachine = false) := by
  unfold takeStartEnv
  split
  · rw [sat_bind]
    refine jobFinished_core.imp fun r hr => ?_
    rw [sat_bind]
    refine eventOperatorFds_quiet.imp fun fds _ => ?_
    exact ⟨hr.cls, hr.state, hr.goal, hr.pid, hr.blocker, hr.datas⟩
  · exact SameCore.refl job

theorem blockOnEvents_core {sys : Sys} {job : Job} {root : EventOperator} {cond : Bool} :
    Sat (blockOnEvents sys job root cond) (fun r => SameCore job r.2)
      (fun f => f.ofStateMachine = false) := by
  unfold blockOnEvents
  split
  · rw [sat_bind]
    exact eventOperatorEvents_quiet.imp fun _ _ => ⟨rfl, rfl, rfl, rfl, rfl, id⟩
  · exact SameCore.refl job

/-! ## Goals -/

/-- Whether a new goal moves the job: the natural rest states are waiting and
running. -/
def Moves (job : Job) (goal : JobGoal) : Prop :=
  job.goal ≠ goal ∧
    (goal = .start ∧ job.state = .waiting ∨ goal = .stop ∧ job.state = .running)

instance (job : Job) (goal : JobGoal) : Decidable (Moves job goal) := by
  unfold Moves
  infer_instance

theorem jobChangeGoal_eq (x : Host) (sys : Sys) (job : Job) (goal : JobGoal) :
    jobChangeGoal x sys job goal =
      if Moves job goal then jobAdvance x sys (job.setGoal goal)
      else .ok (sys, .live (job.setGoal goal)) := by
  unfold jobChangeGoal
  by_cases hm : Moves job goal
  · rw [if_pos hm]
    obtain ⟨hg, ⟨rfl, hs⟩ | ⟨rfl, hs⟩⟩ := hm <;> simp [hg, hs, Job.setGoal]
  · rw [if_neg hm]
    by_cases hg : job.goal = goal
    · subst hg
      simp [Job.setGoal]
    · cases goal <;> simp_all [Moves, Job.setGoal]

/-- `job_change_goal` returns at once where the goal is the same. -/
theorem changeGoalIfOther_eq (x : Host) (sys : Sys) (job : Job) (goal : JobGoal) :
    changeGoalIfOther x sys job goal = jobChangeGoal x sys job goal := by
  unfold changeGoalIfOther
  split
  · rfl
  · rename_i h
    simp only [ne_eq, not_not] at h
    simp [jobChangeGoal, h]

/-! ## Advancing -/

/-- The rule for `job_change_state (job, job_next_state (job))`.  A blocked job
stays where it is; another one heads for its next state. -/
theorem jobAdvance_rule {x : Host} {sys : Sys} {job : Job} {Q : Sys × JobRef → Prop}
    {E : Fault → Prop} (hrest : job.state.spawning? = false)
    (hfault : ¬ NextOk job → E (.assertFailed .jobNextState))
    (hblocked : job.blocker.isSome → Q (sys, .live (job.setGoal job.goal.next)))
    (hchange : ∀ state, job.blocker = none → Follows job state →
      Sat (jobChangeState x sys (job.setGoal job.goal.next) state) Q E) :
    Sat (jobAdvance x sys job) Q E := by
  unfold jobAdvance
  rw [sat_bind]
  refine (jobNextState_sat hrest).mono ?_ ?_
  · rintro ⟨_, state⟩ ⟨rfl, hfollows⟩
    cases hb : job.blocker with
    | none => exact hchange state hb hfollows
    | some e =>
      have hstay : jobChangeState x sys (job.setGoal job.goal.next) state =
          .ok (sys, .live (job.setGoal job.goal.next)) := by
        simp [jobChangeState, jobChangeStateLoop, Job.setGoal, hfollows.ne.symm, hb]
      dsimp only
      rw [hstay]
      exact hblocked (by simp [hb])
  · rintro f ⟨rfl, hn⟩
    exact hfault hn

/-- Advancing trips no assertion of the state machine where `job_next_state`
accepts the state and the goal. -/
theorem jobAdvance_safe {x : Host} {sys : Sys} {job : Job}
    (hrest : job.state.spawning? = false) (hnext : NextOk job) :
    Sat (jobAdvance x sys job) (fun _ => True) (fun f => f.ofStateMachine = false) :=
  jobAdvance_rule hrest (fun h => absurd hnext h) (fun _ => trivial) fun _ _ hf =>
    jobChangeState_heads ⟨job.goal.next_ne_respawn, fun _ => hf.edge⟩

/-- A job that heads for stopping stops there and waits for its event. -/
theorem jobChangeState_stopping (x : Host) (sys : Sys) {job : Job} (hb : job.blocker = none)
    (he : edge job.goal job.state .stopping = true) :
    ∃ sys' e, Emitted sys { job with state := .stopping } sys' e ∧
      jobChangeState x sys job .stopping =
        .ok (sys', .live { job with state := .stopping, blocker := some e }) := by
  obtain ⟨sys', e, hemit⟩ := jobEmitEvent_ok x sys { job with state := .stopping } (by rfl)
  refine ⟨sys', e, jobEmitEvent_emitted hemit, ?_⟩
  have hne : job.state ≠ .stopping := fun h => by simp [h, edge] at he
  have hold : job.state = .starting ∨ job.state = .preStarting ∨ job.state = .preStart ∨
      job.state = .security ∨ job.state = .spawned ∨ job.state = .postStart ∨
      job.state = .running ∨ job.state = .preStop := by
    simpa [edge, or_assoc] using he
  have henter : jobEnterState x sys job.state { job with state := .stopping } =
      .ok (.next sys' { job with state := .stopping, blocker := some e } .stopping) := by
    simp only [jobEnterState, hold, nihAssert, decide_true, check_true, hemit]
    rfl
  rw [jobChangeState, jobChangeStateLoop, if_neg hne, if_neg (by simp [hb]), henter]
  rfl

theorem jobChangeState_stopping_ok (x : Host) (sys : Sys) (job : Job)
    (he : edge job.goal job.state .stopping = true) :
    ∃ r, jobChangeState x sys job .stopping = .ok r := by
  cases hb : job.blocker with
  | none =>
    obtain ⟨sys', e, -, h⟩ := jobChangeState_stopping x sys hb he
    exact ⟨_, h⟩
  | some e =>
    have hne : job.state ≠ .stopping := fun h => by simp [h, edge] at he
    exact ⟨_, by rw [jobChangeState, jobChangeStateLoop, if_neg hne, if_pos (by simp [hb])]⟩

/-- A running job whose main process is gone stops. -/
theorem jobAdvance_running_dead (x : Host) (sys : Sys) {job : Job} (hs : job.state = .running)
    (hg : job.goal = .stop) (hb : job.blocker = none)
    (hdead : (job.has .main && job.alive .main) = false) :
    ∃ sys' e, Emitted sys { job with state := .stopping } sys' e ∧
      jobAdvance x sys job =
        .ok (sys', .live { job with state := .stopping, blocker := some e }) := by
  have hnext : jobNextState job = .ok (job, .stopping) := by
    simp [jobNextState, hs, hg, hdead]
  obtain ⟨sys', e, hemit, h⟩ := jobChangeState_stopping x sys hb (by simp [hs, edge])
  refine ⟨sys', e, hemit, ?_⟩
  rw [jobAdvance, hnext]
  exact h

/-- The states from which a run of `job_change_state` can reach waiting without
first waiting for an event or a process. -/
def JobState.ending : JobState → Bool
  | .killed | .postStopping | .postStop | .waiting => true
  | _ => false

theorem Enters.notEnding {x : Host} {sys : Sys} {old : JobState} {job : Job} {pass : Pass}
    (h : Enters x sys old job pass) (hs : job.state.ending = false) :
    pass.Holds (fun _ job state => job.state.ending = false ∧ state.ending = false)
      (fun _ _ => False) := by
  cases h with
  | spawn p proc state =>
    refine ⟨hs, ?_⟩
    cases p <;> simp_all [ProcessType.spawnState, ProcessType.waitState, JobState.ending]
  | noSpawn p state =>
    refine ⟨hs, ?_⟩
    cases p <;> simp_all [ProcessType.spawnState, ProcessType.waitState, JobState.ending]
  | skip p state =>
    refine ⟨hs, ?_⟩
    cases p <;> simp_all [ProcessType.afterState, ProcessType.waitState, JobState.ending]
  | dead state => simp [state, JobState.ending] at hs
  | waiting state => simp [state, JobState.ending] at hs
  | _ => exact ⟨hs, hs⟩

/-- A job that heads for a state that is not one of the last is not freed. -/
theorem jobChangeState_live {x : Host} {sys : Sys} {job : Job} {state : JobState}
    (h : state.ending = false) :
    Sat (jobChangeState x sys job state) (fun r => r.2.Live fun _ => True)
      (fun _ => True) := by
  refine (jobChangeState_rule (I := fun _ _ state => state.ending = false)
    (F := fun _ _ => False) ?_ (fun _ _ _ _ _ _ _ _ => trivial) h).imp ?_
  · intro sys job state pass h _ _ hpass
    have := hpass.notEnding h
    cases pass with
    | next => exact this.2
    | freed => exact this
  · rintro ⟨sys, job | job⟩ h
    · trivial
    · exact h

/-- Advancing frees a job only from one of the last states. -/
theorem jobAdvance_live {x : Host} {sys : Sys} {job : Job}
    (hrest : job.state.spawning? = false) (h : job.state.ending = false ∨ job.state = .waiting)
    (hs : job.state ≠ .stopping) :
    Sat (jobAdvance x sys job) (fun r => r.2.Live fun _ => True) (fun _ => True) := by
  refine jobAdvance_rule hrest (fun _ => trivial) (fun _ => trivial) fun state _ hf =>
    jobChangeState_live ?_
  have hedge := hf.edge
  have hwaiting := hf.waiting
  revert hedge hwaiting
  cases hj : job.state <;> simp_all [JobState.ending] <;> cases state <;> simp [edge]

/-- `job_change_goal` never frees the job. -/
theorem jobChangeGoal_live {x : Host} {sys : Sys} {job : Job} {goal : JobGoal} :
    Sat (jobChangeGoal x sys job goal) (fun r => r.2.Live fun _ => True) (fun _ => True) := by
  rw [jobChangeGoal_eq]
  split
  · rename_i h
    have hstate : job.state = .waiting ∨ job.state = .running := h.2.imp And.right And.right
    apply jobAdvance_live
    · rcases hstate with hs | hs <;> simp [Job.setGoal, hs, JobState.spawning?]
    · rcases hstate with hs | hs <;> simp [Job.setGoal, hs, JobState.ending]
    · rcases hstate with hs | hs <;> simp [Job.setGoal, hs]
  · trivial

/-! ### The way out of running, and to the end -/

/-- A running job without a `pre-stop` process, or whose main process is gone,
goes through to stopping. -/
theorem jobAdvance_running_stops {x : Host} {sys : Sys} {job : Job} (hs : job.state = .running)
    (hg : job.goal = .stop) (hb : job.blocker = none)
    (h : (job.has .main && job.alive .main) = false ∨ job.has .preStop = false) :
    Sat (jobAdvance x sys job) (fun r => r.2.All fun j => j.blocker.isSome = true)
      (fun _ => True) := by
  cases hdead : job.has .main && job.alive .main with
  | false =>
    obtain ⟨sys', e, -, heq⟩ := jobAdvance_running_dead x sys hs hg hb hdead
    rw [heq]
    rfl
  | true =>
    have hpre : job.has .preStop = false := by simpa [hdead] using h
    have hnext : jobNextState job = .ok (job, .preStopping) := by
      simp [jobNextState, hs, hg, hdead]
    simp only [jobAdvance, hnext, sat_bind, sat_ok]
    refine (jobChangeState_rule (F := fun _ _ => True) (I := fun _ job state =>
      job.has .preStop = false ∧ (state = .preStopping ∨ state = .preStop ∨ state = .stopping) ∧
        (job.state = state → job.blocker.isSome = true)) ?_ (fun _ _ _ _ _ _ _ _ => trivial)
      ⟨hpre, .inl rfl, by simp [hs]⟩).imp ?_
    · rintro sys job state pass ⟨hpre, hstate, -⟩ - - hpass
      have hnoruns : ∀ p : ProcessType, state = p.spawnState ∨ state = p.waitState →
          p = .preStop ∧ job.runs x .preStop = false := by
        intro p hp
        have : p = .preStop := by
          rcases hstate with hs | hs | hs <;> rw [hs] at hp <;>
            cases p <;> simp_all [ProcessType.spawnState, ProcessType.waitState]
        exact ⟨this, by simp [Job.runs, hpre]⟩
      cases hpass with
      | spawn p proc st goal ne from_ runs =>
        obtain ⟨rfl, hr⟩ := hnoruns p (.inl st)
        exact absurd (hr.symm.trans runs) (by simp)
      | noSpawn p st =>
        obtain ⟨rfl, -⟩ := hnoruns p (.inl st)
        refine ⟨hpre, .inr (.inl rfl), fun h => ?_⟩
        have h : state = .preStop := h
        have st : state = .preStopping := st
        simp [h] at st
      | wait p st goal from_ runs =>
        obtain ⟨rfl, hr⟩ := hnoruns p (.inr st)
        exact absurd (hr.symm.trans runs) (by simp)
      | skip p st =>
        obtain ⟨rfl, -⟩ := hnoruns p (.inr st)
        refine ⟨hpre, .inr (.inr rfl), fun h => ?_⟩
        have h : state = .stopping := h
        have st : state = .preStop := st
        simp [h] at st
      | stopping => exact ⟨hpre, hstate, fun _ => rfl⟩
      | waiting => trivial
      | starting st | resumed st | running st | runningTask st | kill st | dead st =>
        have st : state = _ := st
        simp [st] at hstate
    · rintro ⟨sys, job | job⟩ h
      · obtain ⟨state, ⟨-, -, hb⟩, hs⟩ := h
        exact hs.elim hb id
      · trivial

/-- Moving the job on towards its stop takes it to its end. -/
def Job.AtEnd (job : Job) : Prop :=
  job.state = .postStop ∨ job.state = .killed ∧ job.has .postStop = false

instance (job : Job) : Decidable job.AtEnd := by
  unfold Job.AtEnd
  infer_instance

/-- A job at its end is freed when it moves on. -/
theorem jobAdvance_end {x : Host} {sys : Sys} {job : Job} (h : job.AtEnd)
    (hg : job.goal = .stop) (hb : job.blocker = none) :
    Sat (jobAdvance x sys job) (fun r => r.2.All fun _ => False) (fun _ => True) := by
  have hrest : job.state.spawning? = false := by
    rcases h with hs | ⟨hs, -⟩ <;> simp [hs, JobState.spawning?]
  refine jobAdvance_rule hrest (fun _ => trivial) (fun hblock => by simp [hb] at hblock) ?_
  intro state _ hf
  have hgoal : job.goal.next = .stop := by rw [hg]; rfl
  rw [hgoal]
  have hstart : state = .waiting ∨ job.has .postStop = false ∧ state = .postStopping := by
    have hedge := hf.edge
    rw [hgoal] at hedge
    rcases h with hs | ⟨hs, hpost⟩
    · rw [hs] at hedge
      cases state <;> simp_all [edge]
    · rw [hs] at hedge
      cases state <;> simp_all [edge]
  have hhead : (job.setGoal .stop).goal = .stop ∧ job.blocker = none ∧ job.state ≠ state ∧
      (state = .waiting ∨
        job.has .postStop = false ∧ (state = .postStopping ∨ state = .postStop)) :=
    ⟨rfl, hb, hf.ne.symm, hstart.imp id (And.imp id .inl)⟩
  refine (jobChangeState_rule (F := fun _ _ => True) (I := fun _ job state =>
    job.goal = .stop ∧ job.blocker = none ∧ job.state ≠ state ∧ (state = .waiting ∨
      job.has .postStop = false ∧ (state = .postStopping ∨ state = .postStop))) ?_
    (fun _ _ _ _ _ _ _ _ => trivial) hhead).imp ?_
  · rintro sys job state pass ⟨hg, hb, -, hstate⟩ hs - hpass
    have hproc : ∀ p : ProcessType, state = p.spawnState ∨ state = p.waitState →
        p = .postStop ∧ job.has .postStop = false := by
      intro p hp
      rcases hstate with hs | ⟨hpost, hs | hs⟩ <;> rw [hs] at hp <;> cases p <;>
        simp_all [ProcessType.spawnState, ProcessType.waitState]
    have hruns : job.has .postStop = false → job.runs x .postStop = false := fun h => by
      simp [Job.runs, h]
    cases hpass with
    | spawn p proc st goal ne from_ runs =>
      obtain ⟨rfl, hpost⟩ := hproc p (.inl st)
      exact absurd ((hruns hpost).symm.trans runs) (by simp)
    | noSpawn p st =>
      obtain ⟨rfl, hpost⟩ := hproc p (.inl st)
      refine ⟨hg, hb, fun h => ?_, .inr ⟨hpost, .inr rfl⟩⟩
      have h : state = .postStop := h
      have st : state = .postStopping := st
      simp [h] at st
    | wait p st goal from_ runs =>
      obtain ⟨rfl, hpost⟩ := hproc p (.inr st)
      exact absurd ((hruns hpost).symm.trans runs) (by simp)
    | skip p st =>
      obtain ⟨rfl, hpost⟩ := hproc p (.inr st)
      have hnext : ProcessType.afterState job.goal .postStop = .waiting := by
        simp [ProcessType.afterState, hg]
      show job.goal = .stop ∧ job.blocker = none ∧ _ ≠ _ ∧ _
      refine ⟨hg, hb, fun h => ?_, .inl hnext⟩
      have h : state = ProcessType.afterState job.goal .postStop := h
      have st : state = .postStop := st
      simp [h, hnext] at st
    | waiting => trivial
    | starting st | resumed st | running st | runningTask st | stopping st | kill st | dead st =>
      have st : state = _ := st
      simp [st] at hstate
  · rintro ⟨sys, job | job⟩ h
    · obtain ⟨state, ⟨-, hb, hne, -⟩, hs⟩ := h
      rcases hs with hs | hs
      · exact hne hs
      · simp [hb] at hs
    · trivial

/-! ## The end of a process -/

/-- The states in which `job_process_terminated` accepts the end of a process. -/
def MayEnd (state : JobState) : ProcessType → Bool
  | .main => state = .running || state = .spawned || state = .killed || state = .stopping ||
      state = .postStart || state = .preStop
  | .security => state = .security
  | .preStart => state = .preStart
  | .postStart => state = .postStart || state = .running
  | .preStop => state = .preStop
  | .postStop => state = .postStop

/-- What the `switch` of `job_process_terminated` can do. -/
inductive Terminates (x : Host) (sys : Sys) (job : Job) (status : Int) :
    ProcessType → Sys → JobRef → Verdict → Prop where
  | process (p : ProcessType) (failed : Bool) (ne : p ≠ .main)
      (mayEnd : MayEnd job.state p = true) (fails : failed = true → status ≠ 0) :
      Terminates x sys job status p sys (.live job) ⟨failed, failed, true⟩
  | killed (state : job.state = .killed) :
      Terminates x sys job status .main sys (.live job) ⟨false, false, true⟩
  | stopping (state : job.state = .stopping) :
      Terminates x sys job status .main sys (.live job) ⟨false, false, false⟩
  | goal (state : job.state = .running ∨ job.state = .spawned ∨ job.state = .postStart ∨
        job.state = .preStop) (goal : job.goal ≠ .start) :
      Terminates x sys job status .main sys (.live job) ⟨false, false, !job.waits⟩
  | stop (failed : Bool) (state : job.state = .running ∨ job.state = .spawned ∨
        job.state = .postStart ∨ job.state = .preStop) (goal : job.goal = .start) :
      Terminates x sys job status .main sys (.live job) ⟨failed, true, !job.waits⟩
  | runaway {sys' : Sys} {job' : Job} (state : job.state = .running ∨ job.state = .spawned ∨
        job.state = .postStart ∨ job.state = .preStop) (goal : job.goal = .start)
      (fail : Fails sys (jobProcessCatchRunaway x job).1 none 0 sys' job') :
      Terminates x sys job status .main sys' (.live job') ⟨false, true, !job.waits⟩
  | respawnLater (waits : job.waits = true) (goal : job.goal = .start) :
      Terminates x sys job status .main sys
        (.live ((jobProcessCatchRunaway x job).1.setGoal .respawn)) ⟨false, false, false⟩
  | respawnSpawned {sys' : Sys} {ref : JobRef} (state : job.state = .spawned)
      (goal : job.goal = .start)
      (change : jobChangeState x sys (jobProcessCatchRunaway x job).1 .stopping =
        .ok (sys', ref)) :
      Terminates x sys job status .main sys' ref ⟨false, false, false⟩
  | respawn (state : job.state = .running ∨ job.state = .postStart ∨ job.state = .preStop)
      (waits : job.waits = false) (goal : job.goal = .start) :
      Terminates x sys job status .main sys (.live (jobProcessCatchRunaway x job).1)
        ⟨false, false, true⟩

theorem mainTerminated_sat (x : Host) (sys : Sys) (job : Job) (status : Int) :
    Sat (mainTerminated x sys job status)
      (fun r => Terminates x sys job status .main r.1 r.2.1 r.2.2)
      (fun f => (f.ofStateMachine = true → MayEnd job.state .main = false) ∧
        (f.ofQueue = true → ¬ Releasable sys job.blocking)) := by
  have hblocking : (jobProcessCatchRunaway x job).1.blocking = job.blocking := by
    unfold jobProcessCatchRunaway
    repeat' split
    all_goals rfl
  have hcore := jobProcessCatchRunaway_core x job
  unfold mainTerminated
  refine sat_assert (fun h => ⟨fun _ => by simp_all [MayEnd], by simp [Fault.ofQueue]⟩)
    fun hstate => ?_
  have hstate : job.state = .running ∨ job.state = .spawned ∨ job.state = .killed ∨
      job.state = .stopping ∨ job.state = .postStart ∨ job.state = .preStop :=
    of_decide_eq_true hstate
  dsimp only
  split
  · rename_i hs
    have hw : job.waits = false := by simp [Job.waits, hs]
    rw [hw]
    exact .killed hs
  split
  · rename_i hs
    exact .stopping hs
  rename_i hk hst
  have hstate : job.state = .running ∨ job.state = .spawned ∨ job.state = .postStart ∨
      job.state = .preStop := by
    simpa [hk, hst] using hstate
  split
  · rename_i hg
    exact .goal hstate hg
  rename_i hg
  have hg : job.goal = .start := by simpa using hg
  split
  · exact .stop _ hstate hg
  split
  · -- respawning too fast
    rw [sat_bind]
    refine jobFailed_sat.mono (fun r hr => .runaway hstate hg hr) fun f hf => ?_
    exact ⟨fun h => by simp [hf.1] at h, fun _ => hblocking ▸ hf.2⟩
  cases hw : job.waits with
  | true =>
    have hne : job.state ≠ .spawned := by
      intro hs
      simp [Job.waits, hs] at hw
    have hmove : ¬ Moves (jobProcessCatchRunaway x job).1 .respawn := by simp [Moves]
    rw [if_pos (by rfl), jobChangeGoal_eq, if_neg hmove]
    simp only [sat_bind, sat_ok, JobRef.get_live]
    rw [if_neg (by simpa [Job.setGoal, hcore.state] using hne)]
    exact .respawnLater hw hg
  | false =>
    rw [if_neg (by simp)]
    simp only [sat_bind, sat_ok, JobRef.get_live]
    split
    · rename_i hs
      have hs : job.state = .spawned := hcore.state.symm.trans hs
      rw [sat_bind, sat_iff]
      refine ⟨fun r hr => .respawnSpawned hs hg hr, fun f hf => ?_⟩
      obtain ⟨r, hr⟩ := jobChangeState_stopping_ok x sys (jobProcessCatchRunaway x job).1
        (by simp [hcore.state, hs, edge])
      simp [hr] at hf
    · rename_i hs
      have hs : job.state ≠ .spawned := fun h => hs (hcore.state.trans h)
      exact .respawn (by simpa [hs] using hstate) hw hg

/-- A job whose main process has to be respawned in `JOB_SPAWNED` stops and
waits for its event. -/
theorem Terminates.respawnSpawned_eq {x : Host} {sys sys' : Sys} {job : Job} {ref : JobRef}
    (hs : job.state = .spawned) (hb : job.blocker = none)
    (change : jobChangeState x sys (jobProcessCatchRunaway x job).1 .stopping =
      .ok (sys', ref)) :
    ∃ e, ref = .live { (jobProcessCatchRunaway x job).1 with
      state := .stopping, blocker := some e } := by
  have hcore := jobProcessCatchRunaway_core x job
  obtain ⟨sys₁, e, -, heq⟩ := jobChangeState_stopping x sys (hcore.blocker.trans hb)
    (by simp [hcore.state, hs, edge])
  rw [heq] at change
  cases change
  exact ⟨e, rfl⟩

/-- Everything that the `switch` of `job_process_terminated` can do. -/
theorem processTerminated_sat (x : Host) (sys : Sys) (job : Job) (p : ProcessType)
    (status : Int) :
    Sat (processTerminated x sys job p status)
      (fun r => Terminates x sys job status p r.1 r.2.1 r.2.2)
      (fun f => (f.ofStateMachine = true → MayEnd job.state p = false) ∧
        (f.ofQueue = true → ¬ Releasable sys job.blocking)) := by
  unfold processTerminated
  cases p with
  | main => exact mainTerminated_sat x sys job status
  | postStart | preStop =>
    refine sat_assert (fun h => ⟨fun _ => by simp_all [MayEnd], by simp [Fault.ofQueue]⟩)
      fun h => ?_
    exact .process _ false (by simp) (by simpa [MayEnd] using h) (by simp)
  | security | preStart | postStop =>
    refine sat_assert (fun h => ⟨fun _ => by simp_all [MayEnd], by simp [Fault.ofQueue]⟩)
      fun h => ?_
    exact .process _ _ (by simp) (by simpa [MayEnd] using h) (by simp)

/-- The job after the end of a process has been recorded. -/
inductive Ended (sys : Sys) (job : Job) (p : ProcessType) (status : Int) :
    Bool → Sys → Job → Prop where
  | failed {sys' : Sys} {job' : Job}
      (fail : Fails sys (job.cancelKill.setPid p 0) (some p) status sys' job') :
      Ended sys job p status true sys' job'
  | ok : Ended sys job p status false sys (job.cancelKill.setPid p 0)

theorem cancelKill_core (job : Job) : SameCore job job.cancelKill := by
  unfold Job.cancelKill
  split <;> exact ⟨rfl, rfl, rfl, rfl, rfl, id⟩

theorem Ended.core {sys sys' : Sys} {job job' : Job} {p : ProcessType} {status : Int}
    {failed : Bool} (h : Ended sys job p status failed sys' job') :
    SameCore (job.setPid p 0) job' := by
  have hcancel := (cancelKill_core job).setPid p 0
  cases h with
  | failed fail => exact hcancel.trans fail.core
  | ok => exact hcancel

/-- What follows the record of the end of a process: the job is stopped, or goes on. -/
def stopOrAdvance (x : Host) (sys : Sys) (job : Job) (stop state : Bool) :
    Except Fault (Sys × JobRef) := do
  let (sys, ref) ← if stop then jobChangeGoal x sys job .stop else .ok (sys, .live job)
  let job ← ref.get .jobProcessTerminated
  if stop && job.state = .running then .ok (sys, .live job)
  else if state then jobAdvance x sys job
  else .ok (sys, .live job)

theorem afterTerminated_eq (x : Host) (sys : Sys) (job : Job) (p : ProcessType) (status : Int)
    (stateOnly : Bool) (v : Verdict) :
    afterTerminated x sys job p status stateOnly v =
      (if v.failed then
        jobFailed sys (if stateOnly then job.cancelKill else job.cancelKill.setPid p 0) (some p)
          status
      else .ok (sys, if stateOnly then job.cancelKill else job.cancelKill.setPid p 0)) >>= fun r =>
        nihAssert .jobProcessTerminated (!(stateOnly && v.stop && v.failed)) >>= fun _ =>
          stopOrAdvance x r.1 r.2 (v.stop && !stateOnly) v.state := by
  unfold afterTerminated stopOrAdvance
  cases v.failed <;> rfl

/-- The rule for what follows the `switch` of `job_process_terminated`. -/
theorem afterTerminated_rule {x : Host} {sys : Sys} {job : Job} {p : ProcessType}
    {status : Int} {v : Verdict} {Q : Sys × JobRef → Prop} {E : Fault → Prop}
    (hfault : ∀ f, f.ofStateMachine = false ∧ ¬ Releasable sys job.blocking → E f)
    (hstay : ∀ sys' job', Ended sys job p status v.failed sys' job' → v.stop = false →
      v.state = false → Q (sys', .live job'))
    (hadvance : ∀ sys' job', Ended sys job p status v.failed sys' job' → v.stop = false →
      v.state = true → Sat (jobAdvance x sys' job') Q E)
    (hstop : ∀ sys' job', Ended sys job p status v.failed sys' job' → v.stop = true →
      Sat (jobChangeGoal x sys' job' .stop) (fun r => ∀ j, r.2 = .live j →
        (j.state = .running ∨ v.state = false → Q (r.1, .live j)) ∧
        (j.state ≠ .running → v.state = true → Sat (jobAdvance x r.1 j) Q E)) E) :
    Sat (afterTerminated x sys job p status false v) Q E := by
  have hrest : ∀ sys' job', Ended sys job p status v.failed sys' job' →
      Sat (stopOrAdvance x sys' job' v.stop v.state) Q E := by
    intro sys' job' he
    unfold stopOrAdvance
    cases hs : v.stop with
    | false =>
      cases hv : v.state with
      | false => exact hstay sys' job' he hs hv
      | true => exact hadvance sys' job' he hs hv
    | true =>
      rw [if_pos (by rfl), sat_bind]
      refine ((hstop sys' job' he hs).and jobChangeGoal_live).mono ?_ fun f hf => hf.1
      rintro ⟨sys₁, job₁ | job₁⟩ ⟨h, hlive⟩
      · obtain ⟨hq, ha⟩ := h job₁ rfl
        simp only [JobRef.get_live, sat_bind, sat_ok, Bool.true_and, decide_eq_true_eq]
        split
        · rename_i hr
          exact hq (.inl hr)
        · rename_i hr
          cases hv : v.state with
          | false => exact hq (.inr hv)
          | true => exact ha hr hv
      · exact hlive.elim
  rw [afterTerminated_eq]
  simp only [Bool.false_eq_true, if_false, Bool.false_and, Bool.not_false, Bool.and_true, nihAssert,
    check_true, sat_bind, sat_ok]
  cases hf : v.failed with
  | true =>
    rw [hf] at hrest
    rw [if_pos rfl]
    have hblocking : (job.cancelKill.setPid p 0).blocking = job.blocking := by
      simp only [Job.setPid, Job.cancelKill]
      split <;> rfl
    refine jobFailed_sat.mono (fun r hr => ?_) fun f hf => hfault f (hblocking ▸ hf)
    exact hrest r.1 r.2 (.failed hr)
  | false =>
    rw [hf] at hrest
    exact hrest sys _ .ok

/-- The rule for `job_process_terminated` when a process has ended: its
`switch`, then what follows it. -/
theorem jobProcessTerminated_rule {x : Host} {sys : Sys} {job : Job} {p : ProcessType}
    {status : Int} {Q : Sys × JobRef → Prop} {E : Fault → Prop}
    (hrest : job.state.spawning? = false)
    (hfault : ∀ f, (f.ofStateMachine = true → MayEnd job.state p = false) ∧
      (f.ofQueue = true → ¬ Releasable sys job.blocking) → E f)
    (hterm : ∀ sys' job' v, Terminates x sys job status p sys' (.live job') v →
      Sat (afterTerminated x sys' job' p status false v) Q E) :
    Sat (jobProcessTerminated x sys job p status false) Q E := by
  unfold jobProcessTerminated
  rw [if_neg (by simp [hrest]), sat_bind]
  refine (processTerminated_sat x sys job p status).mono ?_ hfault
  rintro ⟨sys', job' | job', v⟩ h
  · exact hterm sys' job' v h
  · -- only the change to stopping could free the job, and it does not
    cases h with
    | respawnSpawned state goal change =>
      exact (jobChangeState_live (by rfl) : Sat _ _ _).of_ok change |>.elim

end Startup
