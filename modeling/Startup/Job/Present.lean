import Startup.Job.Assertions

/-!
# Jobs that handlers go on to use

The handlers of the notifications about a process access the job, or its set-up data,
after calls that may have freed it, and `event_finished` accesses the jobs of its list.
Which of these accesses finds the job gone is shown by the function that the fault names.

* `Present`: a program that does not end with an access of a handler;
* `jobAdvance_notEnd`: a job that is not at its end is there after it has moved on;
* `jobStep_present`: the handlers find the job, unless a set-up error comes in when the
  job is at its end.
-/

namespace Startup

open Lib

variable {x : Host} {sys : Sys} {job : Job}

/-- The accesses of the handlers, and of `event_finished`, to a job that has been freed. -/
def Fault.ofHandler : Fault → Bool
  | .useAfterFree .jobProcessChildReader => true
  | .useAfterFree .jobProcessCloseHandler => true
  | .useAfterFree .jobChildErrorHandler => true
  | .useAfterFree .jobProcessTerminated => true
  | .useAfterFree .eventFinished => true
  | _ => false

/-- A program in which no handler accesses a freed job. -/
def Present {α : Type} (m : Except Fault α) : Prop :=
  Sat m (fun _ => True) (fun f => f.ofHandler = false)

/-! ## Calls without handlers -/

namespace Present

theorem ok {α : Type} (a : α) : Present (.ok a : Except Fault α) := trivial

theorem bind {α β : Type} {m : Except Fault α} {k : α → Except Fault β} (hm : Present m)
    (hk : ∀ a, Present (k a)) : Present (m >>= k) := by
  rw [Present, sat_bind]
  exact hm.imp fun a _ => hk a

theorem assert {α : Type} {fn : SourceFn} {b : Bool} {m : Except Fault α} (hm : Present m) :
    Present (nihAssert fn b >>= fun _ => m) :=
  sat_assert (fun _ => rfl) fun _ => hm

/-- The job is live before it is accessed. -/
theorem get {α : Type} {m : Except Fault (Sys × JobRef)} {fn : SourceFn}
    {k : Sys → Job → Except Fault α} {P : Job → Prop} (hm : Present m)
    (hlive : Sat m (fun r => r.2.Live P) (fun _ => True))
    (hk : ∀ sys job, P job → Present (k sys job)) :
    Present (do
      let r ← m
      let job ← r.2.get fn
      k r.1 job) := by
  rw [Present, sat_bind]
  refine (Sat.and hm hlive).mono ?_ fun _ h => h.1
  rintro ⟨sys, job | job⟩ ⟨-, h⟩
  · exact hk sys job h
  · exact h.elim

end Present

theorem finishBlocked_present (failed : Bool) (sys : Sys) (entry : Blocked) :
    Present (finishBlocked failed sys entry) := by
  have hunblock : ∀ (sys : Sys) e, Present (eventUnblock sys e) := by
    intro sys e
    unfold eventUnblock
    split
    · rfl
    · exact .assert (.ok _)
  cases entry with
  | event e => exact hunblock _ e
  | job | emitMethod => rfl
  | _ => trivial

theorem jobFinished_present (sys : Sys) (job : Job) (failed : Bool) :
    Present (jobFinished sys job failed) := by
  have hall : ∀ (entries : List Blocked) sys, Present (entries.foldlM (finishBlocked failed) sys) := by
    intro entries
    induction entries with
    | nil => exact fun _ => trivial
    | cons entry entries ih =>
      intro sys
      rw [List.foldlM_cons]
      exact (finishBlocked_present failed sys entry).bind ih
  exact (hall job.blocking sys).bind fun _ => .ok _

theorem jobFailed_present (sys : Sys) (job : Job) (p : Option ProcessType) (status : Int) :
    Present (jobFailed sys job p status) := by
  unfold jobFailed
  split
  · trivial
  · exact jobFinished_present ..

theorem jobNextState_present (job : Job) : Present (jobNextState job) := by
  unfold jobNextState
  cases job.state <;> cases job.goal <;> first
    | trivial
    | (dsimp only; split <;> trivial)

theorem jobEmitEvent_present (sys : Sys) (job : Job) : Present (jobEmitEvent x sys job) := by
  unfold jobEmitEvent
  cases job.state <;> trivial

theorem spawnAndNext_present (sys : Sys) (job : Job) (p : ProcessType) (cond : Bool) :
    Present (spawnAndNext sys job p cond) := by
  have hnext : ∀ (sys : Sys) job, Present (jobNextState job >>= fun r =>
      (.ok (.next sys r.1 r.2) : Except Fault Pass)) :=
    fun sys job => (jobNextState_present job).bind fun _ => .ok _
  unfold spawnAndNext
  cases cond with
  | false => exact hnext sys job
  | true =>
    have hstart : Present (jobProcessStart sys job p) := by
      unfold jobProcessStart
      split
      · rfl
      · trivial
    exact hstart.bind fun r => hnext r.1 r.2

theorem nextUnless_present (sys : Sys) (job : Job) (cond : Bool) :
    Present (nextUnless sys job cond) := by
  unfold nextUnless
  split
  · trivial
  · exact (jobNextState_present job).bind fun _ => .ok _

theorem jobProcessKill_present (sys : Sys) (job : Job) (p : ProcessType) :
    Present (jobProcessKill x sys job p) := by
  unfold jobProcessKill
  refine .assert (.assert (.assert ?_))
  dsimp only
  split
  · trivial
  · exact .assert (.ok _)

theorem jobEnterState_present (sys : Sys) (old : JobState) (job : Job) :
    Present (jobEnterState x sys old job) := by
  unfold jobEnterState
  cases job.state with
  | starting => exact .assert (.assert ((jobEmitEvent_present sys _).bind fun _ => .ok _))
  | securitySpawning | preStarting | spawning | postStarting | preStopping =>
    exact .assert (.assert (spawnAndNext_present ..))
  | security | preStart | spawned | postStart | preStop =>
    exact .assert (.assert (nextUnless_present ..))
  | running =>
    refine .assert (.assert ?_)
    split
    · exact (jobFinished_present ..).bind fun _ => .ok _
    · refine (jobEmitEvent_present sys job).bind fun r => ?_
      dsimp only
      split
      · exact (jobFinished_present ..).bind fun _ => .ok _
      · trivial
  | stopping => exact .assert ((jobEmitEvent_present sys job).bind fun _ => .ok _)
  | killed =>
    refine .assert ?_
    split
    · exact (jobProcessKill_present ..).bind fun _ => .ok _
    · exact (jobNextState_present job).bind fun _ => .ok _
  | postStopping => exact .assert (spawnAndNext_present ..)
  | postStop => exact .assert (nextUnless_present ..)
  | waiting =>
    refine .assert (.assert ((jobEmitEvent_present sys job).bind fun r => ?_))
    exact (jobFinished_present ..).bind fun _ => .ok _

theorem jobChangeState_present (sys : Sys) (job : Job) (state : JobState) :
    Present (jobChangeState x sys job state) := by
  have hloop : ∀ fuel sys job state, Present (jobChangeStateLoop x fuel sys job state) := by
    intro fuel
    induction fuel with
    | zero => exact fun _ _ _ => rfl
    | succ fuel ih =>
      intro sys job state
      unfold jobChangeStateLoop
      split
      · trivial
      · split
        · trivial
        · refine (jobEnterState_present ..).bind fun pass => ?_
          cases pass with
          | next sys job state => exact ih sys job state
          | freed => trivial
  exact hloop 17 sys job state

theorem jobAdvance_present (sys : Sys) (job : Job) : Present (jobAdvance x sys job) :=
  (jobNextState_present job).bind fun _ => jobChangeState_present ..

theorem jobChangeGoal_present (sys : Sys) (job : Job) (goal : JobGoal) :
    Present (jobChangeGoal x sys job goal) := by
  rw [jobChangeGoal_eq]
  split
  · exact jobAdvance_present ..
  · trivial

/-! ## Jobs that are not freed -/

/-- A job with the goal to start is not freed. -/
theorem jobChangeState_start_live {state : JobState} (hg : job.goal = .start) :
    Sat (jobChangeState x sys job state) (fun r => r.2.Live fun _ => True) (fun _ => True) := by
  refine (jobChangeState_rule (I := fun _ job _ => job.goal = .start) (F := fun _ _ => False) ?_
    (fun _ _ _ _ _ _ _ _ => trivial) hg).imp ?_
  · intro sys job state pass h _ _ hpass
    cases hpass with
    | waiting st goal =>
      have goal : job.goal = .stop := goal
      rw [h] at goal
      cases goal
    | _ => exact h
  · rintro ⟨sys, job | job⟩ h
    · trivial
    · exact h

/-- A job with a `post-stop` process waits for it before it is freed. -/
theorem jobChangeState_postStop_live {state : JobState} (hpost : job.has .postStop = true)
    (hs : state = .postStopping) :
    Sat (jobChangeState x sys job state) (fun r => r.2.Live fun _ => True) (fun _ => True) := by
  refine (jobChangeState_rule (I := fun _ job state =>
    job.has .postStop = true ∧ (state = .postStopping ∨ state = .postStop))
    (F := fun _ _ => False) ?_ (fun _ _ _ _ _ _ _ _ => trivial) ⟨hpost, .inl hs⟩).imp ?_
  · rintro sys job state pass ⟨hpost, hstate⟩ - - hpass
    have hproc : ∀ p : ProcessType, state = p.spawnState ∨ state = p.waitState →
        p = .postStop ∧ job.runs x p = true := by
      intro p hp
      have heq : p = .postStop := by
        rcases hstate with hs | hs <;> rw [hs] at hp <;> cases p <;>
          simp_all [ProcessType.spawnState, ProcessType.waitState]
      subst heq
      exact ⟨rfl, by simp [Job.runs, hpost]⟩
    cases hpass with
    | spawn p proc st =>
      obtain ⟨rfl, -⟩ := hproc p (.inl st)
      exact ⟨hpost, .inr rfl⟩
    | noSpawn p st goal ne from_ runs =>
      obtain ⟨-, hruns⟩ := hproc p (.inl st)
      exact absurd (hruns.symm.trans runs) (by simp)
    | wait p st => exact ⟨hpost, hstate⟩
    | skip p st goal ne from_ runs =>
      obtain ⟨-, hruns⟩ := hproc p (.inr st)
      exact absurd (hruns.symm.trans runs) (by simp)
    | starting st | resumed st | running st | runningTask st | stopping st | kill st | dead st
    | waiting st =>
      have st : state = _ := st
      simp [st] at hstate
  · rintro ⟨sys, job | job⟩ h
    · trivial
    · exact h

/-- A job that is not at its end, or that is to start again, is there after it has moved
on. -/
theorem jobAdvance_notEnd {D : ProcessType → Prop} (h : Settled D job)
    (hend : ¬ (job.AtEnd ∧ job.goal = .stop)) :
    Sat (jobAdvance x sys job) (fun r => r.2.Live fun _ => True) (fun _ => True) := by
  by_cases hstopping : job.state = .stopping
  · have hb := h.blocked.mpr (.inr hstopping)
    refine jobAdvance_rule h.resting (fun _ => trivial) (fun _ => trivial) fun state hnone _ => ?_
    simp [hnone] at hb
  · by_cases hending : job.state.ending = false ∨ job.state = .waiting
    · exact jobAdvance_live h.resting hending hstopping
    · have hlast : job.state = .killed ∨ job.state = .postStop := by
        have hrest := h.resting
        cases hs : job.state <;> simp_all [JobState.ending, JobState.spawning?]
      have hne : job.goal ≠ .respawn := by
        intro hg
        rcases h.respawn hg with hs | hs <;> simp [hs] at hlast
      refine jobAdvance_rule h.resting (fun _ => trivial) (fun _ => trivial) fun state _ hf => ?_
      cases hg : job.goal with
      | respawn => exact absurd hg hne
      | start => exact jobChangeState_start_live rfl
      | stop =>
        have hno : ¬ job.AtEnd := fun hat => hend ⟨hat, hg⟩
        have hedge := hf.edge
        rcases hlast with hs | hs
        · have hpost : job.has .postStop = true := by
            by_contra hnot
            exact hno (.inr ⟨hs, by simpa using hnot⟩)
          refine jobChangeState_postStop_live hpost ?_
          rw [hs] at hedge
          cases state <;> simp_all [edge]
        · exact absurd (.inl hs) hno

/-- A running job that is told to stop goes on to `pre-stop` or to stopping. -/
theorem jobAdvance_running_notEnding (hs : job.state = .running) (hg : job.goal = .stop) :
    Sat (jobAdvance x sys job) (fun r => r.2.Live fun j => j.state.ending = false)
      (fun _ => True) := by
  have hrest : job.state.spawning? = false := by simp [hs, JobState.spawning?]
  have hnow : job.state.ending = false := by simp [hs, JobState.ending]
  refine jobAdvance_rule hrest (fun _ => trivial) (fun _ => hnow) fun state _ hf => ?_
  have hstate : state.ending = false := by
    have hedge := hf.edge
    rw [hs, hg] at hedge
    cases state <;> simp_all [edge, JobState.ending, JobGoal.next]
  have hhead : (job.setGoal job.goal.next).state.ending = false ∧ state.ending = false :=
    ⟨hnow, hstate⟩
  refine (jobChangeState_rule (I := fun _ job state =>
    job.state.ending = false ∧ state.ending = false) (F := fun _ _ => False) ?_
    (fun _ _ _ _ _ _ _ _ => trivial) hhead).imp ?_
  · intro sys job state pass h _ _ hpass
    have hkeep := hpass.notEnding h.2
    cases pass with
    | next => exact hkeep
    | freed => exact hkeep
  · rintro ⟨sys, job | job⟩ h
    · obtain ⟨state, h, -⟩ := h
      exact h.1
    · exact h

/-! ## Notifications -/

/-- The program leaves the job there, and no handler accesses a freed one. -/
def Remains (m : Except Fault (Sys × JobRef)) : Prop :=
  Sat m (fun r => r.2.Live fun _ => True) (fun f => f.ofHandler = false)

theorem Present.remains {m : Except Fault (Sys × JobRef)} (hm : Present m)
    (hlive : Sat m (fun r => r.2.Live fun _ => True) (fun _ => True)) : Remains m :=
  (Sat.and hm hlive).mono (fun _ h => h.2) fun _ h => h.1

theorem Remains.present {m : Except Fault (Sys × JobRef)} (hm : Remains m) : Present m :=
  Sat.imp hm fun _ _ => trivial

theorem mainTerminated_present (sys : Sys) (job : Job) (status : Int) :
    Present (mainTerminated x sys job status) := by
  unfold mainTerminated
  refine .assert ?_
  dsimp only
  split
  · trivial
  split
  · trivial
  split
  · trivial
  split
  · trivial
  split
  · exact (jobFailed_present ..).bind fun _ => .ok _
  have hspawned : ∀ (sys : Sys) (job' : Job), Present (
      if job'.state = .spawned then
        jobChangeState x sys job' .stopping >>= fun r =>
          (.ok (r.1, r.2, ⟨false, false, false⟩) : Except Fault (Sys × JobRef × Verdict))
      else .ok (sys, .live job', ⟨false, false, !job.waits⟩)) := by
    intro sys job'
    split
    · exact (jobChangeState_present ..).bind fun _ => .ok _
    · trivial
  split
  · exact .get (jobChangeGoal_present ..) jobChangeGoal_live fun sys job _ => hspawned sys job
  · exact hspawned sys _

theorem processTerminated_present (sys : Sys) (job : Job) (p : ProcessType) (status : Int) :
    Present (processTerminated x sys job p status) := by
  unfold processTerminated
  cases p with
  | main => exact mainTerminated_present sys job status
  | _ => exact .assert (.ok _)

/-- The `switch` of `job_process_terminated` does not free the job. -/
theorem processTerminated_live (sys : Sys) (job : Job) (p : ProcessType) (status : Int) :
    Sat (processTerminated x sys job p status) (fun r => r.2.1.Live fun _ => True)
      (fun _ => True) := by
  refine (processTerminated_sat x sys job p status).mono ?_ fun _ _ => trivial
  rintro ⟨sys', ref, v⟩ h
  cases h with
  | respawnSpawned state goal change =>
    have hlive : Sat (jobChangeState x sys (jobProcessCatchRunaway x job).1 .stopping)
        (fun r => r.2.Live fun _ => True) (fun _ => True) := jobChangeState_live (by rfl)
    exact hlive.of_ok change
  | _ => trivial

theorem afterTerminated_present (sys : Sys) (job : Job) (p : ProcessType) (status : Int)
    (stateOnly : Bool) (v : Verdict) :
    Present (afterTerminated x sys job p status stateOnly v) := by
  have hrest : ∀ (sys : Sys) (job : Job),
      Present (stopOrAdvance x sys job (v.stop && !stateOnly) v.state) := by
    intro sys job
    have hlast : ∀ (sys : Sys) (job : Job), Present (
        if (v.stop && !stateOnly) && job.state = .running then .ok (sys, .live job)
        else if v.state then jobAdvance x sys job
        else .ok (sys, .live job)) := by
      intro sys job
      split
      · trivial
      split
      · exact jobAdvance_present ..
      · trivial
    unfold stopOrAdvance
    dsimp only
    split
    · exact .get (jobChangeGoal_present ..) jobChangeGoal_live fun sys job _ => hlast sys job
    · exact hlast sys job
  rw [afterTerminated_eq]
  split
  · exact (jobFailed_present ..).bind fun r => .assert (hrest r.1 r.2)
  · exact .assert (hrest sys _)

theorem jobProcessTerminated_present (sys : Sys) (job : Job) (p : ProcessType) (status : Int)
    (stateOnly : Bool) : Present (jobProcessTerminated x sys job p status stateOnly) := by
  unfold jobProcessTerminated
  split
  · split
    · rfl
    · exact (jobNextState_present _).bind fun _ => .ok _
  · rw [Present, sat_bind]
    refine (Sat.and (processTerminated_present sys job p status)
      (processTerminated_live sys job p status)).mono ?_ fun _ h => h.1
    rintro ⟨sys', job' | job', v⟩ ⟨-, h⟩
    · exact afterTerminated_present ..
    · exact h.elim

/-- The pipe of a child that is set up is closed. -/
theorem jobProcessCloseHandler_present {pid : Pid} (hrest : job.state.spawning? = false)
    (hdata : (job.data? pid).isSome = true) :
    Present (jobProcessCloseHandler x sys job pid) := by
  unfold jobProcessCloseHandler
  split
  · rename_i hnone
    simp [hnone] at hdata
  split
  · trivial
  rename_i data _ _
  have hlast : ∀ (sys : Sys) (job : Job), Present (
      if job.state.spawning? then
        jobProcessTerminated x sys job data.process data.status true
      else .ok (sys, .live job)) := by
    intro sys job
    split
    · exact jobProcessTerminated_present ..
    · trivial
  dsimp only
  split
  · rename_i hs
    refine .get (jobAdvance_present ..) (P := fun _ => True) ?_ fun sys job _ => hlast sys job
    have hspawned : job.state = .spawned := hs.1
    apply jobAdvance_live
    · exact hrest
    · left
      show job.state.ending = false
      simp [hspawned, JobState.ending]
    · show job.state ≠ .stopping
      simp [hspawned]
  · exact hlast sys _

/-! ### Leaving the spawned state -/

theorem jobProcessStopped_present (sys : Sys) (job : Job) (p : ProcessType) :
    Present (jobProcessStopped x sys job p) := by
  unfold jobProcessStopped
  split
  · trivial
  split
  · exact jobAdvance_present ..
  · trivial

theorem jobProcessTraceNew_present (sys : Sys) (job : Job) (p : ProcessType) :
    Present (jobProcessTraceNew x sys job p) := by
  refine .assert ?_
  split
  · trivial
  split <;> trivial

theorem jobProcessTraceNewChild_present (sys : Sys) (job : Job) (p : ProcessType) :
    Present (jobProcessTraceNewChild x sys job p) := by
  refine .assert ?_
  split
  · trivial
  dsimp only
  split
  · exact jobAdvance_present ..
  · exact jobProcessTraceNew_present ..

theorem jobProcessTraceFork_present (sys : Sys) (job : Job) (p : ProcessType) :
    Present (jobProcessTraceFork x sys job p) := by
  unfold jobProcessTraceFork
  split
  · trivial
  split
  · trivial
  dsimp only
  split
  · trivial
  · exact jobProcessTraceNewChild_present ..

theorem jobProcessTraceExec_present (sys : Sys) (job : Job) (p : ProcessType) :
    Present (jobProcessTraceExec x sys job p) := by
  unfold jobProcessTraceExec
  split
  · trivial
  split
  · exact jobAdvance_present ..
  · trivial

theorem jobProcessHandler_present (sys : Sys) (job : Job) (p : ProcessType)
    (event : ChildEvent) : Present (jobProcessHandler x sys job p event) := by
  cases event with
  | exited | killed | dumped => exact jobProcessTerminated_present ..
  | stopped signal =>
    dsimp only [jobProcessHandler]
    split
    · exact jobProcessStopped_present ..
    · trivial
  | continued => trivial
  | trapped signal =>
    dsimp only [jobProcessHandler]
    split
    · exact jobProcessTraceNew_present ..
    split
    · exact jobProcessTraceNewChild_present ..
    · unfold jobProcessTraceSignal
      split <;> trivial
  | ptraceFork => exact jobProcessTraceFork_present ..
  | ptraceExec => exact jobProcessTraceExec_present ..

theorem jobProcessReadyfdReader_present (sys : Sys) (job : Job) (buf : String) :
    Present (jobProcessReadyfdReader x sys job buf) := by
  unfold jobProcessReadyfdReader
  split
  · exact jobAdvance_present ..
  · trivial

theorem jobProcessKillTimer_present (sys : Sys) (job : Job) :
    Present (jobProcessKillTimer sys job) := by
  refine .assert ?_
  split
  · rfl
  · exact .assert (.ok _)

/-! ### Set-up errors -/

/-- A set-up error of the process `p` moves the job on from its end. -/
def Job.endsAfter (job : Job) (p : ProcessType) : Prop :=
  p ≠ .security ∧ job.AtEnd ∧ job.goalAfterError p = .stop

/-- The input is a set-up error that comes in when the job is at its end. -/
def errorAtEnd (job : Job) : Input → Prop
  | .childError pid permanent => permanent = true ∧
      ∃ d, job.data? pid = some d ∧ d.valid = true ∧ job.endsAfter d.process
  | _ => False

theorem failAndAdvance_remains {D : ProcessType → Prop} {p : ProcessType} (h : Settled D job)
    (hend : ¬ job.AtEnd) : Remains (failAndAdvance x sys job p) := by
  unfold failAndAdvance Remains
  rw [sat_bind]
  refine (Sat.and (jobFailed_present sys job (some p) (-1)) jobFailed_core).mono ?_ fun _ h => h.1
  rintro ⟨sys₁, job₁⟩ ⟨-, hc⟩
  have h₁ : Settled D job₁ := h.same hc
  have hend₁ : ¬ job₁.AtEnd := by
    unfold Job.AtEnd at hend ⊢
    rw [show job₁.state = job.state from hc.state, show job₁.has .postStop = job.has .postStop
      from hc.has .postStop]
    exact hend
  have hadvance : ∀ (sys : Sys) {D : ProcessType → Prop} {job : Job}, Settled D job →
      ¬ job.AtEnd → Remains (jobAdvance x sys job) := fun sys _ _ hset hno =>
    (jobAdvance_present sys _).remains (jobAdvance_notEnd hset fun hat => hno hat.1)
  dsimp only
  rw [jobChangeGoal_eq]
  split
  · -- the job was running
    rename_i hm
    have hrunning : (job₁.setGoal .stop).state = .running := by
      rcases hm.2 with ⟨hgoal, -⟩ | ⟨-, hs⟩
      · cases hgoal
      · exact hs
    rw [sat_bind]
    refine (Sat.and (jobAdvance_present sys₁ (job₁.setGoal .stop))
      (Sat.and (jobAdvance_running_notEnding hrunning rfl) (h₁.move hm))).mono ?_ fun _ h => h.1
    rintro ⟨sys₂, job₂ | job₂⟩ ⟨-, hlive, hset⟩
    · have hending : job₂.state.ending = false := hlive
      have hset : Settled (fun _ => True) job₂ := hset
      refine hadvance sys₂ hset fun hat => ?_
      rcases hat with hs | ⟨hs, -⟩ <;> simp [hs, JobState.ending] at hending
    · exact hlive.elim
  · rename_i hm
    exact hadvance sys₁ (h₁.setGoal hm (by simp)) hend₁

theorem jobChildErrorHandler_remains {D : ProcessType → Prop} {p : ProcessType}
    (h : Settled D job) (hn : ¬ job.endsAfter p) : Remains (jobChildErrorHandler x sys job p) := by
  have hset := h.setPid p 0
  have hfails : (p ≠ .security ∧ p ≠ .postStart ∧ p ≠ .preStop) → ¬ job.AtEnd := fun hp hat =>
    hn ⟨hp.1, hat, by simp [Job.goalAfterError, hp.2]⟩
  have hmoves : p = .postStart ∨ p = .preStop →
      Remains (jobAdvance x sys (job.setPid p 0)) := by
    intro hp
    refine (jobAdvance_present ..).remains (jobAdvance_notEnd hset fun hat => hn ⟨?_, hat.1, ?_⟩)
    · rcases hp with rfl | rfl <;> simp
    · rw [Job.goalAfterError, if_pos hp]
      exact hat.2
  cases p with
  | security =>
    refine (Present.bind (jobFailed_present ..) fun r => jobChangeGoal_present ..).remains ?_
    rw [sat_bind]
    exact (sat_true (m := jobFailed _ _ _ _)).imp fun r _ => jobChangeGoal_live
  | preStart | main | postStop => exact failAndAdvance_remains hset (hfails (by simp))
  | postStart => exact hmoves (.inl rfl)
  | preStop => exact hmoves (.inr rfl)

theorem jobProcessChildReader_present {D : ProcessType → Prop} {pid : Pid} {permanent : Bool}
    (h : Settled D job) (hdata : (job.data? pid).isSome = true)
    (hn : ¬ errorAtEnd job (.childError pid permanent)) :
    Present (jobProcessChildReader x sys job pid permanent) := by
  unfold jobProcessChildReader
  split
  · rename_i hnone
    simp [hnone] at hdata
  · rename_i d hd
    split
    · trivial
    · rename_i hc
      simp only [Bool.or_eq_true, Bool.not_eq_true', not_or, Bool.not_eq_false] at hc
      have hset : Settled D (job.modifyData pid fun d => { d with script := none }) :=
        h.same (modifyData_core job pid _)
      have hno : ¬ (job.modifyData pid fun d => { d with script := none }).endsAfter d.process :=
        fun hat => hn ⟨hc.2, d, hd, hc.1, hat⟩
      have hremains : Remains (jobChildErrorHandler x sys _ d.process) :=
        jobChildErrorHandler_remains hset hno
      have hlive : Sat (jobChildErrorHandler x sys _ d.process)
          (fun r => r.2.Live fun _ => True) (fun _ => True) := Sat.mono hremains (fun _ h => h)
        fun _ _ => trivial
      dsimp only
      exact .get hremains.present hlive fun sys job _ =>
        .ok (sys, JobRef.live (job.modifyData pid fun d => { d with valid := false }))

/-- The inputs that are notifications about the processes of a job. -/
def Input.notifies : Input → Prop
  | .childError _ _ | .childClosed _ | .childEvent _ _ | .readyText _ _ | .killTimer => True
  | _ => False

/-- The handlers of the notifications find the job and its set-up data, unless a set-up
error comes in when the job is at its end. -/
theorem jobStep_present {D : ProcessType → Prop} {i : Input} (h : Settled D job)
    (hi : Enabled sys job i) (hnotifies : i.notifies) (hn : ¬ errorAtEnd job i) :
    Present (jobStep x sys job i) := by
  cases i with
  | childError pid permanent => exact jobProcessChildReader_present h hi hn
  | childClosed pid => exact jobProcessCloseHandler_present h.resting hi
  | childEvent process event => exact jobProcessHandler_present ..
  | readyText pid buf => exact jobProcessReadyfdReader_present ..
  | killTimer => exact jobProcessKillTimer_present ..
  | _ => exact hnotifies.elim

end Startup
