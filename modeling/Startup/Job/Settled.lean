import Startup.Job.Spec

/-!
# Jobs at rest

`Settled D job` is what holds of a job between two calls: it is blocked
exactly in the states that wait for an event, it is in none of the states in
which a process is being spawned, its goal fits its state, and the process
whose end moves it on is alive if `D` holds of that process.

Every function of a job keeps `Settled D`, whichever host it runs on and
whatever the rest of the system looks like.  The handling of a set-up error
keeps it for every process but the security process, for which it keeps it
outside `JOB_SECURITY` only (`jobChildErrorHandler_settled`).
-/

namespace Startup

open Lib

/-- The process whose notification drives the next `job_change_state`. -/
def JobState.driver : JobState → Option ProcessType
  | .security => some .security
  | .preStart => some .preStart
  | .spawned => some .main
  | .postStart => some .postStart
  | .preStop => some .preStop
  | .killed => some .main
  | .postStop => some .postStop
  | _ => none

theorem ProcessType.driver_waitState (p : ProcessType) : p.waitState.driver = some p := by
  cases p <;> rfl

/-- A job between two calls. -/
structure Settled (D : ProcessType → Prop) (job : Job) : Prop where
  blocked : job.blocker.isSome = true ↔ job.state = .starting ∨ job.state = .stopping
  resting : job.state.spawning? = false
  respawn : job.goal = .respawn → job.state = .postStart ∨ job.state = .preStop
  running : job.state = .running → job.goal = .start
  waiting : job.state = .waiting → job.goal = .stop
  driven : ∀ p, D p → job.state.driver = some p → job.alive p = true

namespace Settled

variable {D D' : ProcessType → Prop} {job job' : Job}

theorem mono (h : Settled D job) (hD : ∀ p, D' p → D p) : Settled D' job :=
  ⟨h.blocked, h.resting, h.respawn, h.running, h.waiting, fun p hp => h.driven p (hD p hp)⟩

/-- No process drives the job: the driver need not be alive. -/
theorem of_driver_none (h : Settled D job) (hd : job.state.driver = none) : Settled D' job :=
  ⟨h.blocked, h.resting, h.respawn, h.running, h.waiting, fun p _ hp => by simp [hd] at hp⟩

theorem same (h : Settled D job) (hc : SameCore job job') : Settled D job' := by
  refine ⟨?_, ?_, ?_, ?_, ?_, ?_⟩
  · rw [hc.blocker, hc.state]
    exact h.blocked
  · rw [hc.state]
    exact h.resting
  · rw [hc.goal, hc.state]
    exact h.respawn
  · rw [hc.state, hc.goal]
    exact h.running
  · rw [hc.state, hc.goal]
    exact h.waiting
  · intro p hp hs
    rw [hc.alive]
    exact h.driven p hp (hc.state ▸ hs)

/-- A new pid of a process keeps the job settled, except that a process that
has ended no longer drives it. -/
theorem setPid (h : Settled D job) (p : ProcessType) (pid : Pid) :
    Settled (fun q => D q ∧ (q = p → 0 < pid)) (job.setPid p pid) := by
  refine ⟨h.blocked, h.resting, h.respawn, h.running, h.waiting, ?_⟩
  rintro q ⟨hq, hpid⟩ hs
  have halive := h.driven q hq hs
  by_cases hqp : q = p
  · subst hqp
    simpa [Job.alive, Job.setPid] using hpid rfl
  · simpa [Job.alive, Job.setPid, Function.update, hqp] using halive

/-- A goal that does not move the job keeps it settled. -/
theorem setGoal (h : Settled D job) {goal : JobGoal} (hmove : ¬ Moves job goal)
    (hr : goal = .respawn → job.state = .postStart ∨ job.state = .preStop) :
    Settled D (job.setGoal goal) := by
  refine ⟨h.blocked, h.resting, hr, ?_, ?_, h.driven⟩
  · intro (hs : job.state = .running)
    have hg := h.running hs
    cases goal with
    | start => rfl
    | stop => exact absurd ⟨by simp [hg], .inr ⟨rfl, hs⟩⟩ hmove
    | respawn => rcases hr rfl with hr | hr <;> simp [hs] at hr
  · intro (hs : job.state = .waiting)
    have hg := h.waiting hs
    cases goal with
    | stop => rfl
    | start => exact absurd ⟨by simp [hg], .inl ⟨rfl, hs⟩⟩ hmove
    | respawn => rcases hr rfl with hr | hr <;> simp [hs] at hr

theorem nextOk (h : Settled D job) (hw : job.state = .waiting → job.goal = .start) : NextOk job :=
  ⟨hw, h.respawn⟩

end Settled

/-! ## Changing the state -/

/-- The loop of `job_change_state` on its way: a process that is about to be
waited for has been spawned. -/
structure Heading (x : Host) (job : Job) : Prop where
  unblocked : job.blocker = none
  goal : job.goal ≠ .respawn
  spawned : ∀ p, job.state = p.spawnState → job.runs x p = true → job.alive p = true

/-- What holds at the head of the loop. -/
def AtHead (x : Host) (job : Job) (state : JobState) : Prop :=
  job.state = state ∧ Settled (fun _ => True) job ∨ job.state ≠ state ∧ Heading x job

theorem ProcessType.spawnState_inj {p q : ProcessType} (h : p.spawnState = q.spawnState) :
    p = q := by
  cases p <;> cases q <;> simp_all [ProcessType.spawnState]

theorem ProcessType.spawnState_ne_waitState (p q : ProcessType) :
    p.spawnState ≠ q.waitState := by
  cases p <;> cases q <;> simp [ProcessType.spawnState, ProcessType.waitState]

theorem ProcessType.afterState_ne_waitState (p : ProcessType) (goal : JobGoal) :
    p.waitState ≠ p.afterState goal := by
  cases p <;> simp only [ProcessType.waitState, ProcessType.afterState, ne_eq, reduceCtorEq,
    not_false_eq_true]
  split <;> simp

/-- A job that waits for a process that it has just spawned. -/
private theorem settled_wait {job : Job} {p : ProcessType} (hs : job.state = p.waitState)
    (hb : job.blocker = none) (hg : job.goal ≠ .respawn) (ha : job.alive p = true) :
    Settled (fun _ => True) job := by
  refine ⟨?_, ?_, fun h => absurd h hg, ?_, ?_, ?_⟩
  · cases p <;> simp [hs, hb, ProcessType.waitState]
  · cases p <;> simp [hs, ProcessType.waitState, JobState.spawning?]
  · cases p <;> simp [hs, ProcessType.waitState]
  · cases p <;> simp [hs, ProcessType.waitState]
  · intro q _ hq
    rw [hs, p.driver_waitState] at hq
    cases hq
    exact ha

/-- One pass of the loop. -/
theorem Enters.atHead {x : Host} {sys : Sys} {old : JobState} {job : Job} {pass : Pass}
    (h : Enters x sys old job pass) (hb : job.blocker = none) (hg : job.goal ≠ .respawn)
    (halive : ∀ p, old = p.spawnState → job.runs x p = true → job.alive p = true) :
    pass.Holds (fun _ job state => AtHead x job state) (fun _ _ => True) := by
  cases h with
  | starting st goal from_ emit =>
    refine .inl ⟨rfl, ?_⟩
    refine ⟨?_, ?_, ?_, ?_, ?_, ?_⟩ <;>
      simp [Job.renew, st, goal, JobState.spawning?, JobState.driver]
  | spawn p proc st goal ne from_ runs proc_ =>
    refine .inr ⟨?_, hb, hg, ?_⟩
    · rw [show (processStarted sys job p proc).2.state = p.spawnState from st]
      exact p.spawnState_ne_waitState p
    · intro q hq _
      obtain rfl := ProcessType.spawnState_inj (st.symm.trans hq)
      simp [processStarted, Job.alive]
  | noSpawn p st goal ne from_ runs =>
    refine .inr ⟨?_, hb, hg, ?_⟩
    · rw [st]
      exact p.spawnState_ne_waitState p
    · intro q hq hr
      obtain rfl := ProcessType.spawnState_inj (st.symm.trans hq)
      simp [runs] at hr
  | wait p st goal from_ runs => exact .inl ⟨rfl, settled_wait st hb hg (halive p from_ runs)⟩
  | skip p st goal ne from_ runs =>
    refine .inr ⟨?_, hb, hg, ?_⟩
    · rw [st]
      exact p.afterState_ne_waitState job.goal
    · intro q hq
      exact absurd (hq.symm.trans st) (q.spawnState_ne_waitState p)
  | resumed st goal from_ finish =>
    refine .inl ⟨rfl, ?_⟩
    refine ⟨?_, ?_, ?_, ?_, ?_, ?_⟩ <;> simp [st, goal, hb, JobState.spawning?, JobState.driver]
  | running st goal from_ emit task finish =>
    refine .inl ⟨rfl, ?_⟩
    refine ⟨?_, ?_, ?_, ?_, ?_, ?_⟩ <;> simp [st, goal, hb, JobState.spawning?, JobState.driver]
  | runningTask st goal from_ emit task =>
    refine .inl ⟨rfl, ?_⟩
    refine ⟨?_, ?_, ?_, ?_, ?_, ?_⟩ <;> simp [st, goal, hb, JobState.spawning?, JobState.driver]
  | stopping st from_ emit =>
    refine .inl ⟨rfl, ?_⟩
    refine ⟨?_, ?_, ?_, ?_, ?_, ?_⟩ <;> simp [st, hg, JobState.spawning?, JobState.driver]
  | kill st from_ alive =>
    refine .inl ⟨rfl, ?_⟩
    refine ⟨?_, ?_, ?_, ?_, ?_, ?_⟩ <;> simp [st, hg, hb, JobState.spawning?, JobState.driver]
    exact alive.2
  | dead st goal from_ dead =>
    refine .inr ⟨by simp [st], hb, hg, ?_⟩
    intro q hq
    cases q <;> simp [st, ProcessType.spawnState] at hq
  | waiting => trivial

theorem jobChangeState_settled {x : Host} {sys : Sys} {job : Job} {state : JobState}
    (h : AtHead x job state) :
    Sat (jobChangeState x sys job state) (fun r => r.2.All (Settled fun _ => True))
      (fun _ => True) := by
  refine (jobChangeState_rule (I := fun _ job state => AtHead x job state)
    (F := fun _ _ => True) ?_ (fun _ _ _ _ _ _ _ _ => trivial) h).imp ?_
  · intro sys job state pass h hs hb hpass
    rcases h with ⟨h, -⟩ | ⟨-, h⟩
    · exact absurd h hs
    · exact hpass.atHead hb h.goal h.spawned
  · rintro ⟨sys, job | job⟩ h
    · obtain ⟨state, h | h, hs⟩ := h
      · exact h.2
      · simp [h.1, h.2.unblocked] at hs
    · trivial

/-- Advancing settles a job, whatever its processes do. -/
theorem jobAdvance_settled {x : Host} {sys : Sys} {job : Job} {D : ProcessType → Prop}
    (hrest : job.state.spawning? = false) (hb : job.blocker.isSome → Settled D job) :
    Sat (jobAdvance x sys job) (fun r => r.2.All (Settled fun _ => True)) (fun _ => True) := by
  refine jobAdvance_rule hrest (fun _ => trivial) ?_ ?_
  · intro hblock
    have hset := hb hblock
    have hstate := hset.blocked.mp hblock
    have hdriver : job.state.driver = none := by
      rcases hstate with hs | hs <;> simp [hs, JobState.driver]
    have hgoal : job.goal ≠ .respawn := fun h => by
      rcases hset.respawn h with h | h <;> simp [h] at hstate
    rw [JobGoal.next_eq hgoal]
    exact hset.of_driver_none hdriver
  · intro state hb hf
    refine jobChangeState_settled (.inr ⟨fun h => hf.ne h.symm, hb, job.goal.next_ne_respawn, ?_⟩)
    intro p hp
    have hp : job.state = p.spawnState := hp
    rw [hp] at hrest
    cases p <;> simp [ProcessType.spawnState, JobState.spawning?] at hrest

/-- A goal that moves the job settles it. -/
theorem Settled.move {x : Host} {sys : Sys} {job : Job} {D : ProcessType → Prop}
    {goal : JobGoal} (h : Settled D job) (hm : Moves job goal) :
    Sat (jobAdvance x sys (job.setGoal goal)) (fun r => r.2.All (Settled fun _ => True))
      (fun _ => True) := by
  refine jobAdvance_settled (D := D) h.resting fun (hb : job.blocker.isSome) => ?_
  -- waiting and running are not blocked
  have hstate := h.blocked.mp hb
  rcases hm.2 with ⟨-, hs⟩ | ⟨-, hs⟩ <;> simp [hs] at hstate

/-- The program leaves a settled job, if it leaves one. -/
def Settling (D : ProcessType → Prop) (m : Except Fault (Sys × JobRef)) : Prop :=
  Sat m (fun r => r.2.All (Settled D)) (fun _ => True)

theorem Settling.mono {D D' : ProcessType → Prop} {m : Except Fault (Sys × JobRef)}
    (h : Settling D m) (hD : ∀ p, D' p → D p) : Settling D' m := by
  refine Sat.imp h ?_
  rintro ⟨sys, job | job⟩ h
  · exact Settled.mono h hD
  · trivial

/-- A settled job advances to a settled job whose driver is alive. -/
theorem Settled.advance {x : Host} {sys : Sys} {job : Job} {D D' : ProcessType → Prop}
    (h : Settled D job) : Settling D' (jobAdvance x sys job) :=
  Settling.mono (jobAdvance_settled h.resting fun _ => h) fun _ _ => trivial

theorem Settled.changeGoal {x : Host} {sys : Sys} {job : Job} {D : ProcessType → Prop}
    {goal : JobGoal} (h : Settled D job)
    (hr : goal = .respawn → job.state = .postStart ∨ job.state = .preStop) :
    Settling D (jobChangeGoal x sys job goal) := by
  rw [jobChangeGoal_eq]
  split
  · rename_i hm
    exact Settling.mono (h.move hm) fun _ _ => trivial
  · rename_i hm
    exact h.setGoal hm hr

theorem Settled.changeGoal_stop {x : Host} {sys : Sys} {job : Job} {D : ProcessType → Prop}
    (h : Settled D job) : Settling D (jobChangeGoal x sys job .stop) :=
  h.changeGoal (by simp)

/-! ## Notifications -/

theorem JobRef.sat_get {fn : SourceFn} {ref : JobRef} {P Q : Job → Prop} {E : Fault → Prop}
    (h : ref.All P) (hE : E (.useAfterFree fn)) (hQ : ∀ job, P job → Q job) :
    Sat (ref.get fn) Q E := by
  cases ref with
  | live job => exact hQ job h
  | freed job => exact hE

variable {D : ProcessType → Prop} {x : Host} {sys : Sys} {job : Job}

/-- What the `switch` of `job_process_terminated` leaves: where the state is
not going to change, the process does not drive the job. -/
theorem Terminates.settled {p : ProcessType} {status : Int} {sys' : Sys} {job' : Job}
    {v : Verdict} (ht : Terminates x sys job status p sys' (.live job') v)
    (h : Settled D job) :
    Settled D job' ∧ (v.state = false → job'.state.driver ≠ some p) := by
  have hcatch := h.same (jobProcessCatchRunaway_core x job)
  have hstate := (jobProcessCatchRunaway_core x job).state
  have hwaits : job.waits = true → job.state.driver ≠ some .main := by
    intro hw hd
    simp only [Job.waits, Bool.or_eq_true, Bool.and_eq_true, decide_eq_true_eq] at hw
    rcases hw with ⟨⟨hs, -⟩, -⟩ | ⟨⟨hs, -⟩, -⟩ <;> simp [hs, JobState.driver] at hd
  cases ht with
  | process p failed ne mayEnd fails => exact ⟨h, by simp⟩
  | killed state => exact ⟨h, by simp⟩
  | stopping state => exact ⟨h, by simp [state, JobState.driver]⟩
  | goal state goal => exact ⟨h, by simpa using hwaits⟩
  | stop failed state goal => exact ⟨h, by simpa using hwaits⟩
  | runaway state goal fail =>
    have hcore := fail.core
    refine ⟨hcatch.same hcore, ?_⟩
    rw [show job'.state = job.state from hcore.state.trans hstate]
    simpa using hwaits
  | respawnLater waits goal =>
    refine ⟨hcatch.setGoal (by simp [Moves]) fun _ => ?_, fun _ => ?_⟩
    · rw [hstate]
      simp only [Job.waits, Bool.or_eq_true, Bool.and_eq_true, decide_eq_true_eq] at waits
      exact waits.imp (·.1.1) (·.1.1)
    · rw [show ((jobProcessCatchRunaway x job).1.setGoal .respawn).state = job.state from hstate]
      exact hwaits waits
  | respawnSpawned state goal change =>
    have hb : job.blocker = none := by
      have := h.blocked
      simpa [state] using this
    obtain ⟨e, heq⟩ := Terminates.respawnSpawned_eq state hb change
    cases heq
    have hgoal : (jobProcessCatchRunaway x job).1.goal = .start :=
      (jobProcessCatchRunaway_core x job).goal.trans goal
    refine ⟨⟨?_, ?_, ?_, ?_, ?_, ?_⟩, ?_⟩ <;> simp [hgoal, JobState.spawning?, JobState.driver]
  | respawn state waits goal => exact ⟨hcatch, by simp⟩

/-- After the end of a process, the job is settled but for that process. -/
private theorem Ended.settled {p : ProcessType} {status : Int} {failed : Bool} {sys' : Sys}
    {job' : Job} (he : Ended sys job p status failed sys' job') (h : Settled D job) :
    Settled (fun q => D q ∧ q ≠ p) job' :=
  ((h.setPid p 0).mono fun _ hq => ⟨hq.1, fun heq => absurd heq hq.2⟩).same he.core

theorem afterTerminated_settled {p : ProcessType} {status : Int} {v : Verdict}
    (h : Settled D job) (hv : v.state = false → job.state.driver ≠ some p) :
    Settling D (afterTerminated x sys job p status false v) := by
  have hkeep : ∀ job' : Job, job'.state = job.state ∨ job'.state.driver = none →
      v.state = false → Settled (fun q => D q ∧ q ≠ p) job' → Settled D job' := by
    intro job' hs hvs hset
    refine ⟨hset.blocked, hset.resting, hset.respawn, hset.running, hset.waiting, ?_⟩
    intro q hq hd
    refine hset.driven q ⟨hq, ?_⟩ hd
    rintro rfl
    rcases hs with hs | hs
    · exact hv hvs (hs ▸ hd)
    · simp [hs] at hd
  refine afterTerminated_rule (fun _ _ => trivial) ?_ ?_ ?_
  · intro sys' job' he _ hvs
    exact hkeep job' (.inl he.core.state) hvs (he.settled h)
  · intro sys' job' he _ _
    exact (he.settled h).advance
  · intro sys' job' he _
    have hset := he.settled h
    rw [jobChangeGoal_eq]
    split
    · rename_i hm
      refine (hset.move hm).imp fun r hr j hj => ?_
      have hj : Settled (fun _ => True) j := by
        rw [hj] at hr
        exact hr
      exact ⟨fun _ => hj.mono fun _ _ => trivial, fun _ _ => hj.advance⟩
    · rename_i hm
      rintro j ⟨⟩
      have hj := hset.setGoal hm (by simp)
      refine ⟨fun hs => ?_, fun _ _ => hj.advance⟩
      rcases hs with hs | hs
      · exact hj.of_driver_none (by simp [hs, JobState.driver])
      · exact hkeep _ (.inl he.core.state) hs hj

theorem jobProcessTerminated_settled {p : ProcessType} {status : Int} (h : Settled D job) :
    Settling D (jobProcessTerminated x sys job p status false) := by
  refine jobProcessTerminated_rule h.resting (fun _ _ => trivial) fun sys' job' v ht => ?_
  obtain ⟨h', hd⟩ := ht.settled h
  exact afterTerminated_settled h' hd

/-! ### Set-up errors -/

theorem failAndAdvance_settled {p : ProcessType} (h : Settled D job) {D' : ProcessType → Prop} :
    Settling D' (failAndAdvance x sys job p) := by
  unfold failAndAdvance Settling
  rw [sat_bind]
  refine jobFailed_core.mono (fun r hr => ?_) fun _ _ => trivial
  rw [sat_bind]
  refine ((h.same hr).changeGoal (by simp)).imp fun r' hr' => ?_
  rw [sat_bind]
  exact JobRef.sat_get hr' trivial fun j hj => hj.advance

/-- A set-up error leaves a settled job.  The security process is the
exception: its case does not change the state. -/
theorem jobChildErrorHandler_settled {p : ProcessType} (h : Settled D job)
    (hsec : D .security → ¬ (p = .security ∧ job.state = .security)) :
    Settling D (jobChildErrorHandler x sys job p) := by
  have hpid := h.setPid p 0
  unfold jobChildErrorHandler
  cases p with
  | security =>
    have hkeep : Settled D (job.setPid .security 0) := by
      refine ⟨hpid.blocked, hpid.resting, hpid.respawn, hpid.running, hpid.waiting, ?_⟩
      intro q hq hd
      refine hpid.driven q ⟨hq, ?_⟩ hd
      rintro rfl
      have hs : job.state = .security := by
        have hd : job.state.driver = some .security := hd
        revert hd
        cases job.state <;> simp [JobState.driver]
      exact absurd ⟨rfl, hs⟩ (hsec hq)
    show Settling D (jobFailed sys (job.setPid .security 0) _ _ >>= _)
    unfold Settling
    rw [sat_bind]
    exact jobFailed_core.mono (fun r hr => (hkeep.same hr).changeGoal (by simp))
      fun _ _ => trivial
  | preStart => exact failAndAdvance_settled hpid
  | main => exact failAndAdvance_settled hpid
  | postStop => exact failAndAdvance_settled hpid
  | postStart => exact hpid.advance
  | preStop => exact hpid.advance

theorem jobProcessChildReader_settled {pid : Pid} {permanent : Bool} (h : Settled D job)
    (hsec : ∀ d, job.data? pid = some d → d.valid = true → permanent = true → D .security →
      ¬ (d.process = .security ∧ job.state = .security)) :
    Settling D (jobProcessChildReader x sys job pid permanent) := by
  unfold jobProcessChildReader
  split
  · trivial
  · rename_i d hd
    split
    · exact h
    · rename_i hc
      simp only [Bool.or_eq_true, Bool.not_eq_true', not_or, Bool.not_eq_false] at hc
      unfold Settling
      rw [sat_bind]
      refine (jobChildErrorHandler_settled (h.same (modifyData_core job pid _))
        (hsec d hd hc.1 hc.2)).imp fun r hr => ?_
      rw [sat_bind]
      exact JobRef.sat_get hr trivial fun j hj => hj.same (modifyData_core j pid _)

theorem jobProcessCloseHandler_settled {pid : Pid} (h : Settled D job) :
    Settling D (jobProcessCloseHandler x sys job pid) := by
  unfold jobProcessCloseHandler
  split
  · trivial
  split
  · exact h
  have hmod := h.same (modifyData_core job pid fun d => { d with valid := false, script := none })
  have hrest : ∀ r : Sys × JobRef, r.2.All (Settled D) →
      Settling D (do
        let job ← r.2.get .jobProcessCloseHandler
        if job.state.spawning? then
          jobProcessTerminated x r.1 job (‹JobProcessData›).process (‹JobProcessData›).status true
        else .ok (r.1, .live job)) := by
    intro r hr
    unfold Settling
    rw [sat_bind]
    refine JobRef.sat_get hr trivial fun j hj => ?_
    rw [if_neg (by simp [hj.resting])]
    exact hj
  dsimp only
  split
  · unfold Settling
    rw [sat_bind]
    exact hmod.advance.imp hrest
  · exact hrest (sys, .live _) hmod

/-! ### Leaving the spawned state -/

/-- The fields of the trace are not among those that the state machine reads. -/
theorem Settled.trace (h : Settled D job) (forks : Nat) (trace : TraceState) :
    Settled D { job with traceForks := forks, traceState := trace } :=
  h.same ⟨rfl, rfl, rfl, rfl, rfl, id⟩

theorem jobProcessStopped_settled {p : ProcessType} (h : Settled D job) :
    Settling D (jobProcessStopped x sys job p) := by
  unfold jobProcessStopped
  split
  · exact h
  split
  · exact h.advance
  · exact h

theorem jobProcessTraceNew_settled {p : ProcessType} (h : Settled D job) :
    Settling D (jobProcessTraceNew x sys job p) := by
  refine sat_assert (fun _ => trivial) fun _ => ?_
  split
  · exact h
  split
  · exact h
  · exact h.trace _ _

theorem jobProcessTraceNewChild_settled {p : ProcessType} (h : Settled D job) :
    Settling D (jobProcessTraceNewChild x sys job p) := by
  refine sat_assert (fun _ => trivial) fun _ => ?_
  split
  · exact h
  dsimp only
  split
  · exact (h.trace _ _).advance
  · exact jobProcessTraceNew_settled (h.trace _ _)

theorem jobProcessTraceFork_settled {p : ProcessType} (h : Settled D job) :
    Settling D (jobProcessTraceFork x sys job p) := by
  unfold jobProcessTraceFork
  split
  · exact h
  split
  · exact h
  have hchild : Settled D { job.setPid p (sys.lastPid + 1) with traceState := .newChild } :=
    (((h.setPid p (sys.lastPid + 1)).mono fun _ hq => ⟨hq, fun _ => Nat.succ_pos _⟩).trace _ _)
  dsimp only
  split
  · exact hchild
  · exact jobProcessTraceNewChild_settled hchild

theorem jobProcessTraceExec_settled {p : ProcessType} (h : Settled D job) :
    Settling D (jobProcessTraceExec x sys job p) := by
  unfold jobProcessTraceExec
  split
  · exact h
  split
  · exact (h.trace _ _).advance
  · exact h

theorem jobProcessReadyfdReader_settled {buf : String} (h : Settled D job) :
    Settling D (jobProcessReadyfdReader x sys job buf) := by
  unfold jobProcessReadyfdReader
  split
  · exact h.advance
  · exact h

/-- A settled job is settled after every event of one of its processes. -/
theorem jobProcessHandler_settled {p : ProcessType} {event : ChildEvent} (h : Settled D job) :
    Settling D (jobProcessHandler x sys job p event) := by
  cases event with
  | exited | killed | dumped => exact jobProcessTerminated_settled h
  | stopped signal =>
    simp only [jobProcessHandler]
    split
    · exact jobProcessStopped_settled h
    · exact h
  | continued => exact h
  | trapped signal =>
    simp only [jobProcessHandler]
    split
    · exact jobProcessTraceNew_settled h
    split
    · exact jobProcessTraceNewChild_settled h
    · unfold jobProcessTraceSignal
      split <;> exact h
  | ptraceFork => exact jobProcessTraceFork_settled h
  | ptraceExec => exact jobProcessTraceExec_settled h

theorem jobProcessKillTimer_settled (h : Settled D job) :
    Settling D (jobProcessKillTimer sys job) := by
  refine sat_assert (fun _ => trivial) fun _ => ?_
  split
  · trivial
  · refine sat_assert (fun _ => trivial) fun _ => ?_
    exact h.same ⟨rfl, rfl, rfl, rfl, rfl, id⟩

/-! ## Requests and events -/

theorem changeGoalFor_settled {entry : Blocked} {message : MessageId} {wait : Bool}
    {goal : JobGoal} (h : Settled D job) (hg : goal ≠ .respawn) :
    Settling D (changeGoalFor x sys job entry message wait goal) := by
  unfold changeGoalFor Settling
  rw [sat_bind]
  refine replaceBlocking_core.mono (fun r hr => ?_) fun _ _ => trivial
  rw [sat_bind]
  exact ((h.same hr).changeGoal fun heq => absurd heq hg).imp fun _ hr' => hr'

theorem restartFor_settled {entry : Blocked} {message : MessageId} {wait : Bool}
    (h : Settled D job) : Settling D (restartFor x sys job entry message wait) := by
  unfold restartFor Settling
  rw [sat_bind]
  refine replaceBlocking_core.mono (fun r hr => ?_) fun _ _ => trivial
  rw [sat_bind]
  refine ((h.same hr).changeGoal (by simp)).imp fun r' hr' => ?_
  rw [sat_bind]
  refine JobRef.sat_get hr' trivial fun j hj => ?_
  rw [sat_bind]
  exact (hj.changeGoal (by simp)).imp fun _ hr' => hr'

/-- The environment that comes with a request is not read by the state machine. -/
theorem Settled.setEnv (h : Settled D job) (startEnv stopEnv : Option (List String)) :
    Settled D { job with startEnv := startEnv, stopEnv := stopEnv } :=
  h.same ⟨rfl, rfl, rfl, rfl, rfl, id⟩

theorem jobStart_settled {message : MessageId} {wait : Bool} (h : Settled D job) :
    Settling D (jobStart x sys job message wait) := by
  unfold jobStart
  split
  · exact h
  split
  · exact h
  · exact changeGoalFor_settled (h.setEnv none job.stopEnv) (by simp)

theorem jobStop_settled {message : MessageId} {wait : Bool} (h : Settled D job) :
    Settling D (jobStop x sys job message wait) := by
  unfold jobStop
  split
  · exact h
  · exact changeGoalFor_settled (h.setEnv job.startEnv none) (by simp)

theorem jobRestart_settled {message : MessageId} {wait : Bool} (h : Settled D job) :
    Settling D (jobRestart x sys job message wait) := by
  unfold jobRestart
  split
  · exact h
  · exact restartFor_settled (h.setEnv none none)

/-- The rest of a class method after the job has been handled. -/
private theorem replyPath_settled {m : Except Fault (Sys × JobRef)} {fn : SourceFn} {wait : Bool}
    (h : Settling D m) :
    Settling D (do
      let (sys, ref) ← m
      if wait then .ok (sys, ref)
      else
        let job ← ref.get fn
        .ok (sys, .live job)) := by
  unfold Settling
  rw [sat_bind]
  refine Sat.imp h fun r hr => ?_
  dsimp only
  split
  · exact hr
  · rw [sat_bind]
    exact JobRef.sat_get hr trivial fun _ hj => hj

theorem jobClassStartInstance_settled {env : List String} {message : MessageId} {wait : Bool}
    (h : Settled D job) : Settling D (jobClassStartInstance x sys job env message wait) := by
  unfold jobClassStartInstance
  split
  · exact h
  · exact replyPath_settled (changeGoalFor_settled (h.setEnv (some env) job.stopEnv) (by simp))

theorem jobClassStopInstance_settled {env : List String} {message : MessageId} {wait : Bool}
    (h : Settled D job) : Settling D (jobClassStopInstance x sys job env message wait) := by
  unfold jobClassStopInstance
  split
  · exact h
  · exact changeGoalFor_settled (h.setEnv job.startEnv (some env)) (by simp)

theorem jobClassRestartInstance_settled {env : List String} {message : MessageId} {wait : Bool}
    (h : Settled D job) : Settling D (jobClassRestartInstance x sys job env message wait) := by
  unfold jobClassRestartInstance
  split
  · exact h
  · exact replyPath_settled (restartFor_settled (h.setEnv (some env) none))

theorem stopForEvents_settled {root : EventOperator} (h : Settled D job) :
    Settling D (stopForEvents x sys job root) := by
  unfold stopForEvents Settling
  rw [sat_bind]
  refine takeStopEnv_core.mono (fun r hr => ?_) fun _ _ => trivial
  rw [sat_bind]
  refine blockOnEvents_core.mono (fun r' hr' => ?_) fun _ _ => trivial
  dsimp only
  rw [changeGoalIfOther_eq, sat_bind]
  refine ((h.same (hr.trans hr')).changeGoal (by simp)).imp fun r'' hr'' => ?_
  rw [sat_bind]
  refine JobRef.sat_get hr'' trivial fun j hj => ?_
  rw [sat_bind, sat_iff]
  exact ⟨fun _ _ => hj.same ⟨rfl, rfl, rfl, rfl, rfl, id⟩, fun _ _ => trivial⟩

theorem handleStopOn_settled {event : Event} (h : Settled D job) :
    Settling D (handleStopOn x sys job event) := by
  unfold handleStopOn Settling
  split
  · exact h
  · rw [sat_bind, sat_iff]
    refine ⟨fun r _ => ?_, fun _ _ => trivial⟩
    have hroot : Settled D { job with stopOn := some r.2.1 } := h.same ⟨rfl, rfl, rfl, rfl, rfl, id⟩
    dsimp only
    split
    · exact stopForEvents_settled hroot
    · exact hroot

theorem inductInstance_settled {root : EventOperator} {env : List String} (h : Settled D job) :
    Settling D (inductInstance x sys job root env) := by
  unfold inductInstance Settling
  rw [sat_bind]
  refine takeStartEnv_core.mono (fun r hr => ?_) fun _ _ => trivial
  rw [sat_bind]
  refine blockOnEvents_core.mono (fun r' hr' => ?_) fun _ _ => trivial
  dsimp only
  rw [changeGoalIfOther_eq]
  exact (h.same (hr.trans hr')).changeGoal (by simp)

/-- The end of the event that a job waits for. -/
theorem blockerFinished_settled (h : Settled D job) :
    Settling D (blockerFinished x sys job) := by
  have hrest : ({ job with blocker := none } : Job).state.spawning? = false := h.resting
  refine Settling.mono (D := fun _ => True) ?_ fun _ _ => trivial
  exact jobAdvance_settled (D := D) hrest (by simp)

end Startup
