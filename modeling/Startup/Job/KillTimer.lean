import Startup.Job.Assertions
import Startup.Job.Keeping

/-!
# The kill timer

`job_process_kill` sends the kill signal to the main process of a job in
`JOB_KILLED` and arms the kill timer, which sends SIGKILL.

* `Calm`: a job outside `JOB_KILLED` has no kill timer.
* `jobStep_guarded`: nothing but the end of the event that a stopping job waits
  for, the timer itself and a set-up error has to do with the timer.
* `killTimer_safe`: in every run in which each signal is sent, each timeout is a
  time, and no set-up error comes while the timer is pending, the timer is that of
  the process that was sent the signal, and no job is left in `JOB_KILLED` without
  it.
-/

namespace Startup

open Lib

variable {x : Host} {sys : Sys} {job : Job}

/-! ## Faults -/

/-- The assertions of `job_process_kill`, `job_process_set_kill_timer` and
`job_process_kill_timer`. -/
def Fault.ofKill : Fault → Bool
  | .assertFailed .jobProcessKill => true
  | .assertFailed .jobProcessKillTimer => true
  | _ => false

theorem Fault.ofKill_of_ofQueue {f : Fault} (h : f.ofQueue = true) : f.ofKill = false := by
  unfold Fault.ofQueue at h
  unfold Fault.ofKill
  split <;> simp at h ⊢

theorem jobNextState_ofKill :
    Sat (jobNextState job) (fun _ => True) (fun f => f.ofKill = false) := by
  unfold jobNextState
  cases job.state <;> cases job.goal <;> try trivial
  case running.stop =>
    dsimp only
    split <;> trivial

theorem jobEmitEvent_ofKill :
    Sat (jobEmitEvent x sys job) (fun _ => True) (fun f => f.ofKill = false) := by
  unfold jobEmitEvent
  cases job.state <;> trivial

theorem jobFinished_ofKill {failed : Bool} :
    Sat (jobFinished sys job failed) (fun _ => True) (fun f => f.ofKill = false) :=
  jobFinished_ofQueue.mono (fun _ h => h) fun _ => Fault.ofKill_of_ofQueue

theorem spawnAndNext_ofKill {p : ProcessType} {cond : Bool} :
    Sat (spawnAndNext sys job p cond) (fun _ => True) (fun f => f.ofKill = false) := by
  have hnext : ∀ (sys : Sys) (job : Job),
      Sat (jobNextState job >>= fun r => .ok (Pass.next sys r.1 r.2)) (fun _ => True)
        (fun f => f.ofKill = false) := by
    intro sys job
    rw [sat_bind]
    exact jobNextState_ofKill.imp fun _ _ => trivial
  unfold spawnAndNext
  dsimp only
  split
  · unfold jobProcessStart
    split
    · rfl
    · exact hnext _ _
  · exact hnext _ _

theorem nextUnless_ofKill {cond : Bool} :
    Sat (nextUnless sys job cond) (fun _ => True) (fun f => f.ofKill = false) := by
  unfold nextUnless
  split
  · trivial
  · rw [sat_bind]
    exact jobNextState_ofKill.imp fun _ _ => trivial

/-- Entering another state than `JOB_KILLED` kills nothing. -/
theorem jobEnterState_ofKill {old : JobState} (h : job.state ≠ .killed) :
    Sat (jobEnterState x sys old job) (fun _ => True) (fun f => f.ofKill = false) := by
  have hemit : ∀ (k : Sys × EventId → Except Fault Pass) (job : Job),
      (∀ r, Sat (k r) (fun _ => True) (fun f => f.ofKill = false)) →
      Sat (jobEmitEvent x sys job >>= k) (fun _ => True) (fun f => f.ofKill = false) := by
    intro k job hk
    rw [sat_bind]
    exact jobEmitEvent_ofKill.imp fun r _ => hk r
  have hfinish : ∀ (k : Sys × Job → Except Fault Pass) (sys : Sys) (job : Job) (failed : Bool),
      (∀ r, Sat (k r) (fun _ => True) (fun f => f.ofKill = false)) →
      Sat (jobFinished sys job failed >>= k) (fun _ => True) (fun f => f.ofKill = false) := by
    intro k sys job failed hk
    rw [sat_bind]
    exact jobFinished_ofKill.imp fun r _ => hk r
  unfold jobEnterState
  split
  case h_14 hs => exact absurd hs h
  case h_1 =>
    refine sat_assert (fun _ => rfl) fun _ => sat_assert (fun _ => rfl) fun _ => ?_
    exact hemit _ _ fun _ => trivial
  case h_10 =>
    refine sat_assert (fun _ => rfl) fun _ => sat_assert (fun _ => rfl) fun _ => ?_
    split
    · exact hfinish _ _ _ _ fun _ => trivial
    · refine hemit _ _ fun r => ?_
      dsimp only
      split
      · exact hfinish _ _ _ _ fun _ => trivial
      · trivial
  case h_13 =>
    refine sat_assert (fun _ => rfl) fun _ => ?_
    exact hemit _ _ fun _ => trivial
  case h_17 =>
    refine sat_assert (fun _ => rfl) fun _ => sat_assert (fun _ => rfl) fun _ => ?_
    exact hemit _ _ fun _ => hfinish _ _ _ _ fun _ => trivial
  case h_2 | h_4 | h_6 | h_8 | h_11 =>
    exact sat_assert (fun _ => rfl) fun _ => sat_assert (fun _ => rfl) fun _ => spawnAndNext_ofKill
  case h_3 | h_5 | h_7 | h_9 | h_12 =>
    exact sat_assert (fun _ => rfl) fun _ => sat_assert (fun _ => rfl) fun _ => nextUnless_ofKill
  case h_15 => exact sat_assert (fun _ => rfl) fun _ => spawnAndNext_ofKill
  case h_16 => exact sat_assert (fun _ => rfl) fun _ => nextUnless_ofKill

/-- Only a stopping job goes on to `JOB_KILLED`. -/
theorem Enters.unkilled {old : JobState} {pass : Pass} (h : Enters x sys old job pass)
    (hs : job.state ≠ .killed) :
    pass.Holds (fun _ _ state => state ≠ .killed) (fun _ _ => True) := by
  cases h with
  | spawn p | noSpawn p =>
    show p.waitState ≠ .killed
    cases p <;> simp [ProcessType.waitState]
  | skip p =>
    show p.afterState job.goal ≠ .killed
    cases p <;> cases job.goal <;> simp [ProcessType.afterState]
  | kill state | dead state => exact absurd state hs
  | waiting => trivial
  | _ => exact hs

/-- A job that heads for another state than `JOB_KILLED` kills nothing. -/
theorem jobChangeState_ofKill {state : JobState} (h : state ≠ .killed) :
    Sat (jobChangeState x sys job state) (fun _ => True) (fun f => f.ofKill = false) := by
  refine (jobChangeState_passes (I := fun _ _ state => state ≠ .killed) (F := fun _ _ => True)
    (fun sys job state hs _ _ => ?_) h).imp fun _ _ => trivial
  refine ((jobEnterState_ofKill hs).and (jobEnterState_enters x sys job.state _)).mono
    (fun pass hpass => ?_) fun _ hf => hf.1
  exact hpass.2.unkilled hs

/-- A job that does not go on from `JOB_STOPPING` kills nothing. -/
theorem jobAdvance_ofKill (hrest : job.state.spawning? = false)
    (hs : job.state = .stopping → job.blocker.isSome = true) :
    Sat (jobAdvance x sys job) (fun _ => True) (fun f => f.ofKill = false) := by
  refine jobAdvance_rule hrest (fun _ => rfl) (fun _ => trivial) fun state hb hf => ?_
  apply jobChangeState_ofKill
  intro hk
  subst hk
  have hstop : job.state = .stopping := by
    have hedge := hf.edge
    simpa [edge] using hedge
  simp [hb] at hs
  exact hs hstop

/-! ## Jobs without a kill timer -/

/-- A job outside `JOB_KILLED`, between two calls. -/
structure Calm (job : Job) : Prop where
  resting : job.state.spawning? = false
  blocked : job.blocker.isSome = true ↔ job.state = .starting ∨ job.state = .stopping
  unkilled : job.state ≠ .killed
  unarmed : job.killTimer = none ∧ job.killProcess = none

/-- A job that may move on, and not to `JOB_KILLED`. -/
structure Leaving (job : Job) : Prop where
  resting : job.state.spawning? = false
  blocked : job.blocker.isSome = true → job.state = .starting ∨ job.state = .stopping
  unstopped : job.state = .stopping → job.blocker.isSome = true
  unarmed : job.killTimer = none ∧ job.killProcess = none

theorem Calm.leaving (h : Calm job) : Leaving job :=
  ⟨h.resting, h.blocked.mp, fun hs => h.blocked.mpr (.inr hs), h.unarmed⟩

/-- The loop on its way has no kill timer, and leaves a calm job where it ends. -/
theorem Enters.calm {old : JobState} {pass : Pass} (h : Enters x sys old job pass)
    (hb : job.blocker = none) (hs : job.state ≠ .killed)
    (hun : job.killTimer = none ∧ job.killProcess = none) :
    pass.Holds (fun _ job state => (job.killTimer = none ∧ job.killProcess = none) ∧
      (job.state = state ∨ job.blocker.isSome = true → Calm job)) (fun _ _ => True) := by
  have hstay : ∀ job' : Job, job'.blocker = none → job'.state = job.state →
      job'.killTimer = none ∧ job'.killProcess = none → job.state.spawning? = false →
      ¬ (job.state = .starting ∨ job.state = .stopping) → Calm job' := by
    intro job' hb' hs' hun' hrest hne
    refine ⟨by rw [hs', hrest], ?_, by rwa [hs'], hun'⟩
    rw [hb', hs']
    simpa using hne
  cases h with
  | spawn p proc st | noSpawn p st =>
    refine ⟨hun, fun hor => ?_⟩
    have hor : job.state = p.waitState ∨ job.blocker.isSome = true := hor
    rw [hb, st] at hor
    cases p <;> simp [ProcessType.spawnState, ProcessType.waitState] at hor
  | wait p st =>
    refine ⟨hun, fun _ => hstay job hb rfl hun ?_ ?_⟩ <;> rw [st] <;>
      cases p <;> simp [ProcessType.waitState, JobState.spawning?]
  | skip p st =>
    refine ⟨hun, fun hor => ?_⟩
    rw [hb, st] at hor
    cases p <;> cases hg : job.goal <;>
      simp [ProcessType.afterState, ProcessType.waitState, hg] at hor
  | starting st | stopping st =>
    have st : job.state = _ := st
    refine ⟨hun, fun _ => ⟨?_, ?_, hs, hun⟩⟩
    · show job.state.spawning? = false
      rw [st]
      rfl
    · show true = true ↔ job.state = .starting ∨ job.state = .stopping
      simp [st]
  | resumed st | running st | runningTask st =>
    refine ⟨hun, fun _ => hstay _ hb rfl hun ?_ ?_⟩ <;> rw [st] <;> simp [JobState.spawning?]
  | kill st | dead st => exact absurd st hs
  | waiting => trivial

/-- At the head of the loop, with `state` as the state that it heads for: the job has
no kill timer, and is calm where the loop ends. -/
def Calming (job : Job) (state : JobState) : Prop :=
  state ≠ .killed ∧ (job.killTimer = none ∧ job.killProcess = none) ∧
    (job.state = state ∨ job.blocker.isSome = true → Calm job)

theorem jobEnterState_calming {old state : JobState} (h : Calming job state)
    (hb : job.blocker = none) :
    Sat (jobEnterState x sys old { job with state := state })
      (Pass.Holds (fun _ => Calming) fun _ _ => True) (fun f => f.ofKill = false) := by
  refine ((jobEnterState_ofKill h.1).and (jobEnterState_enters x sys old _)).mono
    (fun pass hpass => ?_) fun _ hf => hf.1
  have hk := hpass.2.unkilled h.1
  have hc := hpass.2.calm hb h.1 h.2.1
  cases pass with
  | next => exact ⟨hk, hc⟩
  | freed => trivial

/-- A job that moves on is calm where it comes to rest. -/
theorem jobChangeState_calm {state : JobState} (h : Calming job state) :
    Sat (jobChangeState x sys job state) (fun r => r.2.All Calm) (fun f => f.ofKill = false) := by
  refine (jobChangeState_passes (I := fun _ => Calming) (F := fun _ _ => True)
    (fun sys job state h _ hb => jobEnterState_calming h hb) h).imp fun r hr => ?_
  obtain ⟨sys, job | job⟩ := r
  · obtain ⟨state, ⟨-, -, hend⟩, hor⟩ := hr
    exact hend hor
  · trivial

theorem jobAdvance_calm (h : Leaving job) :
    Sat (jobAdvance x sys job) (fun r => r.2.All Calm) (fun f => f.ofKill = false) := by
  refine jobAdvance_rule h.resting (fun _ => rfl) ?_ ?_
  · intro hb
    have hstate := h.blocked hb
    refine ⟨h.resting, ⟨h.blocked, fun _ => hb⟩, fun hs => ?_, h.unarmed⟩
    have hs : job.state = .killed := hs
    simp [hs] at hstate
  · intro state hb hf
    refine jobChangeState_calm ⟨?_, h.unarmed, ?_⟩
    · intro hk
      subst hk
      have hstop : job.state = .stopping := by
        have hedge := hf.edge
        simpa [edge] using hedge
      have := h.unstopped hstop
      simp [hb] at this
    · intro hor
      have hor : job.state = state ∨ job.blocker.isSome = true := hor
      rcases hor with hs | hblock
      · exact absurd hs.symm hf.ne
      · simp [hb] at hblock

theorem jobChangeGoal_calm {goal : JobGoal} (h : Calm job) :
    Sat (jobChangeGoal x sys job goal) (fun r => r.2.All Calm) (fun f => f.ofKill = false) := by
  rw [jobChangeGoal_eq]
  split
  · exact jobAdvance_calm ⟨h.resting, h.blocked.mp, h.leaving.unstopped, h.unarmed⟩
  · exact ⟨h.resting, h.blocked, h.unkilled, h.unarmed⟩

/-! ## What leaves the kill timer alone -/

/-- What the kill timer of a job is about. -/
def Job.killing (job : Job) : JobClass × Pid × Option Int × Option ProcessType :=
  (job.cls, job.pid .main, job.killTimer, job.killProcess)

variable {k : Option (JobClass × Pid × Option Int × Option ProcessType)}

/-- The job is calm, or in `JOB_KILLED` with this kill timer, if one is given. -/
def Guarded (k : Option (JobClass × Pid × Option Int × Option ProcessType)) (job : Job) : Prop :=
  Calm job ∨ job.state = .killed ∧ job.blocker = none ∧ k = some job.killing

/-- Every job that the call leaves is guarded, and the call fails in no assertion of
the kill timer. -/
def Guards (k : Option (JobClass × Pid × Option Int × Option ProcessType))
    (m : Except Fault (Sys × JobRef)) : Prop :=
  Sat m (fun r => r.2.All (Guarded k)) (fun f => f.ofKill = false)

theorem Guarded.resting (h : Guarded k job) : job.state.spawning? = false := by
  rcases h with h | ⟨h, -⟩
  · exact h.resting
  · rw [h]
    rfl

theorem Guards.of_calm {m : Except Fault (Sys × JobRef)}
    (h : Sat m (fun r => r.2.All Calm) (fun f => f.ofKill = false)) : Guards k m := by
  refine Sat.imp h fun r hr => ?_
  obtain ⟨sys, job | job⟩ := r
  · exact .inl hr
  · trivial

theorem guarded_kept : Kept (JobRef.All (Guarded k)) (fun f => f.ofKill = false) where
  given _ _ _ _ _ h := Or.imp (fun h => ⟨h.resting, h.blocked, h.unkilled, h.unarmed⟩) id h
  changeGoal := by
    intro x sys job goal h
    rcases h with h | ⟨hs, h⟩
    · exact Guards.of_calm (jobChangeGoal_calm h)
    · rw [jobChangeGoal_eq, if_neg fun hm => by simp [hs, Moves] at hm]
      exact .inr ⟨hs, h⟩
  ofQueue := Fault.ofKill_of_ofQueue
  freed _ := rfl

theorem jobFailed_ofKill {p : Option ProcessType} {status : Int} :
    Sat (jobFailed sys job p status) (fun _ => True) (fun f => f.ofKill = false) := by
  unfold jobFailed
  split
  · trivial
  · exact jobFinished_ofKill

theorem jobFailed_then {p : Option ProcessType} {status : Int} {α : Type}
    {m : Sys × Job → Except Fault α} {Q : α → Prop}
    (hm : ∀ sys' job', Fails sys job p status sys' job' →
      Sat (m (sys', job')) Q (fun f => f.ofKill = false)) :
    Sat (jobFailed sys job p status >>= m) Q (fun f => f.ofKill = false) := by
  rw [sat_bind]
  exact (jobFailed_sat.and jobFailed_ofKill).mono (fun r hr => hm r.1 r.2 hr.1) fun _ hf => hf.2

theorem Fails.calm {p : Option ProcessType} {status : Int} {sys' : Sys} {job' : Job}
    (h : Fails sys job p status sys' job') (hc : Calm job) : Calm job' := by
  cases h with
  | already => exact hc
  | now => exact ⟨hc.resting, hc.blocked, hc.unkilled, hc.unarmed⟩

theorem Fails.guarded {p : Option ProcessType} {status : Int} {sys' : Sys} {job' : Job}
    (h : Fails sys job p status sys' job') (hg : Guarded k job) : Guarded k job' := by
  rcases hg with hc | hk
  · exact .inl (h.calm hc)
  · cases h with
    | already => exact .inr hk
    | now => exact .inr hk

/-! ### The end of a process -/

theorem Calm.setPid (h : Calm job) (p : ProcessType) (pid : Pid) : Calm (job.setPid p pid) :=
  ⟨h.resting, h.blocked, h.unkilled, h.unarmed⟩

theorem Calm.cancelKill (h : Calm job) : Calm job.cancelKill := by
  unfold Job.cancelKill
  split
  · exact ⟨h.resting, h.blocked, h.unkilled, rfl, rfl⟩
  · exact h

theorem Calm.of_ref {fn : SourceFn} {ref : JobRef} {m : Job → Except Fault (Sys × JobRef)}
    (h : ref.All Calm)
    (hm : ∀ job, Calm job → Sat (m job) (fun r => r.2.All Calm) (fun f => f.ofKill = false)) :
    Sat (ref.get fn >>= m) (fun r => r.2.All Calm) (fun f => f.ofKill = false) := by
  cases ref with
  | live job => exact hm job h
  | freed job => rfl

theorem afterTerminated_calm {p : ProcessType} {status : Int} {v : Verdict} (h : Calm job) :
    Sat (afterTerminated x sys job p status false v) (fun r => r.2.All Calm)
      (fun f => f.ofKill = false) := by
  have hclear : Calm (job.cancelKill.setPid p 0) := h.cancelKill.setPid p 0
  have hend : ∀ (b : Bool) (sys : Sys) (j : Job), Calm j → Sat
      (if b then .ok (sys, .live j) else if v.state then jobAdvance x sys j
        else .ok (sys, .live j)) (fun r => r.2.All Calm) (fun f => f.ofKill = false) := by
    intro b sys j hj
    split
    · exact hj
    · split
      · exact jobAdvance_calm hj.leaving
      · exact hj
  have hrest : ∀ (sys : Sys) (j : Job), Calm j → Sat (stopOrAdvance x sys j v.stop v.state)
      (fun r => r.2.All Calm) (fun f => f.ofKill = false) := by
    intro sys j hj
    unfold stopOrAdvance
    cases v.stop with
    | false => exact hend false _ _ hj
    | true =>
      rw [if_pos rfl, sat_bind]
      refine (jobChangeGoal_calm hj).imp fun r hr => ?_
      refine Calm.of_ref hr fun j hj => ?_
      simpa using hend (decide (j.state = .running)) _ j hj
  rw [afterTerminated_eq]
  simp only [Bool.false_eq_true, if_false, Bool.not_false, Bool.and_true, Bool.false_and, nihAssert,
    check_true]
  cases v.failed with
  | false => exact hrest _ _ hclear
  | true => exact jobFailed_then fun sys j hj => hrest _ _ (hj.calm hclear)

theorem processTerminated_ofKill {p : ProcessType} {status : Int} :
    Sat (processTerminated x sys job p status) (fun _ => True) (fun f => f.ofKill = false) := by
  cases p with
  | main =>
    refine sat_assert (fun _ => rfl) fun _ => ?_
    dsimp only
    split
    · trivial
    split
    · trivial
    split
    · trivial
    split
    · trivial
    split
    · rw [sat_bind]
      exact jobFailed_ofKill.imp fun _ _ => trivial
    have hend : ∀ (sys : Sys) (j : Job) (v v' : Verdict), Sat (
        if j.state = .spawned then
          jobChangeState x sys j .stopping >>= fun r => .ok (r.1, r.2, v)
        else .ok (sys, .live j, v')) (fun _ => True) (fun f => f.ofKill = false) := by
      intro sys j v v'
      split
      · rw [sat_bind]
        exact (jobChangeState_ofKill (by simp)).imp fun _ _ => trivial
      · trivial
    have hstay : ¬ Moves (jobProcessCatchRunaway x job).1 .respawn := by simp [Moves]
    rw [jobChangeGoal_eq, if_neg hstay]
    split
    · exact hend _ _ _ _
    · exact hend _ _ _ _
  | postStart | preStop | security | preStart | postStop =>
    exact sat_assert (fun _ => rfl) fun _ => trivial

/-- The `switch` of `job_process_terminated` leaves a calm job calm. -/
theorem Terminates.calm {p : ProcessType} {status : Int} {sys' : Sys} {ref : JobRef} {v : Verdict}
    (h : Terminates x sys job status p sys' ref v) (hc : Calm job) : ref.All Calm := by
  have hcatch : Calm (jobProcessCatchRunaway x job).1 := by
    unfold jobProcessCatchRunaway
    split
    · split <;> exact ⟨hc.resting, hc.blocked, hc.unkilled, hc.unarmed⟩
    · exact hc
  cases h with
  | runaway state goal fail => exact fail.calm hcatch
  | respawnLater => exact ⟨hcatch.resting, hcatch.blocked, hcatch.unkilled, hcatch.unarmed⟩
  | respawnSpawned hs goal change =>
    have hb : job.blocker = none := by
      have := hc.blocked
      simpa [hs] using this
    obtain ⟨e, rfl⟩ := Terminates.respawnSpawned_eq hs hb change
    exact ⟨rfl, by simp, by simp, hcatch.unarmed⟩
  | respawn => exact hcatch
  | _ => exact hc

/-- In `JOB_KILLED` only the main process is expected to end. -/
theorem Terminates.of_killed {p : ProcessType} {status : Int} {sys' : Sys} {ref : JobRef}
    {v : Verdict} (h : Terminates x sys job status p sys' ref v) (hs : job.state = .killed) :
    p = .main ∧ sys' = sys ∧ ref = .live job ∧ v = ⟨false, false, true⟩ := by
  cases h with
  | killed => exact ⟨rfl, rfl, rfl, rfl⟩
  | process p failed ne mayEnd =>
    rw [hs] at mayEnd
    cases p <;> simp_all [MayEnd]
  | respawnLater waits => simp [Job.waits, hs] at waits
  | stopping st | goal st | stop _ st | runaway st | respawnSpawned st | respawn st =>
    simp [hs] at st

/-- The end of a process takes a killed job out of `JOB_KILLED`, and its timer
away. -/
theorem jobProcessTerminated_calm {p : ProcessType} {status : Int} (h : Guarded k job)
    (hpair : job.killTimer = none → job.killProcess = none) :
    Sat (jobProcessTerminated x sys job p status false) (fun r => r.2.All Calm)
      (fun f => f.ofKill = false) := by
  unfold jobProcessTerminated
  rw [if_neg (by simp [h.resting]), sat_bind]
  refine ((processTerminated_sat x sys job p status).and processTerminated_ofKill).mono
    (fun r hr => ?_) fun _ hf => hf.2
  obtain ⟨sys', ref, v⟩ := r
  have hterm : Terminates x sys job status p sys' ref v := hr.1
  rcases h with hc | ⟨hs, hb, -⟩
  · exact Calm.of_ref (hterm.calm hc) fun j hj => afterTerminated_calm hj
  · obtain ⟨rfl, rfl, rfl, rfl⟩ := hterm.of_killed hs
    show Sat (jobAdvance x sys' (job.cancelKill.setPid .main 0)) _ _
    have hcancel : job.cancelKill.state = .killed ∧ job.cancelKill.blocker = none ∧
        job.cancelKill.killTimer = none ∧ job.cancelKill.killProcess = none := by
      unfold Job.cancelKill
      cases ht : job.killTimer with
      | some due => exact ⟨hs, hb, rfl, rfl⟩
      | none => exact ⟨hs, hb, ht, hpair ht⟩
    obtain ⟨hs', hb', hun⟩ := hcancel
    have hs' : (job.cancelKill.setPid .main 0).state = .killed := hs'
    have hb' : (job.cancelKill.setPid .main 0).blocker = none := hb'
    exact jobAdvance_calm ⟨by rw [hs']; rfl, by simp [hb'], by simp [hs'], hun⟩

/-! ### Set-up errors -/

theorem Guarded.calm (h : Guarded k job) (hs : job.state ≠ .killed) : Calm job :=
  h.resolve_right fun hk => hs hk.1

/-- A guarded job without a kill timer moves on, and so does one at its end. -/
theorem Guarded.advance (h : Guarded k job) (hn : (job.killTimer = none ∧ job.killProcess = none) ∨
    (job.AtEnd ∧ job.goal = .stop)) :
    Sat (jobAdvance x sys job) (fun r => r.2.All Calm) (fun f => f.ofKill = false) := by
  rcases h with hc | ⟨hs, hb, -⟩
  · exact jobAdvance_calm hc.leaving
  · have hrest : job.state.spawning? = false := by
      rw [hs]
      rfl
    rcases hn with hun | ⟨hend, hg⟩
    · exact jobAdvance_calm ⟨hrest, by simp [hb], by simp [hs], hun⟩
    · refine ((jobAdvance_end hend hg hb).and (jobAdvance_ofKill hrest (by simp [hs]))).mono
        (fun r hr => ?_) fun _ hf => hf.2
      obtain ⟨sys', job' | job'⟩ := r
      · exact hr.1.elim
      · trivial

/-- A set-up error of this process takes no kill timer along: it does not move the
job on, there is no timer, or the job is freed. -/
def Job.errorHarmless (job : Job) (p : ProcessType) : Prop :=
  p = .security ∨ (job.killTimer = none ∧ job.killProcess = none) ∨
    (job.AtEnd ∧ job.goalAfterError p = .stop)

theorem failAndAdvance_calm {p : ProcessType} (h : Guarded k job)
    (hn : (job.killTimer = none ∧ job.killProcess = none) ∨ job.AtEnd) :
    Sat (failAndAdvance x sys job p) (fun r => r.2.All Calm) (fun f => f.ofKill = false) := by
  refine jobFailed_then fun sys₁ j hfails => ?_
  have hj := hfails.guarded h
  have hn' : (j.killTimer = none ∧ j.killProcess = none) ∨ j.AtEnd := by
    cases hfails with
    | already => exact hn
    | now => exact hn
  dsimp only
  rw [jobChangeGoal_eq, sat_bind]
  split
  · rename_i hm
    have hs : j.state ≠ .killed := by
      intro hs
      simp [Moves, hs] at hm
    have hc := hj.calm hs
    have hleaving : Leaving (j.setGoal .stop) :=
      ⟨hc.resting, hc.blocked.mp, hc.leaving.unstopped, hc.unarmed⟩
    refine (jobAdvance_calm hleaving).imp fun r hr => ?_
    obtain ⟨sys₂, j₂ | j₂⟩ := r
    · exact jobAdvance_calm hr.leaving
    · rfl
  · have hstop : Guarded k (j.setGoal .stop) :=
      hj.imp (fun hc => ⟨hc.resting, hc.blocked, hc.unkilled, hc.unarmed⟩) id
    exact hstop.advance (hn'.imp id fun hend => ⟨hend, rfl⟩)

theorem Guarded.setPid (h : Guarded k job) (p : ProcessType) (pid : Pid) :
    Guarded (some (job.setPid p pid).killing) (job.setPid p pid) :=
  h.imp (fun hc => hc.setPid p pid) fun hk => ⟨hk.1, hk.2.1, rfl⟩

theorem jobChildErrorHandler_guards {p : ProcessType} (h : Guarded k job)
    (hn : job.errorHarmless p) : Guards k (jobChildErrorHandler x sys job p) := by
  have hfail : p ≠ .security →
      Guards k (failAndAdvance x sys (job.setPid p 0) p) := fun hp =>
    Guards.of_calm (failAndAdvance_calm (h.setPid p 0)
      ((hn.resolve_left hp).imp id And.left))
  have hadvance : p = .postStart ∨ p = .preStop →
      Guards k (jobAdvance x sys (job.setPid p 0)) := by
    intro hp
    refine Guards.of_calm ((h.setPid p 0).advance ?_)
    have hgoal : job.goalAfterError p = job.goal := by simp [Job.goalAfterError, hp]
    rcases hn with rfl | hn
    · simp at hp
    · rw [hgoal] at hn
      exact hn
  cases p with
  | security =>
    refine jobFailed_then fun sys₁ j hfails => ?_
    have hclear : Guarded k (job.setPid .security 0) := h.imp (fun hc => hc.setPid _ 0) id
    exact guarded_kept.changeGoal (hfails.guarded hclear)
  | preStart | main | postStop => exact hfail (by simp)
  | postStart | preStop => exact hadvance (by simp)

theorem Guarded.modifyData (h : Guarded k job) (pid : Pid)
    (f : JobProcessData → JobProcessData) : Guarded k (job.modifyData pid f) :=
  h.imp (fun hc => ⟨hc.resting, hc.blocked, hc.unkilled, hc.unarmed⟩) id

theorem jobProcessChildReader_guards {pid : Pid} {permanent : Bool} (h : Guarded k job)
    (hn : ∀ d, permanent = true → job.data? pid = some d → d.valid = true →
      job.errorHarmless d.process) :
    Guards k (jobProcessChildReader x sys job pid permanent) := by
  unfold jobProcessChildReader
  split
  · rfl
  rename_i d hd
  split
  · exact h
  rename_i hvalid
  simp only [Bool.or_eq_true, Bool.not_eq_true', not_or, Bool.not_eq_false] at hvalid
  have hharmless : (job.modifyData pid fun d => { d with script := none }).errorHarmless
      d.process := hn d hvalid.2 hd hvalid.1
  rw [Guards, sat_bind]
  refine (jobChildErrorHandler_guards (h.modifyData pid _) hharmless).imp fun r hr => ?_
  exact guarded_kept.get hr fun j hj => hj.modifyData pid _

theorem jobProcessCloseHandler_guards {pid : Pid} (h : Guarded k job) :
    Guards k (jobProcessCloseHandler x sys job pid) := by
  unfold jobProcessCloseHandler
  split
  · rfl
  rename_i data _
  split
  · exact h
  have hend : ∀ (sys : Sys) (j : Job), Guarded k j → Guards k
      (if j.state.spawning? then jobProcessTerminated x sys j data.process data.status true
        else .ok (sys, .live j)) := by
    intro sys j hj
    rw [if_neg (by simp [hj.resting])]
    exact hj
  have hmod := h.modifyData pid fun d => { d with valid := false, script := none }
  dsimp only
  split
  · rename_i hs
    have hc := hmod.calm (by
      intro hk
      simp [hk] at hs)
    rw [Guards, sat_bind]
    refine (jobAdvance_calm hc.leaving).imp fun r hr => ?_
    obtain ⟨sys₁, j | j⟩ := r
    · exact hend sys₁ j (.inl hr)
    · rfl
  · exact hend sys _ hmod

/-! ### Leaving the spawned state -/

/-- A job whose main process is starting is not in `JOB_KILLED`. -/
theorem Guarded.calm_of_mainStarting {p : ProcessType} (h : Guarded k job)
    (hm : job.mainStarting p = true) : Calm job := by
  apply h.calm
  intro hs
  simp [Job.mainStarting, hs] at hm

theorem Calm.trace (h : Calm job) (forks : Nat) (trace : TraceState) :
    Calm { job with traceForks := forks, traceState := trace } :=
  ⟨h.resting, h.blocked, h.unkilled, h.unarmed⟩

theorem jobProcessTraceNew_guards {p : ProcessType} (h : Guarded k job) :
    Guards k (jobProcessTraceNew x sys job p) := by
  refine sat_assert (fun _ => rfl) fun _ => ?_
  split
  · exact h
  split
  · exact h
  · exact h.imp (fun hc => hc.trace _ _) id

theorem jobProcessTraceNewChild_guards {p : ProcessType} (h : Guarded k job) :
    Guards k (jobProcessTraceNewChild x sys job p) := by
  refine sat_assert (fun _ => rfl) fun _ => ?_
  split
  · exact h
  rename_i hm
  have hc := h.calm_of_mainStarting (by simpa using hm)
  dsimp only
  split
  · exact Guards.of_calm (jobAdvance_calm (hc.trace _ _).leaving)
  · exact jobProcessTraceNew_guards (.inl (hc.trace _ _))

theorem jobProcessHandler_guards {p : ProcessType} {event : ChildEvent} (h : Guarded k job)
    (hpair : job.killTimer = none → job.killProcess = none) :
    Guards k (jobProcessHandler x sys job p event) := by
  have hstarting : ∀ {b : Bool}, ¬ (!job.mainStarting p || b) = true → Calm job := by
    intro b hm
    apply h.calm_of_mainStarting
    cases hs : job.mainStarting p with
    | true => rfl
    | false => simp [hs] at hm
  cases event with
  | exited | killed | dumped => exact Guards.of_calm (jobProcessTerminated_calm h hpair)
  | continued => exact h
  | stopped signal =>
    dsimp only [jobProcessHandler, jobProcessStopped]
    split
    · split
      · exact h
      rename_i hm
      split
      · exact Guards.of_calm (jobAdvance_calm
          (h.calm_of_mainStarting (by simpa using hm)).leaving)
      · exact h
    · exact h
  | trapped signal =>
    dsimp only [jobProcessHandler, jobProcessTraceSignal]
    split
    · exact jobProcessTraceNew_guards h
    split
    · exact jobProcessTraceNewChild_guards h
    · split <;> exact h
  | ptraceFork =>
    dsimp only [jobProcessHandler, jobProcessTraceFork]
    split
    · exact h
    rename_i hm
    have hchild := ((hstarting hm).setPid p (sys.lastPid + 1)).trace job.traceForks .newChild
    split
    · exact h
    split
    · exact .inl hchild
    · exact jobProcessTraceNewChild_guards (.inl hchild)
  | ptraceExec =>
    dsimp only [jobProcessHandler, jobProcessTraceExec]
    split
    · exact h
    rename_i hm
    split
    · exact Guards.of_calm (jobAdvance_calm ((hstarting hm).trace _ _).leaving)
    · exact h

/-! ### Every input -/

/-- The input has a set-up error move the job on and leave the kill timer of a job
that is not freed. -/
def lateError (job : Job) : Input → Prop
  | .childError pid permanent => permanent = true ∧
      ∃ d, job.data? pid = some d ∧ d.valid = true ∧ ¬ job.errorHarmless d.process
  | _ => False

/-- Nothing but the timer, a set-up error and the end of the event that a stopping
job waits for has to do with the kill timer. -/
theorem jobStep_guarded {i : Input} (h : Guarded k job) (hi : Enabled sys job i)
    (hpair : job.killTimer = none → job.killProcess = none) (ht : i ≠ .killTimer)
    (hb : ¬ (i = .blockerFinished ∧ job.state = .stopping)) (he : ¬ lateError job i) :
    Guards k (jobStep x sys job i) := by
  cases i with
  | killTimer => exact absurd rfl ht
  | blockerFinished =>
    have hblock : job.blocker.isSome = true := hi
    have hc : Calm job := by
      apply h.resolve_right
      intro hk
      simp [hk.2.1] at hblock
    have hs : job.state = .starting := (hc.blocked.mp hblock).resolve_right fun hs => hb ⟨rfl, hs⟩
    have hleaving : Leaving { job with blocker := none } :=
      ⟨hc.resting, by simp, by simp [hs], hc.unarmed⟩
    exact Guards.of_calm (jobAdvance_calm hleaving)
  | childError pid permanent =>
    refine jobProcessChildReader_guards h fun d hp hd hv => ?_
    by_contra hno
    exact he ⟨hp, d, hd, hv, hno⟩
  | childClosed => exact jobProcessCloseHandler_guards h
  | childEvent => exact jobProcessHandler_guards h hpair
  | readyText pid buf =>
    dsimp only [jobStep, jobProcessReadyfdReader]
    split
    · rename_i hs
      have hc := h.calm (by
        intro hk
        simp [hk] at hs)
      exact Guards.of_calm (jobAdvance_calm hc.leaving)
    · exact h
  | _ => exact request_keeps guarded_kept trivial h

/-! ## The timer -/

/-- The kill timer is pending: it is that of the main process, which was sent the
kill signal. -/
structure Armed (sys : Sys) (job : Job) : Prop where
  state : job.state = .killed
  blocker : job.blocker = none
  timer : job.killTimer.isSome = true
  process : job.killProcess = some .main
  alive : job.alive .main = true
  sent : .signalled (job.pid .main) job.cls.killSignal ∈ sys.log

/-- The kill timer has fired. -/
structure Fired (sys : Sys) (job : Job) : Prop where
  state : job.state = .killed
  blocker : job.blocker = none
  unarmed : job.killTimer = none ∧ job.killProcess = none
  sent : .signalled (job.pid .main) 9 ∈ sys.log

/-- The job is not being killed, or it is in `JOB_KILLED` before or after the timer
has fired. -/
inductive Killing (sys : Sys) (job : Job) : Prop where
  | calm (h : Calm job)
  | armed (h : Armed sys job)
  | fired (h : Fired sys job)

theorem Killing.pair (h : Killing sys job) (ht : job.killTimer = none) :
    job.killProcess = none := by
  cases h with
  | calm h => exact h.unarmed.2
  | armed h =>
    have := h.timer
    simp [ht] at this
  | fired h => exact h.unarmed.2

/-- What leaves the timer alone, and only adds to the log, leaves the job where it
was. -/
theorem Killing.keep {m : Except Fault (Sys × JobRef)} (h : Killing sys job)
    (hm : ∀ k, Guarded k job → Guards k m)
    (hlog : Sat m (fun r => ∃ acts, r.1.log = acts ++ sys.log) (fun _ => True)) :
    Sat m (fun r => r.2.All (Killing r.1)) (fun f => f.ofKill = false) := by
  have hkilled : job.state = .killed → job.blocker = none →
      (∀ sys' job', Guarded (some job.killing) job' → (∃ acts, sys'.log = acts ++ sys.log) →
        Killing sys' job') →
      Sat m (fun r => r.2.All (Killing r.1)) (fun f => f.ofKill = false) := by
    intro hs hb hkeep
    refine ((hm _ (.inr ⟨hs, hb, rfl⟩)).and hlog).mono (fun r hr => ?_) fun _ hf => hf.1
    obtain ⟨sys', job' | job'⟩ := r
    · exact hkeep sys' job' hr.1 hr.2
    · trivial
  cases h with
  | calm h =>
    refine Sat.imp (hm none (.inl h)) fun r hr => ?_
    obtain ⟨sys', job' | job'⟩ := r
    · refine .calm (hr.resolve_right fun hk => ?_)
      simp at hk
    · trivial
  | armed h =>
    refine hkilled h.state h.blocker fun sys' job' hg hgrow => ?_
    obtain ⟨acts, hacts⟩ := hgrow
    rcases hg with hc | ⟨hs, hb, hk⟩
    · exact .calm hc
    simp only [Job.killing, Option.some.injEq, Prod.mk.injEq] at hk
    obtain ⟨hcls, hpid, htimer, hprocess⟩ := hk
    refine .armed ⟨hs, hb, htimer ▸ h.timer, hprocess ▸ h.process, ?_, ?_⟩
    · have halive := h.alive
      simpa [Job.alive, hpid] using halive
    · rw [hacts, ← hpid, ← hcls]
      exact List.mem_append_right acts h.sent
  | fired h =>
    refine hkilled h.state h.blocker fun sys' job' hg hgrow => ?_
    obtain ⟨acts, hacts⟩ := hgrow
    rcases hg with hc | ⟨hs, hb, hk⟩
    · exact .calm hc
    simp only [Job.killing, Option.some.injEq, Prod.mk.injEq] at hk
    obtain ⟨-, hpid, htimer, hprocess⟩ := hk
    refine .fired ⟨hs, hb, ⟨htimer ▸ h.unarmed.1, hprocess ▸ h.unarmed.2⟩, ?_⟩
    rw [hacts, ← hpid]
    exact List.mem_append_right acts h.sent

/-! ### Killing -/

/-- The input has `job_process_kill` called: the event of a stopping job has
finished, and its main process runs. -/
def Job.kills (job : Job) : Input → Prop
  | .blockerFinished => job.state = .stopping ∧ (job.has .main && job.alive .main) = true
  | _ => False

/-- A signal that is sent arms the timer, where the timeout is a time. -/
theorem jobProcessKill_armed (ht : job.cls.killTimeout ≠ 0) (hk : x.killOk = true)
    (hs : job.state = .killed) (hb : job.blocker = none) (ha : job.alive .main = true)
    (hun : job.killTimer = none ∧ job.killProcess = none) :
    Sat (jobProcessKill x sys job .main) (fun r => Armed r.1 r.2 ∧ r.2.state = .killed)
      (fun _ => False) := by
  simp only [jobProcessKill, ha, hun.1, hun.2, hk, ht, nihAssert, Option.isNone_none, check_true,
    sat_bind, sat_ok, Bool.not_true, Bool.false_eq_true, if_false, ne_eq, not_false_eq_true,
    decide_true]
  exact ⟨⟨hs, hb, rfl, rfl, ha, by simp [Sys.act]⟩, hs⟩

/-- Entering `JOB_KILLED` arms the timer, or goes on where the main process is gone. -/
theorem enterKilled_killing (hb : job.blocker = none)
    (hun : job.killTimer = none ∧ job.killProcess = none)
    (hk : (job.has .main && job.alive .main) = true →
      job.cls.killTimeout ≠ 0 ∧ x.killOk = true) :
    Sat (jobEnterState x sys job.state { job with state := .killed })
      (Pass.Holds (fun sys' j state => Calming j state ∨
        state = .killed ∧ Armed sys' j ∧ j.state = .killed) fun _ _ => True)
      (fun f => f.ofKill = false) := by
  refine sat_assert (fun _ => rfl) fun _ => ?_
  split
  · rename_i ha
    obtain ⟨ht, hok⟩ := hk ha
    have halive : job.alive .main = true := by
      simp only [Bool.and_eq_true] at ha
      exact ha.2
    rw [sat_bind]
    have harmed : Sat (jobProcessKill x sys { job with state := .killed } .main)
        (fun r => Armed r.1 r.2 ∧ r.2.state = .killed) (fun _ => False) :=
      jobProcessKill_armed ht hok rfl hb halive hun
    refine harmed.mono (fun r hr => ?_) fun _ hf => hf.elim
    exact .inr ⟨hr.2, hr⟩
  · rw [sat_bind]
    cases hg : job.goal with
    | respawn =>
      simp only [jobNextState]
      rfl
    | stop | start =>
      simp only [jobNextState]
      exact .inl ⟨by simp, hun, by simp [hb]⟩

/-- The step of a stopping job whose event has finished. -/
theorem stopped_killing (hc : Calm job) (hs : job.state = .stopping)
    (hk : job.kills .blockerFinished → job.cls.killTimeout ≠ 0 ∧ x.killOk = true) :
    Sat (blockerFinished x sys job) (fun r => r.2.All (Killing r.1))
      (fun f => f.ofKill = false) := by
  have hrest : ({ job with blocker := none } : Job).state.spawning? = false := hc.resting
  refine jobAdvance_rule hrest (fun _ => rfl) (fun hb => by simp at hb) fun state _ hf => ?_
  have hstate : state = .killed := by
    have hedge := hf.edge
    have hne := hf.ne
    have hs' : ({ job with blocker := none } : Job).state = .stopping := hs
    rw [hs'] at hedge hne
    cases state <;> simp_all [edge]
  subst hstate
  generalize hj : ({ job with blocker := none } : Job).setGoal job.goal.next = j
  have hj' : j.state = .stopping ∧ j.blocker = none ∧ j.cls = job.cls ∧ j.pid = job.pid ∧
      j.killTimer = none ∧ j.killProcess = none := by
    subst hj
    exact ⟨hs, rfl, rfl, rfl, hc.unarmed⟩
  obtain ⟨hjs, hjb, hcls, hpid, hun⟩ := hj'
  refine (jobChangeState_passes (F := fun _ _ => True) (I := fun sys' j' state =>
    Calming j' state ∨ state = .killed ∧ (j' = j ∨ Armed sys' j' ∧ j'.state = .killed)) ?_
    (.inr ⟨rfl, .inl rfl⟩)).imp ?_
  · intro sys₁ j₁ state h hne hb
    rcases h with h | ⟨rfl, rfl | ⟨-, hk⟩⟩
    · refine (jobEnterState_calming h hb).imp fun pass hpass => ?_
      cases pass with
      | next => exact .inl hpass
      | freed => trivial
    · refine (enterKilled_killing hjb hun fun ha => ?_).imp fun pass hpass => ?_
      · rw [hcls]
        exact hk ⟨hs, by simpa [Job.has, Job.alive, hcls, hpid] using ha⟩
      · cases pass with
        | next => exact hpass.imp id fun h => ⟨h.1, .inr h.2⟩
        | freed => trivial
    · exact absurd hk hne
  · intro r hr
    obtain ⟨sys', j' | j'⟩ := r
    · obtain ⟨state, h | ⟨rfl, rfl | ⟨ha, -⟩⟩, hor⟩ := hr
      · exact .calm (h.2.2 hor)
      · simp [hjs, hjb] at hor
      · exact .armed ha
    · trivial

/-- The kill timer fires. -/
theorem jobProcessKillTimer_killing (h : Killing sys job) (ht : job.killTimer.isSome = true) :
    Sat (jobProcessKillTimer sys job) (fun r => r.2.All (Killing r.1))
      (fun f => f.ofKill = false) := by
  cases h with
  | calm h => simp [h.unarmed.1] at ht
  | fired h => simp [h.unarmed.1] at ht
  | armed h =>
    simp only [jobProcessKillTimer, ht, h.process, h.alive, nihAssert, check_true, sat_bind,
      sat_ok]
    exact .fired ⟨h.state, h.blocker, ⟨rfl, rfl⟩, by simp [Sys.act]⟩

/-! ## Runs -/

/-- A step whose kill, if it is one, sends the signal and has a timeout, and that is
no set-up error which leaves the kill timer behind. -/
def KillsWell (x : Host) (_ : Sys) (job : Job) (i : Input) : Prop :=
  (job.kills i → job.cls.killTimeout ≠ 0 ∧ x.killOk = true) ∧ ¬ lateError job i

/-- A step of such a run. -/
theorem jobStep_killing {i : Input} (h : Killing sys job) (ho : Owned sys job)
    (hi : Enabled sys job i) (hn : KillsWell x sys job i) :
    Sat (jobStep x sys job i) (fun r => r.2.All (Killing r.1)) (fun f => f.ofKill = false) := by
  by_cases ht : i = .killTimer
  · subst ht
    exact jobProcessKillTimer_killing h hi
  by_cases hb : i = .blockerFinished ∧ job.state = .stopping
  · obtain ⟨rfl, hs⟩ := hb
    cases h with
    | calm h => exact stopped_killing h hs hn.1
    | armed h => exact absurd (hs.symm.trans h.state) (by simp)
    | fired h => exact absurd (hs.symm.trans h.state) (by simp)
  · exact h.keep (fun k hk => jobStep_guarded hk hi h.pair ht hb hn.2) (jobStep_log ho hi)

theorem reached_killing {s : Sys × JobRef} (h : Reached KillsWell s) :
    s.2.All (Killing s.1) := by
  have hinv : s.2.All fun job => Killing s.1 job ∧ Owned s.1 job := by
    refine Reach.invariant (I := fun s => s.2.All fun job => Killing s.1 job ∧ Owned s.1 job)
      ?_ ?_ h
    · intro s hs
      obtain ⟨sys, ref⟩ := s
      obtain ⟨id, classId, cls, name, stopOn, rfl, ho⟩ := hs
      exact ⟨.calm ⟨rfl, by simp [jobNew], by simp [jobNew], rfl, rfl⟩, ho⟩
    · intro s i hI hok
      obtain ⟨sys, job | job⟩ := s
      · have hstep := (jobStep_killing (x := i.1) hI.1 hI.2 hok.1 hok.2).and
          (jobStep_owned hI.2 hok.1)
        refine Sat.mono hstep (fun r hr => ?_) fun _ _ => trivial
        obtain ⟨sys', job' | job'⟩ := r
        · exact hr
        · trivial
      · exact hI
  obtain ⟨sys, job | job⟩ := s
  · exact hinv.1
  · trivial

/-- What is expected of the kill timer: there is one exactly when `kill_process` names
a process that runs, that process has been sent the kill signal, and a job in
`JOB_KILLED` whose main process runs has the timer or has sent SIGKILL. -/
structure KillSafe (sys : Sys) (job : Job) : Prop where
  timer : job.killTimer.isSome = true ↔ ∃ p, job.killProcess = some p ∧ job.alive p = true
  own : job.killTimer.isSome = true → job.state = .killed ∧
    ∃ p, job.killProcess = some p ∧ .signalled (job.pid p) job.cls.killSignal ∈ sys.log
  stops : job.state = .killed → job.alive .main = true →
    job.killTimer.isSome = true ∨ .signalled (job.pid .main) 9 ∈ sys.log

theorem Killing.safe (h : Killing sys job) : KillSafe sys job := by
  cases h with
  | calm h =>
    refine ⟨?_, ?_, fun hs => absurd hs h.unkilled⟩
    · simp [h.unarmed.1, h.unarmed.2]
    · simp [h.unarmed.1]
  | armed h =>
    refine ⟨?_, fun _ => ⟨h.state, .main, h.process, h.sent⟩, fun _ _ => .inl h.timer⟩
    simp [h.timer, h.process, h.alive]
  | fired h =>
    refine ⟨?_, ?_, fun _ _ => .inr h.sent⟩
    · simp [h.unarmed.1, h.unarmed.2]
    · simp [h.unarmed.1]

/-- In every run in which each kill sends the signal and has a timeout, and no set-up
error leaves a pending timer behind, the timer is as expected, and no step fails in
an assertion about it. -/
theorem killTimer_safe {s : Sys × JobRef} (h : Reached KillsWell s) :
    s.2.All (KillSafe s.1) ∧ ∀ i, Admits KillsWell s i →
      Sat (step s i) (fun _ => True) (fun f => f.ofKill = false) := by
  have hkilling := reached_killing h
  have howned := h.owned
  obtain ⟨sys, job | job⟩ := s
  · refine ⟨hkilling.safe, fun i hi => ?_⟩
    exact (jobStep_killing hkilling howned hi.1 hi.2).imp fun _ _ => trivial
  · exact ⟨trivial, fun _ _ => trivial⟩

/-- A job that is being killed: the timer is pending, and fires. -/
theorem killTimer_safe_fires :
    ∃ sys job, Reached KillsWell (sys, .live job) ∧ job.state = .killed ∧
      job.killTimer = some 5 ∧ KillSafe sys job ∧
      Sat (jobStep plainHost sys job .killTimer) (fun _ => True) (fun f => f.ofKill = false) := by
  have hno : ∀ {sys : Sys} {job : Job} {i : Input}, job.cls.killTimeout = 5 →
      (∀ pid permanent, i ≠ .childError pid permanent) → KillsWell plainHost sys job i := by
    intro sys job i ht hi
    refine ⟨fun _ => ⟨by simp [ht], rfl⟩, fun he => ?_⟩
    cases i <;> simp_all [lateError]
  have h₀ := reached_newRun KillsWell (plainClass [.main])
  have h₁ := h₀.next (.changeGoal .start) ⟨by simp [Enabled], hno rfl (by simp)⟩ rfl
  have h₂ := h₁.next .blockerFinished ⟨rfl, hno rfl (by simp)⟩ rfl
  have h₃ := h₂.next (.childClosed 1) ⟨rfl, hno rfl (by simp)⟩ rfl
  have h₄ := h₃.next (.changeGoal .stop) ⟨by simp [Enabled], hno rfl (by simp)⟩ rfl
  have h₅ := h₄.next .blockerFinished ⟨rfl, hno rfl (by simp)⟩ rfl
  have hsafe := killTimer_safe h₅
  exact ⟨_, _, h₅, rfl, rfl, hsafe.1, hsafe.2 (plainHost, .killTimer) ⟨rfl, hno rfl (by simp)⟩⟩

/-- `kill timeout 0`: the assertion of `job_process_set_kill_timer` fails when the job
is stopped. -/
theorem killTimeout_zero_assertion :
    ∃ sys job, Reached Always (sys, .live job) ∧ job.cls.killTimeout = 0 ∧
      Enabled sys job .blockerFinished ∧
      jobStep plainHost sys job .blockerFinished = .error (.assertFailed .jobProcessKill) := by
  have h₀ := reached_newRun Always { plainClass [.main] with killTimeout := 0 }
  have h₁ := h₀.next (.changeGoal .start) ⟨by simp [Enabled], trivial⟩ rfl
  have h₂ := h₁.next .blockerFinished ⟨rfl, trivial⟩ rfl
  have h₃ := h₂.next (.childClosed 1) ⟨rfl, trivial⟩ rfl
  have h₄ := h₃.next (.changeGoal .stop) ⟨by simp [Enabled], trivial⟩ rfl
  exact ⟨_, _, h₄, rfl, rfl, rfl⟩

end Startup
