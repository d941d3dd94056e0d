import Startup.Job.Machine
import Startup.Job.Settled

/-!
# A running job has a main process

A job whose class has a main process, and that is running with the goal to run,
has that process (`reached_running`), in every run in which nobody asks to start
the job while its main process is gone and its `post-start` or `pre-stop`
process still runs (`revives`).  In those two states the end of the main process
is remembered in the goal only, and `job_change_goal` overwrites the goal.
-/

namespace Startup

open Lib

/-- With the goal to run, the main process runs from `JOB_POST_START` on; and
only processes of the class run. -/
structure Honest (job : Job) : Prop where
  declared : ∀ p, job.alive p = true → job.has p = true
  main : job.has .main = true → job.goal = .start →
    (job.state = .postStart ∨ job.state = .running ∨ job.state = .preStop) →
    job.alive .main = true

/-- The job may be moved on: where the next state may be one in which the main
process has to run, it runs. -/
structure Backed (job : Job) : Prop where
  declared : ∀ p, job.alive p = true → job.has p = true
  main : job.has .main = true → job.goal = .start →
    (job.state = .spawned ∨ job.state = .postStart ∨ job.state = .preStop) →
    job.alive .main = true

theorem Honest.same {job job' : Job} (h : Honest job) (hc : SameCore job job') : Honest job' := by
  refine ⟨fun p hp => ?_, fun hm hg hs => ?_⟩
  · rw [hc.has]
    exact h.declared p (hc.alive p ▸ hp)
  · rw [hc.alive]
    exact h.main (hc.has .main ▸ hm) (hc.goal ▸ hg) (hc.state ▸ hs)

theorem Backed.same {job job' : Job} (h : Backed job) (hc : SameCore job job') : Backed job' := by
  refine ⟨fun p hp => ?_, fun hm hg hs => ?_⟩
  · rw [hc.has]
    exact h.declared p (hc.alive p ▸ hp)
  · rw [hc.alive]
    exact h.main (hc.has .main ▸ hm) (hc.goal ▸ hg) (hc.state ▸ hs)

/-- The invariant of a run. -/
structure Sound (job : Job) : Prop where
  settled : Settled (· ≠ .security) job
  honest : Honest job

theorem Sound.same {job job' : Job} (h : Sound job) (hc : SameCore job job') : Sound job' :=
  ⟨h.settled.same hc, h.honest.same hc⟩

theorem Sound.backed {job : Job} (h : Sound job) : Backed job := by
  refine ⟨h.honest.declared, fun hm hg hs => ?_⟩
  rcases hs with hs | hs | hs
  · exact h.settled.driven .main (by simp) (by rw [hs]; rfl)
  · exact h.honest.main hm hg (.inl hs)
  · exact h.honest.main hm hg (.inr (.inr hs))

/-- A job that is to stop may be moved on. -/
theorem Backed.of_stop {job : Job} (h : ∀ p, job.alive p = true → job.has p = true)
    (hg : job.goal = .stop) : Backed job :=
  ⟨h, fun _ hg' => by simp [hg] at hg'⟩

/-! ## Changing the state -/

/-- The states on the way to running and back in which the main process has to
run. -/
def JobState.late : JobState → Bool
  | .postStarting | .postStart | .running | .preStopping | .preStop => true
  | _ => false

/-- What holds at the head of the loop of `job_change_state`. -/
structure BackedHead (job : Job) (state : JobState) : Prop where
  declared : ∀ p, job.alive p = true → job.has p = true
  main : job.has .main = true → job.goal = .start → state.late = true → job.alive .main = true
  spawned : job.has .main = true → state = .spawned → job.state = .spawning →
    job.alive .main = true

theorem ProcessType.late_spawnState {p : ProcessType} (h : p.waitState.late = true) :
    p.spawnState.late = true := by
  cases p <;> simp_all [waitState, spawnState, JobState.late]

theorem ProcessType.eq_main_of_waitState {p : ProcessType} (h : p.waitState = .spawned) :
    p = .main := by
  cases p <;> simp_all [waitState]

/-- One pass of the loop. -/
theorem Enters.backedHead {x : Host} {sys : Sys} {job : Job} {state : JobState} {pass : Pass}
    (h : Enters x sys job.state { job with state := state } pass) (hb : BackedHead job state) :
    pass.Holds (fun _ job' state' => BackedHead job' state') (fun _ _ => True) := by
  have hstay : ∀ {job' : Job}, job'.state = state → job'.pid = job.pid → job'.cls = job.cls →
      job'.goal = job.goal → BackedHead job' state := by
    intro job' hs hpid hcls hgoal
    have halive : ∀ p, job'.alive p = job.alive p := fun p => by simp [Job.alive, hpid]
    have hhas : ∀ p, job'.has p = job.has p := fun p => by simp [Job.has, hcls]
    refine ⟨fun p hp => ?_, fun hm hg hl => ?_, fun hm hs' hs'' => ?_⟩
    · rw [hhas]
      exact hb.declared p (halive p ▸ hp)
    · rw [halive]
      exact hb.main (hhas .main ▸ hm) (hgoal ▸ hg) hl
    · rw [hs, hs'] at hs''
      cases hs''
  -- a pass that goes on to another state with the same processes
  have hgo : ∀ state', state' ≠ .spawned →
      (state'.late = true → state.late = true ∨ job.goal ≠ .start ∨ job.has .main = false) →
      BackedHead { job with state := state } state' := by
    intro state' hne hl
    refine ⟨hb.declared, fun hm hg hlate => ?_, fun _ hs => absurd hs hne⟩
    rcases hl hlate with hl | hl | hl
    · exact hb.main hm hg hl
    · exact absurd hg hl
    · have hm : job.has .main = true := hm
      simp [hl] at hm
  cases h with
  | spawn p proc st goal ne from_ runs proc_ =>
    have st : state = p.spawnState := st
    have hproc : job.cls.process p = some proc := proc_
    have halive : ∀ q, job.alive q = true →
        (processStarted sys { job with state := state } p proc).2.alive q = true := by
      intro q hq
      by_cases hqp : q = p
      · simp [processStarted, Job.alive, hqp]
      · simpa [processStarted, Job.alive, Function.update, hqp] using hq
    refine ⟨fun q hq => ?_, fun hm hg hl => ?_, fun _ hs _ => ?_⟩
    · by_cases hqp : q = p
      · simp [processStarted, Job.has, hqp, hproc]
      · exact hb.declared q (by
          simpa [processStarted, Job.alive, Function.update, hqp] using hq)
    · refine halive .main (hb.main hm hg ?_)
      rw [st]
      exact ProcessType.late_spawnState hl
    · obtain rfl := ProcessType.eq_main_of_waitState hs
      simp [processStarted, Job.alive]
  | noSpawn p st goal ne from_ runs =>
    have st : state = p.spawnState := st
    refine ⟨hb.declared, fun hm hg hl => ?_, fun hm hs _ => ?_⟩
    · refine hb.main hm hg ?_
      rw [st]
      exact ProcessType.late_spawnState hl
    · -- a class with a main process spawns it
      obtain rfl := ProcessType.eq_main_of_waitState hs
      exact absurd (show job.has .main = true from hm) (by simpa [Job.runs, Job.has] using runs)
  | skip p st goal ne from_ runs =>
    have st : state = p.waitState := st
    refine hgo _ ?_ fun hl => ?_
    · cases p <;> cases job.goal <;> simp [ProcessType.afterState]
    · cases p with
      | main =>
        right
        right
        simpa [Job.runs, Job.has] using runs
      | postStart => exact .inl (by rw [st]; rfl)
      | security | preStart | preStop => simp [ProcessType.afterState, JobState.late] at hl
      | postStop =>
        revert hl
        cases job.goal <;> simp [ProcessType.afterState, JobState.late]
  | dead st goal from_ dead => exact hgo _ (by simp) (by simp [JobState.late])
  | waiting => trivial
  | _ => exact hstay rfl rfl rfl rfl

variable {D : ProcessType → Prop} {x : Host} {sys : Sys} {job : Job}

theorem jobChangeState_honest {state : JobState} (h : BackedHead job state)
    (hb : job.blocker = none) :
    Sat (jobChangeState x sys job state) (fun r => r.2.All Honest) (fun _ => True) := by
  refine (jobChangeState_rest (I := fun _ job state => BackedHead job state)
    (F := fun _ _ => True) (fun _ _ _ _ h _ _ hpass => hpass.backedHead h)
    (fun _ _ _ _ _ _ _ _ => trivial) hb h).imp ?_
  rintro ⟨sys, job | job⟩ h
  · refine ⟨h.declared, fun hm hg hs => h.main hm hg ?_⟩
    rcases hs with hs | hs | hs <;> rw [hs] <;> rfl
  · trivial

/-- The program leaves a sound job, if it leaves one. -/
def Tells (m : Except Fault (Sys × JobRef)) : Prop :=
  Sat m (fun r => r.2.All Sound) (fun _ => True)

theorem Tells.of {m : Except Fault (Sys × JobRef)} (h : Settling (· ≠ .security) m)
    (h' : Sat m (fun r => r.2.All Honest) (fun _ => True)) : Tells m := by
  refine (Sat.and h h').mono ?_ fun _ _ => trivial
  rintro ⟨sys, job | job⟩ h
  · exact ⟨h.1, h.2⟩
  · trivial

theorem jobAdvance_honest (hrest : job.state.spawning? = false) (h : Backed job)
    (hblocked : job.blocker.isSome = true → job.state = .starting ∨ job.state = .stopping) :
    Sat (jobAdvance x sys job) (fun r => r.2.All Honest) (fun _ => True) := by
  refine jobAdvance_rule hrest (fun _ => trivial) (fun hb => ?_) fun state hb hf => ?_
  · refine ⟨h.declared, fun _ _ hs => ?_⟩
    have hs : job.state = .postStart ∨ job.state = .running ∨ job.state = .preStop := hs
    rcases hblocked hb with hs' | hs' <;> simp [hs'] at hs
  · refine jobChangeState_honest ⟨h.declared, fun hm hg hl => ?_, fun _ _ hs => ?_⟩ hb
    · have hg : job.goal.next = .start := hg
      have hstart : job.goal = .start := by
        cases hgoal : job.goal with
        | start => rfl
        | stop => simp [hgoal, JobGoal.next] at hg
        | respawn =>
          rw [hf.respawn hgoal] at hl
          simp [JobState.late] at hl
      refine h.main hm hstart ?_
      have hedge := hf.edge
      rw [hg] at hedge
      revert hl hedge hrest
      cases state <;> cases job.state <;> simp [JobState.late, edge, JobState.spawning?]
    · have hs : job.state = .spawning := hs
      simp [hs, JobState.spawning?] at hrest

theorem Backed.advance (h : Backed job) (hset : Settled D job) :
    Tells (jobAdvance x sys job) :=
  .of hset.advance (jobAdvance_honest hset.resting h hset.blocked.mp)

/-! ## Goals -/

/-- While the main process is gone, the job does not wait for its `post-start`
or `pre-stop` process. -/
def Manned (job : Job) : Prop :=
  job.has .main = true → job.state = .postStart ∨ job.state = .preStop → job.alive .main = true

/-- Setting a goal other than to start leaves an honest job, whatever the main
process does. -/
theorem jobChangeGoal_honest {goal : JobGoal} (hset : Settled D job)
    (hd : ∀ p, job.alive p = true → job.has p = true)
    (hm : goal = .start → Honest job ∧ Manned job) :
    Sat (jobChangeGoal x sys job goal) (fun r => r.2.All Honest) (fun _ => True) := by
  rw [jobChangeGoal_eq]
  split
  · rename_i hmoves
    have hb : job.blocker = none := by
      have := hset.blocked
      rcases hmoves.2 with ⟨-, hs⟩ | ⟨-, hs⟩ <;> simpa [hs] using this
    refine jobAdvance_honest hset.resting ⟨hd, fun _ _ hs => ?_⟩ fun hb' => ?_
    · have hs : job.state = .spawned ∨ job.state = .postStart ∨ job.state = .preStop := hs
      rcases hmoves.2 with ⟨-, hs'⟩ | ⟨-, hs'⟩ <;> simp [hs'] at hs
    · have hb' : job.blocker.isSome = true := hb'
      simp [hb] at hb'
  · refine ⟨hd, fun hmain hg hs => ?_⟩
    have hs : job.state = .postStart ∨ job.state = .running ∨ job.state = .preStop := hs
    obtain ⟨hhonest, hmanned⟩ := hm hg
    rcases hs with hs | hs | hs
    · exact hmanned hmain (.inl hs)
    · exact hhonest.main hmain (hset.running hs) (.inr (.inl hs))
    · exact hmanned hmain (.inr hs)

theorem jobChangeGoal_tells {goal : JobGoal} (h : Sound job)
    (hr : goal = .respawn → job.state = .postStart ∨ job.state = .preStop)
    (hm : goal = .start → Manned job) : Tells (jobChangeGoal x sys job goal) :=
  .of (h.settled.changeGoal hr)
    (jobChangeGoal_honest h.settled h.honest.declared fun hg => ⟨h.honest, hm hg⟩)

/-- What a call that ends no process keeps. -/
structure Persists (job job' : Job) : Prop where
  cls : job'.cls = job.cls
  goal : job'.goal = job.goal
  alive : ∀ p, job.alive p = true → job'.alive p = true

theorem Persists.trans {job job' job'' : Job} (h : Persists job job') (h' : Persists job' job'') :
    Persists job job'' :=
  ⟨h'.cls.trans h.cls, h'.goal.trans h.goal, fun p hp => h'.alive p (h.alive p hp)⟩

theorem Enters.persists {old : JobState} {pass : Pass} (h : Enters x sys old job pass) :
    pass.Holds (fun _ job' _ => Persists job job') (fun _ _ => True) := by
  cases h with
  | spawn p proc =>
    refine ⟨rfl, rfl, fun q hq => ?_⟩
    by_cases hqp : q = p
    · simp [processStarted, Job.alive, hqp]
    · simpa [processStarted, Job.alive, Function.update, hqp] using hq
  | waiting => trivial
  | _ => exact ⟨rfl, rfl, fun _ => id⟩

theorem jobChangeState_persists {state : JobState} :
    Sat (jobChangeState x sys job state) (fun r => r.2.All (Persists job)) (fun _ => True) := by
  refine (jobChangeState_rule (I := fun _ job' _ => Persists job job') (F := fun _ _ => True)
    ?_ (fun _ _ _ _ _ _ _ _ => trivial) ⟨rfl, rfl, fun _ => id⟩).imp ?_
  · intro sys job' state pass h _ _ hpass
    have hkeep := hpass.persists
    cases pass with
    | next => exact h.trans ⟨hkeep.cls, hkeep.goal, hkeep.alive⟩
    | freed => trivial
  · rintro ⟨sys, job' | job'⟩ h
    · obtain ⟨_, h, -⟩ := h
      exact h
    · trivial

/-- A goal that is not to respawn is set, and no process ends. -/
theorem jobChangeGoal_persists {goal : JobGoal} (hg : goal ≠ .respawn) :
    Sat (jobChangeGoal x sys job goal)
      (fun r => r.2.All fun j => Persists (job.setGoal goal) j) (fun _ => True) := by
  rw [jobChangeGoal_eq]
  split
  · rename_i hm
    have hrest : (job.setGoal goal).state.spawning? = false := by
      rcases hm.2 with ⟨-, hs⟩ | ⟨-, hs⟩ <;> simp [Job.setGoal, hs, JobState.spawning?]
    have hnext : (job.setGoal goal).goal.next = goal := JobGoal.next_eq hg
    refine jobAdvance_rule hrest (fun _ => trivial) (fun _ => ?_) fun state _ _ => ?_
    · rw [hnext]
      exact ⟨rfl, rfl, fun _ => id⟩
    · rw [hnext]
      exact jobChangeState_persists
  · exact ⟨rfl, rfl, fun _ => id⟩

theorem Tells.bind {m : Except Fault (Sys × JobRef)}
    {k : Sys × JobRef → Except Fault (Sys × JobRef)} (h : Tells m)
    (hk : ∀ sys ref, ref.All Sound → Tells (k (sys, ref))) : Tells (m >>= k) := by
  unfold Tells
  rw [sat_bind]
  exact Sat.imp h fun r hr => hk r.1 r.2 hr

theorem Tells.get {fn : SourceFn} {ref : JobRef} {k : Job → Except Fault (Sys × JobRef)}
    {P : Job → Prop} (h : ref.All P) (hk : ∀ job, P job → Tells (k job)) :
    Tells (ref.get fn >>= k) := by
  cases ref with
  | live job => exact hk job h
  | freed job => trivial

/-! ## The end of a process -/

theorem Honest.clear (h : Honest job) {p : ProcessType}
    (hp : p = .main → job.goal ≠ .start ∨
      (job.state ≠ .postStart ∧ job.state ≠ .running ∧ job.state ≠ .preStop)) :
    Honest (job.setPid p 0) := by
  refine ⟨fun q hq => h.declared q (alive_setPid_zero.mp hq).2, fun hm hg hs => ?_⟩
  have hg : job.goal = .start := hg
  have hs : job.state = .postStart ∨ job.state = .running ∨ job.state = .preStop := hs
  refine alive_setPid_zero.mpr ⟨?_, h.main hm hg hs⟩
  rintro rfl
  rcases hp rfl with hg' | ⟨h₁, h₂, h₃⟩
  · exact hg' hg
  · rcases hs with hs | hs | hs <;> contradiction

theorem Backed.clear (h : Backed job) {p : ProcessType}
    (hp : p = .main → job.goal ≠ .start ∨
      (job.state ≠ .spawned ∧ job.state ≠ .postStart ∧ job.state ≠ .preStop)) :
    Backed (job.setPid p 0) := by
  refine ⟨fun q hq => h.declared q (alive_setPid_zero.mp hq).2, fun hm hg hs => ?_⟩
  have hg : job.goal = .start := hg
  have hs : job.state = .spawned ∨ job.state = .postStart ∨ job.state = .preStop := hs
  refine alive_setPid_zero.mpr ⟨?_, h.main hm hg hs⟩
  rintro rfl
  rcases hp rfl with hg' | ⟨h₁, h₂, h₃⟩
  · exact hg' hg
  · rcases hs with hs | hs | hs <;> contradiction

/-- In the states that wait for the `post-start` or `pre-stop` process, that
process runs. -/
theorem Sound.waits (h : Sound job) (hs : job.state = .postStart ∨ job.state = .preStop) :
    job.waits = true := by
  rcases hs with hs | hs
  · have ha := h.settled.driven .postStart (by simp) (by rw [hs]; rfl)
    simp [Job.waits, hs, ha, h.honest.declared .postStart ha]
  · have ha := h.settled.driven .preStop (by simp) (by rw [hs]; rfl)
    simp [Job.waits, hs, ha, h.honest.declared .preStop ha]

/-- What the `switch` of `job_process_terminated` leaves: unless the goal is
going to be to stop, the job is honest without the process, or may be moved on
without it. -/
theorem Terminates.tells {p : ProcessType} {status : Int} {sys' : Sys} {job' : Job}
    {v : Verdict} (ht : Terminates x sys job status p sys' (.live job') v) (h : Sound job) :
    (∀ q, job'.alive q = true → job'.has q = true) ∧
      (v.stop = false → v.state = false → Honest (job'.setPid p 0)) ∧
      (v.stop = false → v.state = true → Backed (job'.setPid p 0)) := by
  have hcore := jobProcessCatchRunaway_core x job
  have hcatch := h.same hcore
  cases ht with
  | process p failed ne =>
    exact ⟨h.honest.declared, by simp, fun _ _ => h.backed.clear fun hp => absurd hp ne⟩
  | killed state =>
    exact ⟨h.honest.declared, by simp, fun _ _ => h.backed.clear fun _ => .inr (by simp [state])⟩
  | stopping state =>
    exact ⟨h.honest.declared, fun _ _ => h.honest.clear fun _ => .inr (by simp [state]), by simp⟩
  | goal state goal =>
    exact ⟨h.honest.declared, fun _ _ => h.honest.clear fun _ => .inl goal,
      fun _ _ => h.backed.clear fun _ => .inl goal⟩
  | stop => exact ⟨h.honest.declared, by simp, by simp⟩
  | runaway state goal fail =>
    exact ⟨(h.same (hcore.trans fail.core)).honest.declared, by simp, by simp⟩
  | respawnLater waits goal =>
    refine ⟨hcatch.honest.declared, fun _ _ => ?_, by simp⟩
    refine ⟨fun q hq => hcatch.honest.declared q (alive_setPid_zero.mp hq).2, fun _ hg => ?_⟩
    cases hg
  | respawnSpawned state goal change =>
    have hb : job.blocker = none := by
      have := h.settled.blocked
      simpa [state] using this
    obtain ⟨e, heq⟩ := Terminates.respawnSpawned_eq state hb change
    cases heq
    refine ⟨hcatch.honest.declared, fun _ _ => ?_, by simp⟩
    refine ⟨fun q hq => hcatch.honest.declared q (alive_setPid_zero.mp hq).2, fun _ _ hs => ?_⟩
    simp [Job.setPid] at hs
  | respawn state waits goal =>
    refine ⟨hcatch.honest.declared, by simp, fun _ _ => hcatch.backed.clear fun _ => .inr ?_⟩
    rw [hcore.state]
    rcases state with hs | hs | hs
    · simp [hs]
    · have := h.waits (.inl hs)
      simp [waits] at this
    · have := h.waits (.inr hs)
      simp [waits] at this

theorem jobProcessTerminated_tells {p : ProcessType} {status : Int} (h : Sound job) :
    Tells (jobProcessTerminated x sys job p status false) := by
  refine .of (jobProcessTerminated_settled h.settled) ?_
  refine jobProcessTerminated_rule h.settled.resting (fun _ _ => trivial) fun sys' job' v ht => ?_
  obtain ⟨hd, hstay, hadvance⟩ := ht.tells h
  obtain ⟨hset, -⟩ := ht.settled h.settled
  refine afterTerminated_rule (fun _ _ => trivial) ?_ ?_ ?_
  · intro sys₁ job₁ he hs hv
    exact (hstay hs hv).same he.core
  · intro sys₁ job₁ he hs hv
    have hset₁ := (hset.setPid p 0).same he.core
    exact jobAdvance_honest hset₁.resting ((hadvance hs hv).same he.core) hset₁.blocked.mp
  · intro sys₁ job₁ he _
    have hset₁ := (hset.setPid p 0).same he.core
    have hd₁ : ∀ q, job₁.alive q = true → job₁.has q = true := by
      intro q hq
      rw [he.core.alive] at hq
      rw [he.core.has]
      exact hd q (alive_setPid_zero.mp hq).2
    refine (Sat.and (hset₁.changeGoal_stop)
      (Sat.and (jobChangeGoal_honest hset₁ hd₁ (by simp))
        (jobChangeGoal_persists (by simp)))).mono ?_ fun _ _ => trivial
    rintro ⟨sys₂, _⟩ ⟨hset₂, hhonest, hpersists⟩ j rfl
    have hset₂ : Settled _ j := hset₂
    exact ⟨fun _ => hhonest, fun _ _ => jobAdvance_honest hset₂.resting
      (.of_stop hhonest.declared hpersists.goal) hset₂.blocked.mp⟩

/-! ## Set-up errors -/

theorem failAndAdvance_tells {p : ProcessType} (hset : Settled D job)
    (hd : ∀ q, job.alive q = true → job.has q = true) : Tells (failAndAdvance x sys job p) := by
  refine .of (failAndAdvance_settled hset) ?_
  unfold failAndAdvance
  rw [sat_bind]
  refine jobFailed_core.mono (fun r hc => ?_) fun _ _ => trivial
  have hset₁ := hset.same hc
  have hd₁ : ∀ q, r.2.alive q = true → r.2.has q = true := by
    intro q hq
    rw [hc.alive] at hq
    rw [hc.has]
    exact hd q hq
  rw [sat_bind]
  refine (Sat.and (hset₁.changeGoal_stop)
    (Sat.and (jobChangeGoal_honest hset₁ hd₁ (by simp))
      (jobChangeGoal_persists (by simp)))).mono ?_ fun _ _ => trivial
  rintro ⟨sys₂, job₂ | job₂⟩ ⟨hset₂, hhonest, hpersists⟩
  · have hset₂ : Settled _ job₂ := hset₂
    exact jobAdvance_honest hset₂.resting (.of_stop hhonest.declared hpersists.goal)
      hset₂.blocked.mp
  · trivial

theorem jobChildErrorHandler_tells {p : ProcessType} (h : Sound job) :
    Tells (jobChildErrorHandler x sys job p) := by
  have hset := h.settled.setPid p 0
  have hd : ∀ q, (job.setPid p 0).alive q = true → (job.setPid p 0).has q = true :=
    fun q hq => h.honest.declared q (alive_setPid_zero.mp hq).2
  unfold jobChildErrorHandler
  cases p with
  | security =>
    have hsound : Sound (job.setPid .security 0) :=
      ⟨hset.mono fun _ hq => ⟨hq, fun heq => absurd heq hq⟩, h.honest.clear (by simp)⟩
    show Sat (jobFailed sys (job.setPid .security 0) _ _ >>= _) _ _
    rw [sat_bind]
    exact jobFailed_core.mono
      (fun r hc => jobChangeGoal_tells (hsound.same hc) (by simp) (by simp)) fun _ _ => trivial
  | preStart => exact failAndAdvance_tells hset hd
  | main => exact failAndAdvance_tells hset hd
  | postStop => exact failAndAdvance_tells hset hd
  | postStart => exact (h.backed.clear (by simp)).advance hset
  | preStop => exact (h.backed.clear (by simp)).advance hset

theorem jobProcessChildReader_tells {pid : Pid} {permanent : Bool} (h : Sound job) :
    Tells (jobProcessChildReader x sys job pid permanent) := by
  unfold jobProcessChildReader
  split
  · trivial
  split
  · exact h
  refine (jobChildErrorHandler_tells (h.same (modifyData_core job pid _))).bind
    fun sys₁ ref h₁ => ?_
  exact Tells.get h₁ fun j hj => hj.same (modifyData_core j pid _)

/-- The job leaves `JOB_SPAWNED`. -/
theorem Sound.advance (h : Sound job) {job' : Job} (hc : SameCore job job') :
    Tells (jobAdvance x sys job') :=
  (h.backed.same hc).advance (h.settled.same hc)

theorem jobProcessCloseHandler_tells {pid : Pid} (h : Sound job) :
    Tells (jobProcessCloseHandler x sys job pid) := by
  unfold jobProcessCloseHandler
  split
  · trivial
  split
  · exact h
  rename_i data _ _
  have hcore := modifyData_core job pid fun d => { d with valid := false, script := none }
  have hrest (sys₁ : Sys) (ref : JobRef) (hr : ref.All Sound) : Tells (do
      let job ← ref.get .jobProcessCloseHandler
      if job.state.spawning? then
        jobProcessTerminated x sys₁ job data.process data.status true
      else .ok (sys₁, .live job)) := by
    refine Tells.get hr fun j hj => ?_
    rw [if_neg (by simp [hj.settled.resting])]
    exact hj
  dsimp only
  split
  · exact (h.advance hcore).bind hrest
  · exact hrest sys (.live _) (h.same hcore)

/-! ## Leaving the spawned state -/

theorem Sound.trace (h : Sound job) (forks : Nat) (trace : TraceState) :
    Sound { job with traceForks := forks, traceState := trace } :=
  h.same ⟨rfl, rfl, rfl, rfl, rfl, id⟩

theorem jobProcessStopped_tells {p : ProcessType} (h : Sound job) :
    Tells (jobProcessStopped x sys job p) := by
  unfold jobProcessStopped
  split
  · exact h
  split
  · exact h.advance (.refl job)
  · exact h

theorem jobProcessTraceNew_tells {p : ProcessType} (h : Sound job) :
    Tells (jobProcessTraceNew x sys job p) := by
  refine sat_assert (fun _ => trivial) fun _ => ?_
  split
  · exact h
  split
  · exact h
  · exact h.trace _ _

theorem jobProcessTraceNewChild_tells {p : ProcessType} (h : Sound job) :
    Tells (jobProcessTraceNewChild x sys job p) := by
  refine sat_assert (fun _ => trivial) fun _ => ?_
  split
  · exact h
  dsimp only
  split
  · exact h.advance ⟨rfl, rfl, rfl, rfl, rfl, id⟩
  · exact jobProcessTraceNew_tells (h.trace _ _)

theorem jobProcessTraceFork_tells {p : ProcessType} (h : Sound job) (hp : job.alive p = true) :
    Tells (jobProcessTraceFork x sys job p) := by
  unfold jobProcessTraceFork
  split
  · exact h
  split
  · exact h
  have halive : ∀ q, (job.setPid p (sys.lastPid + 1)).alive q = job.alive q := by
    intro q
    by_cases hqp : q = p
    · rw [hqp, hp]
      simp [Job.alive, Job.setPid]
    · simp [Job.alive, Job.setPid, Function.update, hqp]
  have hchild : Sound { job.setPid p (sys.lastPid + 1) with traceState := .newChild } := by
    refine ⟨((h.settled.setPid p (sys.lastPid + 1)).mono
      fun _ hq => ⟨hq, fun _ => Nat.succ_pos _⟩).trace job.traceForks _, fun q hq => ?_,
      fun hm hg hs => ?_⟩
    · exact h.honest.declared q (halive q ▸ hq)
    · exact (halive .main).trans (h.honest.main hm hg hs)
  dsimp only
  split
  · exact hchild
  · exact jobProcessTraceNewChild_tells hchild

theorem jobProcessTraceExec_tells {p : ProcessType} (h : Sound job) :
    Tells (jobProcessTraceExec x sys job p) := by
  unfold jobProcessTraceExec
  split
  · exact h
  split
  · exact h.advance ⟨rfl, rfl, rfl, rfl, rfl, id⟩
  · exact h

theorem jobProcessHandler_tells {p : ProcessType} {event : ChildEvent} (h : Sound job)
    (hp : job.alive p = true) : Tells (jobProcessHandler x sys job p event) := by
  cases event with
  | exited | killed | dumped => exact jobProcessTerminated_tells h
  | stopped signal =>
    simp only [jobProcessHandler]
    split
    · exact jobProcessStopped_tells h
    · exact h
  | continued => exact h
  | trapped signal =>
    simp only [jobProcessHandler]
    split
    · exact jobProcessTraceNew_tells h
    split
    · exact jobProcessTraceNewChild_tells h
    · unfold jobProcessTraceSignal
      split <;> exact h
  | ptraceFork => exact jobProcessTraceFork_tells h hp
  | ptraceExec => exact jobProcessTraceExec_tells h

/-! ## Requests and events -/

theorem Manned.same {job' : Job} (h : Manned job) (hc : SameCore job job') : Manned job' := by
  intro hm hs
  rw [hc.alive]
  exact h (hc.has .main ▸ hm) (hc.state ▸ hs)

theorem changeGoalFor_tells {entry : Blocked} {message : MessageId} {wait : Bool}
    {goal : JobGoal} (h : Sound job) (hg : goal ≠ .respawn) (hm : goal = .start → Manned job) :
    Tells (changeGoalFor x sys job entry message wait goal) := by
  unfold changeGoalFor Tells
  rw [sat_bind]
  refine replaceBlocking_core.mono (fun r hr => ?_) fun _ _ => trivial
  exact (jobChangeGoal_tells (h.same hr) (fun heq => absurd heq hg)
    fun hs => (hm hs).same hr).bind fun _ _ hr' => hr'

/-- A goal to stop moves only a running job. -/
theorem jobChangeGoal_stop_state :
    Sat (jobChangeGoal x sys job .stop)
      (fun r => r.2.All fun j => j.state = job.state ∨ job.state = .running)
      (fun _ => True) := by
  rw [jobChangeGoal_eq]
  split
  · rename_i hm
    have hs : job.state = .running := by simpa using hm.2
    rw [sat_iff]
    refine ⟨fun r _ => ?_, fun _ _ => trivial⟩
    cases r.2 with
    | live j => exact .inr hs
    | freed j => trivial
  · exact .inl rfl

/-- With the goal to stop in between, the main process stays. -/
theorem restartFor_tells {entry : Blocked} {message : MessageId} {wait : Bool}
    (h : Sound job) (hm : Manned job) : Tells (restartFor x sys job entry message wait) := by
  unfold restartFor Tells
  rw [sat_bind]
  refine replaceBlocking_core.mono (fun r hr => ?_) fun _ _ => trivial
  have hsound := h.same hr
  have hmanned := hm.same hr
  have hstop : Sat (jobChangeGoal x r.1 r.2 .stop)
      (fun r' => r'.2.All fun j => Sound j ∧ Manned j) (fun _ => True) := by
    refine ((jobChangeGoal_tells hsound (by simp) (by simp)).and
      ((jobChangeGoal_persists (by simp)).and jobChangeGoal_stop_state)).mono ?_
      fun _ _ => trivial
    rintro ⟨sys₁, job₁ | job₁⟩ ⟨h₁, hp, hs₁⟩
    · refine ⟨h₁, fun hmain hs => hp.alive .main ?_⟩
      have hmain : r.2.has .main = true := by
        have hcls : job₁.cls = r.2.cls := hp.cls
        simpa [Job.has, hcls] using hmain
      show r.2.alive .main = true
      rcases hs₁ with hs₁ | hs₁
      · exact hmanned hmain (hs₁ ▸ hs)
      · exact hsound.honest.main hmain (hsound.settled.running hs₁) (.inr (.inl hs₁))
    · trivial
  rw [sat_bind]
  refine hstop.imp fun r' hr' => ?_
  refine Tells.get hr' fun j hj => ?_
  exact (jobChangeGoal_tells hj.1 (by simp) fun _ => hj.2).bind fun _ _ hr' => hr'

theorem Sound.setEnv (h : Sound job) (startEnv stopEnv : Option (List String)) :
    Sound { job with startEnv := startEnv, stopEnv := stopEnv } :=
  h.same ⟨rfl, rfl, rfl, rfl, rfl, id⟩

private theorem replyPath_tells {m : Except Fault (Sys × JobRef)} {fn : SourceFn} {wait : Bool}
    (h : Tells m) : Tells (do
      let (sys, ref) ← m
      if wait then .ok (sys, ref)
      else
        let job ← ref.get fn
        .ok (sys, .live job)) := by
  refine h.bind fun sys₁ ref h₁ => ?_
  dsimp only
  split
  · exact h₁
  · exact Tells.get h₁ fun _ hj => hj

theorem stopForEvents_tells {root : EventOperator} (h : Sound job) :
    Tells (stopForEvents x sys job root) := by
  unfold stopForEvents Tells
  rw [sat_bind]
  refine takeStopEnv_core.mono (fun r hr => ?_) fun _ _ => trivial
  rw [sat_bind]
  refine blockOnEvents_core.mono (fun r' hr' => ?_) fun _ _ => trivial
  dsimp only
  rw [changeGoalIfOther_eq]
  refine (jobChangeGoal_tells (h.same (hr.trans hr')) (by simp) (by simp)).bind
    fun sys₁ ref h₁ => ?_
  refine Tells.get h₁ fun j hj => ?_
  unfold Tells
  rw [sat_bind]
  exact resetOperator_quiet.mono (fun _ _ => hj.same ⟨rfl, rfl, rfl, rfl, rfl, id⟩)
    fun _ _ => trivial

theorem handleStopOn_tells {event : Event} (h : Sound job) :
    Tells (handleStopOn x sys job event) := by
  unfold handleStopOn Tells
  split
  · exact h
  · rw [sat_bind]
    refine handleOperator_quiet.mono (fun r _ => ?_) fun _ _ => trivial
    have hroot : Sound { job with stopOn := some r.2.1 } := h.same ⟨rfl, rfl, rfl, rfl, rfl, id⟩
    dsimp only
    split
    · exact stopForEvents_tells hroot
    · exact hroot

theorem inductInstance_tells {root : EventOperator} {env : List String} (h : Sound job)
    (hm : Manned job) : Tells (inductInstance x sys job root env) := by
  unfold inductInstance Tells
  rw [sat_bind]
  refine takeStartEnv_core.mono (fun r hr => ?_) fun _ _ => trivial
  rw [sat_bind]
  refine blockOnEvents_core.mono (fun r' hr' => ?_) fun _ _ => trivial
  dsimp only
  rw [changeGoalIfOther_eq]
  exact jobChangeGoal_tells (h.same (hr.trans hr')) (by simp) fun _ => hm.same (hr.trans hr')

theorem blockerFinished_tells (h : Sound job) (hb : job.blocker.isSome = true) :
    Tells (blockerFinished x sys job) := by
  have hstate := h.settled.blocked.mp hb
  refine .of (blockerFinished_settled h.settled)
    (jobAdvance_honest h.settled.resting ⟨h.honest.declared, fun _ _ hs => ?_⟩ (by simp))
  have hs : job.state = .spawned ∨ job.state = .postStart ∨ job.state = .preStop := hs
  rcases hstate with hs' | hs' <;> simp [hs'] at hs

/-! ## Runs -/

/-- The input makes start the goal of the job. -/
def asksStart (x : Host) (job : Job) : Input → Prop
  | .changeGoal goal => goal = .start
  | .start _ _ =>
    job.goal ≠ .start ∧ (job.cls.cgroups = true → x.cgroupManagerAvailable = true)
  | .classStart _ _ _ => job.goal ≠ .start
  | .restart _ _ | .classRestart _ _ _ => job.goal ≠ .stop
  | .induct _ _ => True
  | _ => False

/-- The input makes start the goal of a job whose main process is gone, while
the job waits for its `post-start` or `pre-stop` process. -/
def revives (x : Host) (job : Job) (i : Input) : Prop :=
  (job.state = .postStart ∨ job.state = .preStop) ∧ job.has .main = true ∧
    job.alive .main = false ∧ asksStart x job i

theorem manned_of_asksStart {i : Input} (hi : asksStart x job i) (hn : ¬ revives x job i) :
    Manned job := by
  intro hm hs
  by_contra ha
  exact hn ⟨hs, hm, by simpa using ha, hi⟩

theorem jobNew_sound (id : JobId) (classId : ClassId) (cls : JobClass) (name : String)
    (stopOn : Option EventOperator) : Sound (jobNew id classId cls name stopOn) := by
  refine ⟨?_, by simp [jobNew, Job.alive], by simp [jobNew]⟩
  refine ⟨?_, ?_, ?_, ?_, ?_, ?_⟩ <;> simp [jobNew, JobState.spawning?, JobState.driver]

/-- Every step that does not revive a job keeps it sound. -/
theorem jobStep_tells {i : Input} (h : Sound job) (he : Enabled sys job i)
    (hn : ¬ revives x job i) : Tells (jobStep x sys job i) := by
  have hmanned : asksStart x job i → Manned job := fun hi => manned_of_asksStart hi hn
  cases i with
  | changeGoal goal =>
    exact jobChangeGoal_tells h (fun hg => absurd hg he) fun hg => hmanned hg
  | start message wait =>
    simp only [jobStep, jobStart]
    split
    · exact h
    split
    · exact h
    · rename_i hg hc
      refine changeGoalFor_tells (h.setEnv none job.stopEnv) (by simp) fun _ => ?_
      exact hmanned ⟨hg, fun hcg => by simpa [hcg] using hc⟩
  | stop message wait =>
    simp only [jobStep, jobStop]
    split
    · exact h
    · exact changeGoalFor_tells (h.setEnv job.startEnv none) (by simp) (by simp)
  | restart message wait =>
    simp only [jobStep, jobRestart]
    split
    · exact h
    · rename_i hg
      exact restartFor_tells (h.setEnv none none) (hmanned hg)
  | classStart env message wait =>
    simp only [jobStep, jobClassStartInstance]
    split
    · exact h
    · rename_i hg
      exact replyPath_tells (changeGoalFor_tells (h.setEnv (some env) job.stopEnv) (by simp)
        fun _ => hmanned hg)
  | classStop env message wait =>
    simp only [jobStep, jobClassStopInstance]
    split
    · exact h
    · exact changeGoalFor_tells (h.setEnv job.startEnv (some env)) (by simp) (by simp)
  | classRestart env message wait =>
    simp only [jobStep, jobClassRestartInstance]
    split
    · exact h
    · rename_i hg
      exact replyPath_tells (restartFor_tells (h.setEnv (some env) none) (hmanned hg))
  | stopEvent event => exact handleStopOn_tells h
  | induct startOn env => exact inductInstance_tells h (hmanned trivial)
  | blockerFinished => exact blockerFinished_tells h he
  | childError pid permanent => exact jobProcessChildReader_tells h
  | childClosed pid => exact jobProcessCloseHandler_tells h
  | childEvent process event => exact jobProcessHandler_tells h he
  | readyText pid buf =>
    simp only [jobStep, jobProcessReadyfdReader]
    split
    · exact h.advance (.refl job)
    · exact h
  | killTimer =>
    refine sat_assert (fun _ => trivial) fun _ => ?_
    split
    · trivial
    · exact sat_assert (fun _ => trivial) fun _ => h.same ⟨rfl, rfl, rfl, rfl, rfl, id⟩
  | elsewhere sys' => exact h

/-- The runs in which no job is revived. -/
abbrev NoRevival : Host → Sys → Job → Input → Prop := fun x _ job i => ¬ revives x job i

theorem reached_sound {s : Sys × JobRef} (h : Reached NoRevival s) : s.2.All Sound :=
  Reached.invariant (fun _ _ _ _ _ => jobNew_sound _ _ _ _ _)
    (fun _ _ _ _ h he hn => jobStep_tells h he hn) h

/-- A job with a main process that runs with the goal to run has its main
process. -/
theorem reached_running {s : Sys × JobRef} (h : Reached NoRevival s) :
    s.2.All fun job => job.has .main = true → job.state = .running → job.goal = .start →
      0 < job.pid .main := by
  have hsound := reached_sound h
  revert hsound
  cases s.2 with
  | live job =>
    exact fun hj hm hs hg => of_decide_eq_true (hj.honest.main hm hg (.inr (.inl hs)))
  | freed job => exact fun _ => trivial

/-- A job of a service that has been started. -/
theorem reached_running_started :
    ∃ sys job, Reached NoRevival (sys, .live job) ∧ job.state = .running ∧
      job.goal = .start ∧ 0 < job.pid .main := by
  have hquiet : ∀ {x : Host} {job : Job} {i : Input}, job.state ≠ .postStart →
      job.state ≠ .preStop → ¬ revives x job i := fun h₁ h₂ h => h.1.elim h₁ h₂
  have h₀ := reached_newRun NoRevival (plainClass [.main])
  have h₁ := h₀.next (.changeGoal .start)
    ⟨by simp [Enabled], hquiet (by simp [jobNew]) (by simp [jobNew])⟩ rfl
  have h₂ := h₁.next .blockerFinished ⟨rfl, hquiet (by decide) (by decide)⟩ rfl
  have h₃ := h₂.next (.childClosed 1) ⟨rfl, hquiet (by decide) (by decide)⟩ rfl
  exact ⟨_, _, h₃, rfl, rfl, reached_running h₃ rfl rfl rfl⟩

/-- The main process ends while the job waits for its `pre-stop` process; then
the job is started again, and the `pre-stop` process ends. -/
theorem revival_running :
    ∃ sys job, Reached Always (sys, .live job) ∧ job.has .main = true ∧
      job.state = .running ∧ job.goal = .start ∧ ¬ 0 < job.pid .main := by
  have h₀ := reached_newRun Always (plainClass [.main, .preStop])
  have h₁ := h₀.next (.changeGoal .start) ⟨by simp [Enabled], trivial⟩ rfl
  have h₂ := h₁.next .blockerFinished ⟨rfl, trivial⟩ rfl
  have h₃ := h₂.next (.childClosed 1) ⟨rfl, trivial⟩ rfl
  have h₄ := h₃.next (.stop 1 true) ⟨trivial, trivial⟩ rfl
  have h₅ := h₄.next (.childClosed 2) ⟨rfl, trivial⟩ rfl
  have h₆ := h₅.next (.childEvent .main (.exited 0)) ⟨rfl, trivial⟩ rfl
  have h₇ := h₆.next (.start 2 true) ⟨trivial, trivial⟩ rfl
  have h₈ := h₇.next (.childEvent .preStop (.exited 0)) ⟨rfl, trivial⟩ rfl
  exact ⟨_, _, h₈, rfl, rfl, rfl, by decide⟩

end Startup
