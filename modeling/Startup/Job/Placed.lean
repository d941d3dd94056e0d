import Startup.Job.Settled

/-!
# Where the processes of a job may be

`Placed` says that a process runs only in the states in which
`job_process_terminated` accepts its end.  A job that is settled and placed
trips none of the assertions of the state machine, and stays settled and
placed (`Good`), whatever happens to it but for one kind of input: a set-up
error of one process that moves the job on while another process is awaited
(`strayError`).
-/

namespace Startup

open Lib

/-- The states in which a process may run after it has been spawned. -/
def ProcessType.mayRun (state : JobState) : ProcessType → Bool
  | .main => state = .spawned || state = .postStarting || state = .postStart ||
      state = .running || state = .preStopping || state = .preStop || state = .stopping ||
      state = .killed
  | p => state = p.waitState

/-- Processes run where they may, and a job that was never started has none. -/
structure Placed (job : Job) : Prop where
  processes : ∀ p, job.alive p = true → job.has p = true ∧ p.mayRun job.state = true
  fresh : job.state = .waiting → job.datas = []

theorem ProcessType.mayEnd_of_mayRun {state : JobState} {p : ProcessType}
    (h : p.mayRun state = true) (hs : state.spawning? = false) : MayEnd state p = true := by
  cases p <;> cases state <;> simp_all [mayRun, MayEnd, waitState, JobState.spawning?]

/-- A process other than the main one runs only where it is awaited. -/
theorem ProcessType.eq_waitState_of_mayRun {state : JobState} {p : ProcessType}
    (h : p.mayRun state = true) (hp : p ≠ .main) : state = p.waitState := by
  cases p <;> simp_all [mayRun]

theorem ProcessType.driver_of_mayRun {state : JobState} {p : ProcessType}
    (h : p.mayRun state = true) (hp : p ≠ .main) : state.driver = some p := by
  rw [ProcessType.eq_waitState_of_mayRun h hp, p.driver_waitState]

/-- The processes beside which the main one may run. -/
theorem ProcessType.beside_main {p : ProcessType} (hp : p ≠ .main)
    (hmay : ProcessType.main.mayRun p.waitState = true) : p = .postStart ∨ p = .preStop := by
  cases p <;> simp_all [mayRun, waitState]

/-- No process is awaited, so that the job may be moved on: at most the main
process runs. -/
def Loose (job : Job) : Prop :=
  ∀ p, job.alive p = true → job.has p = true ∧ p = .main ∧
    (job.state = .spawned ∨ job.state = .postStart ∨ job.state = .running ∨
      job.state = .preStop ∨ job.state = .stopping)

theorem Placed.same {job job' : Job} (h : Placed job) (hc : SameCore job job') : Placed job' := by
  refine ⟨fun p hp => ?_, fun hs => hc.datas (h.fresh (hc.state ▸ hs))⟩
  rw [hc.has, hc.state]
  exact h.processes p (hc.alive p ▸ hp)

theorem Loose.same {job job' : Job} (h : Loose job) (hc : SameCore job job') : Loose job' := by
  intro p hp
  rw [hc.has, hc.state]
  exact h p (hc.alive p ▸ hp)

theorem Loose.setGoal {job : Job} (h : Loose job) (goal : JobGoal) : Loose (job.setGoal goal) :=
  h

/-- A process that is no longer there is in no wrong place. -/
theorem Placed.clear {job : Job} (h : Placed job) (p : ProcessType) : Placed (job.setPid p 0) :=
  ⟨fun q hq => h.processes q (alive_setPid_zero.mp hq).2, h.fresh⟩

theorem Placed.setGoal {job : Job} (h : Placed job) (goal : JobGoal) :
    Placed (job.setGoal goal) := ⟨h.processes, h.fresh⟩

/-! ## Changing the state -/

/-- What holds at the head of the loop of `job_change_state`: the processes
that run may do so in the state that the loop heads for. -/
structure Bound (x : Host) (job : Job) (state : JobState) : Prop where
  processes : ∀ p, job.alive p = true → job.has p = true ∧ p.mayRun state = true
  runs : ∀ p, job.alive p = true → job.state = p.spawnState → job.runs x p = true
  waiting : job.state = state → state ≠ .waiting

theorem ProcessType.mayRun_spawnState {p q : ProcessType} (h : p.mayRun q.spawnState = true) :
    p = .main ∧ p.mayRun q.waitState = true := by
  cases p <;> cases q <;> simp_all [mayRun, spawnState, waitState]

theorem ProcessType.mayRun_waitState (p : ProcessType) : p.mayRun p.waitState = true := by
  cases p <;> simp [mayRun, waitState]

theorem ProcessType.mayRun_afterState {p q : ProcessType} {goal : JobGoal}
    (h : p.mayRun q.waitState = true) (hne : p ≠ q) : p.mayRun (q.afterState goal) = true := by
  cases p <;> cases q <;> simp_all [mayRun, waitState, afterState]

/-- One pass of the loop. -/
theorem Enters.bound {x : Host} {sys : Sys} {job : Job} {state : JobState} {pass : Pass}
    (h : Enters x sys job.state { job with state := state } pass)
    (hb : Bound x job state) :
    pass.Holds (fun _ job' state' => Bound x job' state') (fun _ _ => True) := by
  have hstay : ∀ {job' : Job}, job'.state = state → job'.pid = job.pid → job'.cls = job.cls →
      state ≠ .waiting → (∀ p : ProcessType, state ≠ p.spawnState) → Bound x job' state := by
    intro job' hs hpid hcls hw hspawn
    refine ⟨fun p hp => ?_, fun p _ hps => absurd (hs.symm.trans hps) (hspawn p),
      fun _ => hw⟩
    have hp : job.alive p = true := by simpa [Job.alive, hpid] using hp
    simpa [Job.has, hcls] using hb.processes p hp
  cases h with
  | spawn p proc st goal ne from_ runs proc_ =>
    have st : state = p.spawnState := st
    refine ⟨fun q hq => ?_, fun q hq hqs => ?_, fun hs => ?_⟩
    · by_cases hqp : q = p
      · subst hqp
        have hhas : job.cls.process q = some proc := proc_
        exact ⟨by simp [Job.has, processStarted, hhas], q.mayRun_waitState⟩
      · have hq : job.alive q = true := by
          simpa [Job.alive, processStarted, Function.update, hqp] using hq
        obtain ⟨hhas, hmay⟩ := hb.processes q hq
        exact ⟨hhas, (ProcessType.mayRun_spawnState (st ▸ hmay)).2⟩
    · have hqs : state = q.spawnState := hqs
      rw [← ProcessType.spawnState_inj (st.symm.trans hqs)]
      exact runs
    · exact absurd (st.symm.trans hs) (p.spawnState_ne_waitState p)
  | noSpawn p st goal ne from_ runs =>
    have st : state = p.spawnState := st
    refine ⟨fun q hq => ?_, fun q hq hqs => ?_, fun hs => ?_⟩
    · obtain ⟨hhas, hmay⟩ := hb.processes q hq
      exact ⟨hhas, (ProcessType.mayRun_spawnState (st ▸ hmay)).2⟩
    · have hqs : state = q.spawnState := hqs
      obtain ⟨-, hmay⟩ := hb.processes q hq
      -- a process does not run in the state in which it is spawned
      rw [hqs] at hmay
      obtain ⟨rfl, -⟩ := ProcessType.mayRun_spawnState hmay
      simp [ProcessType.mayRun, ProcessType.spawnState] at hmay
    · exact absurd (st.symm.trans hs) (p.spawnState_ne_waitState p)
  | skip p st goal ne from_ runs =>
    have st : state = p.waitState := st
    refine ⟨fun q hq => ?_, fun q hq hqs => ?_, fun hs => ?_⟩
    · obtain ⟨hhas, hmay⟩ := hb.processes q hq
      refine ⟨hhas, ProcessType.mayRun_afterState (st ▸ hmay) ?_⟩
      rintro rfl
      have hruns := hb.runs q hq from_
      exact absurd (hruns.symm.trans runs) (by simp)
    · exact absurd ((show state = q.spawnState from hqs).symm.trans st)
        (q.spawnState_ne_waitState p)
    · exact absurd (st.symm.trans hs) (p.afterState_ne_waitState job.goal)
  | dead st goal from_ dead =>
    have st : state = .killed := st
    refine ⟨fun q hq => ?_, fun q hq hqs => ?_, fun hs => ?_⟩
    · obtain ⟨hhas, hmay⟩ := hb.processes q hq
      have hq : job.alive q = true := hq
      subst st
      cases q <;> simp_all [ProcessType.mayRun, ProcessType.waitState, Job.has, Job.alive]
    · have hqs : state = q.spawnState := hqs
      cases q <;> simp [st, ProcessType.spawnState] at hqs
    · have hs : state = .postStopping := hs
      simp [st] at hs
  | wait p st goal from_ runs =>
    have st : state = p.waitState := st
    refine hstay rfl rfl rfl ?_ fun q hq => ?_
    · rw [st]
      cases p <;> simp [ProcessType.waitState]
    · exact q.spawnState_ne_waitState p (hq.symm.trans st)
  | waiting => trivial
  | starting st | resumed st | running st | runningTask st | stopping st | kill st =>
    have st : state = _ := st
    refine hstay rfl rfl rfl (by simp [st]) fun q => ?_
    rw [st]
    cases q <;> simp [ProcessType.spawnState]

variable {D : ProcessType → Prop} {x : Host} {sys : Sys} {job : Job}

/-- The loop leaves a placed job. -/
theorem jobChangeState_placed {state : JobState} (h : Bound x job state)
    (hb : job.blocker = none) :
    Sat (jobChangeState x sys job state) (fun r => r.2.All Placed) (fun _ => True) := by
  refine (jobChangeState_rest (I := fun _ job state => Bound x job state)
    (F := fun _ _ => True) (fun _ _ _ _ h _ _ hpass => hpass.bound h)
    (fun _ _ _ _ _ _ _ _ => trivial) hb h).imp ?_
  rintro ⟨sys, job | job⟩ h
  · exact ⟨h.processes, fun hw => absurd hw (h.waiting rfl)⟩
  · trivial

/-- The states that follow one in which no process but the main one is awaited
are open to the main process. -/
theorem Follows.mayRun {state : JobState} (hf : Follows job state)
    (hs : job.state = .spawned ∨ job.state = .postStart ∨ job.state = .running ∨
      job.state = .preStop ∨ job.state = .stopping) : ProcessType.mayRun state .main = true := by
  have hedge := hf.edge
  have hwaiting := hf.waiting
  revert hedge hwaiting
  rcases hs with hs | hs | hs | hs | hs <;> cases state <;>
    simp [hs, Startup.edge, ProcessType.mayRun]

/-- A job that is blocked or awaits no process is moved on safely. -/
theorem jobAdvance_placed (hrest : job.state.spawning? = false) (hnext : NextOk job)
    (hblocked : job.blocker.isSome = true → Placed job)
    (hfree : job.blocker = none → Loose job) :
    Sat (jobAdvance x sys job) (fun r => r.2.All Placed) (fun f => f.ofStateMachine = false) := by
  refine ((jobAdvance_rule (Q := fun r => r.2.All Placed) (E := fun _ => True) hrest
    (fun _ => trivial) ?_ ?_).and (jobAdvance_safe hrest hnext)).mono
    (fun _ h => h.1) fun _ h => h.2
  · exact fun hb => (hblocked hb).setGoal _
  · intro state hb hf
    refine jobChangeState_placed ⟨?_, ?_, ?_⟩ hb
    · intro p hp
      obtain ⟨hhas, rfl, hs⟩ := hfree hb p hp
      exact ⟨hhas, hf.mayRun hs⟩
    · intro p hp hs
      have hs : job.state = p.spawnState := hs
      rw [hs] at hrest
      cases p <;> simp [ProcessType.spawnState, JobState.spawning?] at hrest
    · exact fun hs => absurd hs.symm hf.ne

/-! ## Good jobs -/

/-- The invariant of a run. -/
structure Good (job : Job) : Prop where
  settled : Settled (· ≠ .security) job
  placed : Placed job

/-- The program trips no assertion of the state machine, and leaves a good job
if it leaves one. -/
def Keeps (m : Except Fault (Sys × JobRef)) : Prop :=
  Sat m (fun r => r.2.All Good) (fun f => f.ofStateMachine = false)

theorem Keeps.of {m : Except Fault (Sys × JobRef)} (h : Settling (· ≠ .security) m)
    (h' : Sat m (fun r => r.2.All Placed) (fun f => f.ofStateMachine = false)) : Keeps m := by
  refine (Sat.and h h').mono ?_ fun _ h => h.2
  rintro ⟨sys, job | job⟩ h
  · exact ⟨h.1, h.2⟩
  · trivial

theorem Good.same {job' : Job} (h : Good job) (hc : SameCore job job') : Good job' :=
  ⟨h.settled.same hc, h.placed.same hc⟩

/-- Moving on a job that has just lost a process. -/
theorem jobAdvance_keeps (h : Settled D job) (hw : job.state = .waiting → job.goal = .start)
    (hblocked : job.blocker.isSome = true → Placed job)
    (hfree : job.blocker = none → Loose job) : Keeps (jobAdvance x sys job) :=
  .of h.advance (jobAdvance_placed h.resting (h.nextOk hw) hblocked hfree)

/-- In the natural rest states only the main process runs. -/
theorem Placed.loose (h : Placed job) (hs : job.state = .waiting ∨ job.state = .running ∨
    job.state = .spawned ∨ job.state = .stopping) : Loose job := by
  intro p hp
  obtain ⟨hhas, hmay⟩ := h.processes p hp
  refine ⟨hhas, ?_⟩
  rcases hs with hs | hs | hs | hs <;> cases p <;>
    simp_all [ProcessType.mayRun, ProcessType.waitState]

theorem jobChangeGoal_keeps {goal : JobGoal} (h : Good job)
    (hr : goal = .respawn → job.state = .postStart ∨ job.state = .preStop) :
    Keeps (jobChangeGoal x sys job goal) := by
  refine .of (h.settled.changeGoal hr) ?_
  rw [jobChangeGoal_eq]
  split
  · rename_i hm
    have hloose : Loose job := h.placed.loose (by
      rcases hm.2 with ⟨-, hs⟩ | ⟨-, hs⟩ <;> simp [hs])
    refine jobAdvance_placed h.settled.resting ⟨fun hs => ?_, fun hg => ?_⟩
      (fun _ => h.placed.setGoal goal) fun _ => hloose
    · rcases hm.2 with ⟨rfl, -⟩ | ⟨-, hs'⟩
      · rfl
      · exact absurd (hs.symm.trans hs') (by simp)
    · exact hr hg
  · exact h.placed.setGoal goal

/-! ## The end of a process -/

/-- When an awaited process has ended, no process is awaited; nor when the main
process has ended that the state depends on. -/
theorem Placed.loose_clear {p : ProcessType} (h : Placed job) (hp : job.alive p = true)
    (hw : p = .main → job.waits = false) : Loose (job.setPid p 0) := by
  intro q hq
  obtain ⟨hne, halive⟩ := alive_setPid_zero.mp hq
  obtain ⟨hhas, hmay⟩ := h.processes q halive
  obtain ⟨hhasp, hmayp⟩ := h.processes p hp
  refine ⟨hhas, ?_⟩
  by_cases hqm : q = .main
  · subst hqm
    have hstate := ProcessType.eq_waitState_of_mayRun hmayp hne.symm
    refine ⟨rfl, ?_⟩
    show job.state = .spawned ∨ job.state = .postStart ∨ job.state = .running ∨
      job.state = .preStop ∨ job.state = .stopping
    rw [hstate] at hmay ⊢
    rcases ProcessType.beside_main hne.symm hmay with rfl | rfl
    · exact .inr (.inl rfl)
    · exact .inr (.inr (.inr (.inl rfl)))
  · exfalso
    have hstate := ProcessType.eq_waitState_of_mayRun hmay hqm
    by_cases hpm : p = .main
    · -- the job waits for the process `q`
      subst hpm
      have hw := hw rfl
      rw [hstate] at hmayp
      rcases ProcessType.beside_main hqm hmayp with rfl | rfl <;>
        simp [Job.waits, hstate, ProcessType.waitState, hhas, halive] at hw
    · have hd := ProcessType.driver_of_mayRun hmay hqm
      have hd' := ProcessType.driver_of_mayRun hmayp hpm
      exact hne (Option.some.inj (hd.symm.trans hd'))

/-- What the `switch` of `job_process_terminated` leaves. -/
theorem Terminates.placed {p : ProcessType} {status : Int} {sys' : Sys} {job' : Job}
    {v : Verdict} (ht : Terminates x sys job status p sys' (.live job') v) (h : Good job)
    (hp : job.alive p = true) :
    Placed job' ∧ (v.state = true → Loose (job'.setPid p 0)) := by
  have hcore := jobProcessCatchRunaway_core x job
  have hloose : (p = .main → job.waits = false) → Loose (job.setPid p 0) :=
    h.placed.loose_clear hp
  cases ht with
  | process p failed ne => exact ⟨h.placed, fun _ => hloose fun hpm => absurd hpm ne⟩
  | killed state =>
    exact ⟨h.placed, fun _ => hloose fun _ => by simp [Job.waits, state]⟩
  | stopping state => exact ⟨h.placed, by simp⟩
  | goal state goal => exact ⟨h.placed, fun hv => hloose fun _ => by simpa using hv⟩
  | stop failed state goal => exact ⟨h.placed, fun hv => hloose fun _ => by simpa using hv⟩
  | runaway state goal fail =>
    have hcore' := hcore.trans fail.core
    exact ⟨h.placed.same hcore',
      fun hv => (hloose fun _ => by simpa using hv).same (hcore'.setPid .main 0)⟩
  | respawnLater waits goal => exact ⟨(h.placed.same hcore).setGoal _, by simp⟩
  | respawnSpawned state goal change =>
    have hb : job.blocker = none := by
      have := h.settled.blocked
      simpa [state] using this
    obtain ⟨e, heq⟩ := Terminates.respawnSpawned_eq state hb change
    cases heq
    refine ⟨⟨fun q hq => ?_, by simp⟩, by simp⟩
    have hplaced := h.placed.same hcore
    obtain ⟨hhas, hmay⟩ := hplaced.processes q hq
    rw [hcore.state, state] at hmay
    refine ⟨hhas, ?_⟩
    cases q <;> simp_all [ProcessType.mayRun, ProcessType.waitState]
  | respawn state waits goal =>
    exact ⟨h.placed.same hcore,
      fun _ => (hloose fun _ => waits).same (hcore.setPid .main 0)⟩

/-- The `switch` of `job_process_terminated` changes the state at most to
stopping. -/
theorem Terminates.state {p : ProcessType} {status : Int} {sys' : Sys} {job' : Job}
    {v : Verdict} (ht : Terminates x sys job status p sys' (.live job') v)
    (h : Settled D job) : job'.state = job.state ∨ job'.state = .stopping := by
  have hcore := jobProcessCatchRunaway_core x job
  cases ht with
  | runaway state goal fail => exact .inl (hcore.trans fail.core).state
  | respawnLater => exact .inl hcore.state
  | respawnSpawned state goal change =>
    have hb : job.blocker = none := by
      have := h.blocked
      simpa [state] using this
    obtain ⟨e, heq⟩ := Terminates.respawnSpawned_eq state hb change
    cases heq
    exact .inr rfl
  | respawn => exact .inl hcore.state
  | _ => exact .inl rfl

theorem afterTerminated_placed {p : ProcessType} {status : Int} {v : Verdict} (h : Good job)
    (hw : job.state ≠ .waiting) (hrun : job.state = .running → p = .main)
    (hv : v.state = true → Loose (job.setPid p 0)) :
    Sat (afterTerminated x sys job p status false v) (fun r => r.2.All Placed)
      (fun f => f.ofStateMachine = false) := by
  have hclear := h.placed.clear p
  refine afterTerminated_rule (fun f hf => hf.1) ?_ ?_ ?_
  · intro sys' job' he _ _
    exact hclear.same he.core
  · intro sys' job' he _ hvs
    have hset : Settled (fun _ => False) job' :=
      ((h.settled.setPid p 0).mono fun _ hf => hf.elim).same he.core
    exact jobAdvance_placed hset.resting
      (hset.nextOk fun hs => absurd (he.core.state.symm.trans hs) hw)
      (fun _ => hclear.same he.core) fun _ => (hv hvs).same he.core
  · intro sys' job' he _
    have hstate : job'.state = job.state := he.core.state
    have hset : Settled (fun _ => False) job' :=
      ((h.settled.setPid p 0).mono fun _ hf => hf.elim).same he.core
    rw [jobChangeGoal_eq]
    split
    · rename_i hm
      have hs : job'.state = .running := by
        rcases hm.2 with ⟨hm, -⟩ | ⟨-, hm⟩
        · cases hm
        · exact hm
      obtain rfl := hrun (hstate.symm.trans hs)
      have hdead : job'.alive .main = false := by
        rw [he.core.alive]
        simp [Job.alive, Job.setPid]
      have hb : job'.blocker = none := by
        have := hset.blocked
        simpa [hs] using this
      obtain ⟨sys₁, e, -, heq⟩ := jobAdvance_running_dead x sys'
        (show (job'.setGoal .stop).state = .running from hs) rfl hb
        (by rw [show (job'.setGoal .stop).alive .main = false from hdead, Bool.and_false])
      rw [heq]
      have hplaced : Placed { job'.setGoal .stop with state := .stopping, blocker := some e } := by
        refine ⟨fun q hq => ?_, by simp⟩
        have hj : Placed job' := hclear.same he.core
        obtain ⟨hhas, hmay⟩ := hj.processes q hq
        refine ⟨hhas, ?_⟩
        rw [hs] at hmay
        cases q <;> simp_all [ProcessType.mayRun, ProcessType.waitState]
      rintro j ⟨⟩
      refine ⟨fun _ => hplaced, fun _ _ => ?_⟩
      exact jobAdvance_placed (by simp [JobState.spawning?])
        ⟨by simp, by simp [Job.setGoal]⟩ (fun _ => hplaced) (by simp)
    · rename_i hm
      rintro j ⟨⟩
      have hj : Settled (fun _ => False) (job'.setGoal .stop) := hset.setGoal hm (by simp)
      refine ⟨fun _ => (hclear.same he.core).setGoal _, fun hs hvs => ?_⟩
      exact jobAdvance_placed hj.resting
        (hj.nextOk fun hs => absurd (hstate.symm.trans hs) hw)
        (fun _ => (hclear.same he.core).setGoal _) fun _ => ((hv hvs).same he.core).setGoal _

/-- Wherever a process may run, its end trips no assertion. -/
theorem jobProcessTerminated_keeps {p : ProcessType} {status : Int} (h : Good job)
    (hp : job.alive p = true) : Keeps (jobProcessTerminated x sys job p status false) := by
  obtain ⟨-, hmay⟩ := h.placed.processes p hp
  have hw : job.state ≠ .waiting := fun hs => by
    rw [hs] at hmay
    cases p <;> simp [ProcessType.mayRun, ProcessType.waitState] at hmay
  refine .of (jobProcessTerminated_settled h.settled) ?_
  refine jobProcessTerminated_rule h.settled.resting ?_ ?_
  · intro f hf
    have hend := ProcessType.mayEnd_of_mayRun hmay h.settled.resting
    by_contra hc
    exact absurd (hend.symm.trans (hf.1 (by simpa using hc))) (by simp)
  · intro sys' job' v ht
    obtain ⟨hplaced, hv⟩ := ht.placed h hp
    obtain ⟨hset, -⟩ := ht.settled h.settled
    have hstate := ht.state h.settled
    refine afterTerminated_placed ⟨hset, hplaced⟩ ?_ ?_ hv
    · rcases hstate with hs | hs
      · rw [hs]
        exact hw
      · simp [hs]
    · intro hs
      rcases hstate with hs' | hs'
      · by_contra hpm
        have hd := ProcessType.driver_of_mayRun hmay hpm
        rw [← hs', hs] at hd
        simp [JobState.driver] at hd
      · simp [hs] at hs'

end Startup
