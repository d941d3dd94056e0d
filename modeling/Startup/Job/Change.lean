import Startup.Job.Primitives

/-!
# Runs of `job_change_state`

* The states around a process: where it is spawned, where the job waits for
  it, and where the job goes when it has none.
* `Enters` lists what one pass of the loop can do, with the guards of each
  case; `jobEnterState_enters` says that the list is complete.
* `jobChangeState_rule` is the rule for the loop: an assertion that every pass
  keeps holds where the loop comes to rest.  Each pass lowers `JobState.rank`, so
  that the loop never runs out of fuel.
* `Heads` is the condition under which a pass trips none of the assertions of
  the state machine; the loop keeps it.
-/

namespace Startup

open Lib

/-! ## The states around a process -/

namespace ProcessType

/-- The state in which a process is spawned. -/
def spawnState : ProcessType → JobState
  | security => .securitySpawning
  | preStart => .preStarting
  | main => .spawning
  | postStart => .postStarting
  | preStop => .preStopping
  | postStop => .postStopping

/-- The state in which the job waits for a process. -/
def waitState : ProcessType → JobState
  | security => .security
  | preStart => .preStart
  | main => .spawned
  | postStart => .postStart
  | preStop => .preStop
  | postStop => .postStop

/-- The state from which the job goes on to spawn a process. -/
def fromState : ProcessType → JobState
  | security => .starting
  | preStart => .security
  | main => .preStart
  | postStart => .spawned
  | preStop => .running
  | postStop => .killed

/-- The state after the one in which the job would wait for a process that it
does not have. -/
def afterState (goal : JobGoal) : ProcessType → JobState
  | security => .preStarting
  | preStart => .spawning
  | main => .postStarting
  | postStart => .running
  | preStop => .stopping
  | postStop => if goal = .start then .starting else .waiting

/-- The goals with which a job spawns a process. -/
def GoalOk (goal : JobGoal) : ProcessType → Prop
  | preStop => goal = .stop
  | postStop => True
  | _ => goal = .start

instance (goal : JobGoal) (p : ProcessType) : Decidable (p.GoalOk goal) := by
  cases p <;> unfold GoalOk <;> infer_instance

end ProcessType

/-- Whether `job_change_state` spawns a process and waits for it. -/
def Job.runs (x : Host) (job : Job) (p : ProcessType) : Bool :=
  job.has p && (p ≠ .security || x.apparmorAvailable)

/-! ## One pass -/

/-- What a pass of the loop can do to a job that has just left `old` for
`job.state`. -/
inductive Enters (x : Host) (sys : Sys) (old : JobState) (job : Job) : Pass → Prop where
  | starting {sys' : Sys} {e : EventId} (state : job.state = .starting)
      (goal : job.goal = .start) (from_ : old = .waiting ∨ old = .postStop)
      (emit : Emitted sys job sys' e) :
      Enters x sys old job (.next sys' { job.renew with blocker := some e } job.state)
  | spawn (p : ProcessType) (proc : Process) (state : job.state = p.spawnState)
      (goal : p.GoalOk job.goal) (ne : job.goal ≠ .respawn) (from_ : old = p.fromState)
      (runs : job.runs x p = true) (proc_ : job.cls.process p = some proc) :
      Enters x sys old job (.next (processStarted sys job p proc).1
        (processStarted sys job p proc).2 p.waitState)
  | noSpawn (p : ProcessType) (state : job.state = p.spawnState)
      (goal : p.GoalOk job.goal) (ne : job.goal ≠ .respawn) (from_ : old = p.fromState)
      (runs : job.runs x p = false) :
      Enters x sys old job (.next sys job p.waitState)
  | wait (p : ProcessType) (state : job.state = p.waitState)
      (goal : p.GoalOk job.goal) (from_ : old = p.spawnState) (runs : job.runs x p = true) :
      Enters x sys old job (.next sys job job.state)
  | skip (p : ProcessType) (state : job.state = p.waitState)
      (goal : p.GoalOk job.goal) (ne : job.goal ≠ .respawn) (from_ : old = p.spawnState)
      (runs : job.runs x p = false) :
      Enters x sys old job (.next sys job (p.afterState job.goal))
  | resumed {sys' : Sys} (state : job.state = .running) (goal : job.goal = .start)
      (from_ : old = .preStop) (finish : Finished false sys job.blocking sys') :
      Enters x sys old job
        (.next sys' { job with stopEnv := none, blocking := [] } job.state)
  | running {sys₁ sys' : Sys} {e : EventId} (state : job.state = .running)
      (goal : job.goal = .start) (from_ : old = .postStart) (emit : Emitted sys job sys₁ e)
      (task : job.cls.task = false)
      (finish : Finished false sys₁ job.blocking sys') :
      Enters x sys old job (.next sys' { job with blocking := [] } job.state)
  | runningTask {sys' : Sys} {e : EventId} (state : job.state = .running)
      (goal : job.goal = .start) (from_ : old = .postStart) (emit : Emitted sys job sys' e)
      (task : job.cls.task = true) :
      Enters x sys old job (.next sys' job job.state)
  | stopping {sys' : Sys} {e : EventId} (state : job.state = .stopping)
      (from_ : old = .starting ∨ old = .preStarting ∨ old = .preStart ∨ old = .security ∨
        old = .spawned ∨ old = .postStart ∨ old = .running ∨ old = .preStop)
      (emit : Emitted sys job sys' e) :
      Enters x sys old job (.next sys' { job with blocker := some e } job.state)
  | kill {timer : Option Int} {proc : Option ProcessType} (state : job.state = .killed)
      (from_ : old = .stopping) (alive : job.has .main = true ∧ job.alive .main = true) :
      Enters x sys old job (.next (sys.act (.signalled (job.pid .main) job.cls.killSignal))
        { job with killTimer := timer, killProcess := proc } job.state)
  | dead (state : job.state = .killed) (goal : job.goal ≠ .respawn) (from_ : old = .stopping)
      (dead : (job.has .main && job.alive .main) = false) :
      Enters x sys old job (.next sys job .postStopping)
  | waiting {sys₁ sys' : Sys} {e : EventId} (state : job.state = .waiting)
      (goal : job.goal = .stop) (from_ : old = .postStop ∨ old = .starting)
      (emit : Emitted sys job sys₁ e)
      (finish : Finished false sys₁ job.blocking sys') :
      Enters x sys old job (.freed sys' { job with blocking := [] })

/-- The assertions with which a state may be entered from `old`, and what
`job_next_state` asserts where the entry ends with a call of it. -/
def edge (goal : JobGoal) (old : JobState) : JobState → Bool
  | .starting => goal = .start && (old = .waiting || old = .postStop)
  | .securitySpawning => goal = .start && old = .starting
  | .security => goal = .start && old = .securitySpawning
  | .preStarting => goal = .start && old = .security
  | .preStart => goal = .start && old = .preStarting
  | .spawning => goal = .start && old = .preStart
  | .spawned => goal = .start && old = .spawning
  | .postStarting => goal = .start && old = .spawned
  | .postStart => goal = .start && old = .postStarting
  | .running => goal = .start && (old = .postStart || old = .preStop)
  | .preStopping => goal = .stop && old = .running
  | .preStop => goal = .stop && old = .preStopping
  | .stopping => old = .starting || old = .preStarting || old = .preStart ||
      old = .security || old = .spawned || old = .postStart || old = .running ||
      old = .preStop
  | .killed => old = .stopping
  | .postStopping => old = .killed
  | .postStop => old = .postStopping
  | .waiting => goal = .stop && (old = .postStop || old = .starting)

theorem jobNextState_spawnState {job : Job} {p : ProcessType} (h : job.state = p.spawnState)
    (hg : p.GoalOk job.goal) (hne : job.goal ≠ .respawn) :
    jobNextState job = .ok (job, p.waitState) := by
  cases p <;> simp only [ProcessType.spawnState] at h <;>
    simp only [ProcessType.GoalOk] at hg <;> simp only [jobNextState, h, ProcessType.waitState]
  case postStop => cases hj : job.goal <;> simp_all
  all_goals rw [hg]

theorem jobNextState_waitState {job : Job} {p : ProcessType} (h : job.state = p.waitState)
    (hg : p.GoalOk job.goal) (hne : job.goal ≠ .respawn) :
    jobNextState job = .ok (job, p.afterState job.goal) := by
  cases p <;> simp only [ProcessType.waitState] at h <;>
    simp only [ProcessType.GoalOk] at hg <;> simp only [jobNextState, h, ProcessType.afterState]
  case postStop => cases hj : job.goal <;> simp_all
  all_goals rw [hg]

/-- What follows the assertions in a state where a process is spawned. -/
theorem spawnAndNext_enters {x : Host} {sys : Sys} {old : JobState} {job : Job}
    {p : ProcessType} (state : job.state = p.spawnState) (goal : p.GoalOk job.goal)
    (from_ : old = p.fromState) :
    Sat (spawnAndNext sys job p (job.runs x p)) (Enters x sys old job)
      (fun f => f = .assertFailed .jobNextState ∧ job.goal = .respawn) := by
  unfold spawnAndNext
  have hsome (hr : job.runs x p = true) : ∃ proc, job.cls.process p = some proc := by
    simp only [Job.runs, Job.has, Bool.and_eq_true] at hr
    exact Option.isSome_iff_exists.mp hr.1
  by_cases ne : job.goal = .respawn
  · -- only `postStop` is spawned with this goal, and `job_next_state` rejects it
    have hnext (j : Job) (hs : j.state = job.state) (hg : j.goal = job.goal) :
        jobNextState j = .error (.assertFailed .jobNextState) := by
      cases p <;> simp_all [ProcessType.GoalOk, ProcessType.spawnState, jobNextState]
    dsimp only
    split
    · rename_i hr
      obtain ⟨proc, hp⟩ := hsome hr
      simp only [jobProcessStart, hp, sat_bind, sat_ok]
      rw [hnext (processStarted sys job p proc).2 rfl rfl]
      exact ⟨rfl, ne⟩
    · simp only [sat_bind, sat_ok]
      rw [hnext _ rfl rfl]
      exact ⟨rfl, ne⟩
  · cases hr : job.runs x p with
    | false =>
      simp only [Bool.false_eq_true, if_false, sat_bind, sat_ok,
        jobNextState_spawnState state goal ne]
      exact .noSpawn p state goal ne from_ hr
    | true =>
      obtain ⟨proc, hp⟩ := hsome hr
      have hnext : jobNextState (processStarted sys job p proc).2 =
          .ok ((processStarted sys job p proc).2, p.waitState) :=
        jobNextState_spawnState state goal ne
      simp only [if_true, jobProcessStart, hp, sat_bind, sat_ok, hnext]
      exact .spawn p proc state goal ne from_ hr hp

/-- What follows the assertions in a state where a process is waited for. -/
theorem nextUnless_enters {x : Host} {sys : Sys} {old : JobState} {job : Job}
    {p : ProcessType} (state : job.state = p.waitState) (goal : p.GoalOk job.goal)
    (from_ : old = p.spawnState) :
    Sat (nextUnless sys job (job.runs x p)) (Enters x sys old job)
      (fun f => f = .assertFailed .jobNextState ∧ job.goal = .respawn) := by
  unfold nextUnless
  cases hr : job.runs x p with
  | false =>
    simp only [Bool.false_eq_true, if_false, sat_bind]
    by_cases ne : job.goal = .respawn
    · cases p <;> simp_all [ProcessType.GoalOk, ProcessType.waitState, jobNextState]
    · rw [jobNextState_waitState state goal ne]
      exact .skip p state goal ne from_ hr
  | true => exact .wait p state goal from_ hr

/-- The faults that entering `job.state` from `old` can end with: an assertion
of the state machine only where `edge` says so or the goal is to respawn, and a
fault of the queue only where the job does not hold its blocks. -/
structure EnterFault (sys : Sys) (old : JobState) (job : Job) (f : Fault) : Prop where
  edge : f.ofStateMachine = true → job.goal ≠ .respawn → edge job.goal old job.state = false
  queue : f.ofQueue = true → ¬ Releasable sys job.blocking

/-! ## Every pass is one of those -/

theorem EnterFault.assertion {sys : Sys} {old : JobState} {job : Job}
    (h : Startup.edge job.goal old job.state = false) :
    EnterFault sys old job (.assertFailed .jobChangeState) :=
  ⟨fun _ _ => h, by simp [Fault.ofQueue]⟩

theorem EnterFault.respawn {sys : Sys} {old : JobState} {job : Job} {f : Fault}
    (h : f = .assertFailed .jobNextState ∧ job.goal = .respawn) : EnterFault sys old job f :=
  ⟨fun _ hne => absurd h.2 hne, by simp [h.1, Fault.ofQueue]⟩

theorem EnterFault.finish {sys sys' : Sys} {old : JobState} {job : Job} {f : Fault}
    (hr : Releasable sys job.blocking → Releasable sys' job.blocking)
    (h : f.ofStateMachine = false ∧ ¬ Releasable sys' job.blocking) :
    EnterFault sys old job f :=
  ⟨fun hf => by simp [h.1] at hf, fun _ hrel => h.2 (hr hrel)⟩

/-- The states in which a process is spawned and those in which it is waited
for begin with an assertion about the goal and one about the old state. -/
private theorem enter_process {x : Host} {sys : Sys} {old other : JobState} {job : Job}
    {p : ProcessType} {goal : JobGoal} {m : Except Fault Pass}
    (hedge : edge job.goal old job.state = (decide (job.goal = goal) && decide (old = other)))
    (hgoal : job.goal = goal → p.GoalOk job.goal)
    (hm : p.GoalOk job.goal → old = other →
      Sat m (Enters x sys old job)
        fun f => f = .assertFailed .jobNextState ∧ job.goal = .respawn) :
    Sat (do
      nihAssert .jobChangeState (job.goal = goal)
      nihAssert .jobChangeState (old = other)
      m) (Enters x sys old job) (EnterFault sys old job) := by
  refine sat_assert (fun h => .assertion (by simp [hedge, h])) fun h =>
    sat_assert (fun h' => .assertion (by simp [hedge, h'])) fun h' => ?_
  exact (hm (hgoal (by simpa using h)) (by simpa using h')).mono (fun _ => id)
    fun f hf => .respawn hf

/-- Everything that a pass of the loop of `job_change_state` can do. -/
theorem jobEnterState_enters (x : Host) (sys : Sys) (old : JobState) (job : Job) :
    Sat (jobEnterState x sys old job) (Enters x sys old job) (EnterFault sys old job) := by
  have hruns (p : ProcessType) (hp : p ≠ .security) : job.has p = job.runs x p := by
    simp [Job.runs, hp]
  have hsecurity : (job.has .security && x.apparmorAvailable) = job.runs x .security := by
    simp [Job.runs]
  unfold jobEnterState
  split
  case h_1 hs =>
    refine sat_assert (fun h => .assertion (by simp [hs, edge, h])) fun hg =>
      sat_assert (fun h => .assertion (by simp_all [edge])) fun ho => ?_
    obtain ⟨sys', e, he⟩ := jobEmitEvent_ok x sys job.renew
      (by simp [Job.renew, hs, JobState.emits])
    have hemit : Emitted sys job.renew sys' e := jobEmitEvent_emitted he
    simp only [he, sat_bind, sat_ok]
    exact .starting hs (by simpa using hg) (by simpa using ho)
      ⟨hemit.fresh, hemit.lastEvent, hemit.lastPid, hemit.log, hemit.events, hemit.named⟩
  case h_2 hs =>
    rw [hsecurity]
    exact enter_process (by simp [hs, edge]) id (spawnAndNext_enters (p := .security) hs)
  case h_3 hs =>
    rw [hsecurity]
    exact enter_process (by simp [hs, edge]) id (nextUnless_enters (p := .security) hs)
  case h_4 hs =>
    rw [hruns .preStart (by decide)]
    exact enter_process (by simp [hs, edge]) id (spawnAndNext_enters (p := .preStart) hs)
  case h_5 hs =>
    rw [hruns .preStart (by decide)]
    exact enter_process (by simp [hs, edge]) id (nextUnless_enters (p := .preStart) hs)
  case h_6 hs =>
    rw [hruns .main (by decide)]
    exact enter_process (by simp [hs, edge]) id (spawnAndNext_enters (p := .main) hs)
  case h_7 hs =>
    rw [hruns .main (by decide)]
    exact enter_process (by simp [hs, edge]) id (nextUnless_enters (p := .main) hs)
  case h_8 hs =>
    rw [hruns .postStart (by decide)]
    exact enter_process (by simp [hs, edge]) id (spawnAndNext_enters (p := .postStart) hs)
  case h_9 hs =>
    rw [hruns .postStart (by decide)]
    exact enter_process (by simp [hs, edge]) id (nextUnless_enters (p := .postStart) hs)
  case h_10 hs =>
    refine sat_assert (fun h => .assertion (by simp [hs, edge, h])) fun hg =>
      sat_assert (fun h => .assertion (by simp_all [edge])) fun ho => ?_
    have hg : job.goal = .start := by simpa using hg
    split
    · rename_i ho
      rw [sat_bind]
      refine jobFinished_sat.mono ?_ fun f hf => .finish id hf
      rintro ⟨sys', _⟩ ⟨rfl, hfin⟩
      exact .resumed hs hg ho hfin
    · rename_i hno
      have ho : old = .postStart := by simpa [hno] using ho
      obtain ⟨sys₁, e, he⟩ := jobEmitEvent_ok x sys job (by simp [hs, JobState.emits])
      have hemit := jobEmitEvent_emitted he
      simp only [he, sat_bind, sat_ok]
      cases ht : job.cls.task with
      | true => exact .runningTask hs hg ho hemit ht
      | false =>
        rw [if_pos (by rfl), sat_bind]
        refine jobFinished_sat.mono ?_ fun f hf => .finish hemit.releasable hf
        rintro ⟨sys', _⟩ ⟨rfl, hfin⟩
        exact .running hs hg ho hemit ht hfin
  case h_11 hs =>
    rw [hruns .preStop (by decide)]
    exact enter_process (by simp [hs, edge]) id (spawnAndNext_enters (p := .preStop) hs)
  case h_12 hs =>
    rw [hruns .preStop (by decide)]
    exact enter_process (by simp [hs, edge]) id (nextUnless_enters (p := .preStop) hs)
  case h_13 hs =>
    refine sat_assert (fun h => .assertion (by simp_all [edge])) fun ho => ?_
    obtain ⟨sys', e, he⟩ := jobEmitEvent_ok x sys job (by simp [hs, JobState.emits])
    simp only [he, sat_bind, sat_ok]
    exact .stopping hs (by simpa using ho) (jobEmitEvent_emitted he)
  case h_14 hs =>
    refine sat_assert (fun h => .assertion (by simp_all [edge])) fun ho => ?_
    have ho : old = .stopping := by simpa using ho
    split
    · rename_i ha
      rw [sat_bind]
      refine jobProcessKill_sat.mono ?_ fun f hf => ⟨fun h => by simp [hf, Fault.ofStateMachine] at h,
        fun h => by simp [hf, Fault.ofQueue] at h⟩
      rintro ⟨_, _⟩ ⟨rfl, timer, proc, rfl⟩
      exact .kill hs ho (by simpa using ha)
    · rename_i ha
      have ha : (job.has .main && job.alive .main) = false := by simpa using ha
      cases hg : job.goal with
      | respawn =>
        simp only [jobNextState, hs, hg, sat_bind, sat_error]
        exact .respawn ⟨rfl, hg⟩
      | stop =>
        simp only [jobNextState, hs, hg, sat_bind, sat_ok]
        exact .dead hs (by simp [hg]) ho ha
      | start =>
        simp only [jobNextState, hs, hg, sat_bind, sat_ok]
        exact .dead hs (by simp [hg]) ho ha
  case h_15 hs =>
    rw [hruns .postStop (by decide)]
    refine sat_assert (fun h => .assertion (by simp_all [edge])) fun ho => ?_
    exact (spawnAndNext_enters (p := .postStop) hs trivial (of_decide_eq_true ho)).mono
      (fun _ => id) fun f hf => .respawn hf
  case h_16 hs =>
    rw [hruns .postStop (by decide)]
    refine sat_assert (fun h => .assertion (by simp_all [edge])) fun ho => ?_
    exact (nextUnless_enters (p := .postStop) hs trivial (of_decide_eq_true ho)).mono
      (fun _ => id) fun f hf => .respawn hf
  case h_17 hs =>
    refine sat_assert (fun h => .assertion (by simp_all [edge])) fun hg =>
      sat_assert (fun h => .assertion (by simp_all [edge])) fun ho => ?_
    obtain ⟨sys₁, e, he⟩ := jobEmitEvent_ok x sys job (by simp [hs, JobState.emits])
    have hemit := jobEmitEvent_emitted he
    simp only [he, sat_bind, sat_ok]
    refine jobFinished_sat.mono ?_ fun f hf => .finish hemit.releasable hf
    rintro ⟨sys', _⟩ ⟨rfl, hfin⟩
    exact .waiting hs (by simpa using hg) (by simpa using ho) hemit hfin

/-! ## The loop -/

/-- What a pass leaves satisfies `I` if the loop goes on and `F` if the job has
been freed. -/
def Pass.Holds (I : Sys → Job → JobState → Prop) (F : Sys → Job → Prop) : Pass → Prop
  | .next sys job state => I sys job state
  | .freed sys job => F sys job

/-- Where the loop ends: the job has the state it headed for or waits for an
event, or it has been freed. -/
def Settles (I : Sys → Job → JobState → Prop) (F : Sys → Job → Prop) : Sys × JobRef → Prop
  | (sys, .live job) => ∃ state, I sys job state ∧ (job.state = state ∨ job.blocker.isSome)
  | (sys, .freed job) => F sys job

/-- How many states a run of the loop can still go through. -/
def JobState.rank : JobState → Nat
  | .securitySpawning => 9
  | .security => 8
  | .preStarting => 7
  | .preStart => 6
  | .spawning => 5
  | .spawned => 4
  | .postStarting => 3
  | .postStart => 2
  | .preStopping => 3
  | .preStop => 2
  | .killed => 4
  | .postStopping => 3
  | .postStop => 2
  | .running | .stopping | .starting | .waiting => 1

/-- Every pass brings the loop nearer to its end. -/
theorem Enters.rank {x : Host} {sys : Sys} {old : JobState} {job : Job} {pass : Pass}
    (h : Enters x sys old job pass) :
    pass.Holds (fun _ job' state => job'.state = state ∨ state.rank < job.state.rank)
      (fun _ _ => True) := by
  cases h with
  | spawn p proc state =>
    right
    rw [state]
    cases p <;> simp [ProcessType.spawnState, ProcessType.waitState, JobState.rank]
  | noSpawn p state =>
    right
    rw [state]
    cases p <;> simp [ProcessType.spawnState, ProcessType.waitState, JobState.rank]
  | skip p state =>
    right
    rw [state]
    cases p <;> cases job.goal <;> decide
  | dead state => exact .inr (by simp [state, JobState.rank])
  | waiting => trivial
  | _ => exact .inl rfl

/-- The rule for the loop of `job_change_state`: what a pass does, and how it can
fail. -/
theorem jobChangeState_passes {x : Host} {I : Sys → Job → JobState → Prop}
    {F : Sys → Job → Prop} {E : Fault → Prop}
    (hpass : ∀ sys job state, I sys job state → job.state ≠ state → job.blocker = none →
      Sat (jobEnterState x sys job.state { job with state := state }) (Pass.Holds I F) E)
    {sys : Sys} {job : Job} {state : JobState} (h : I sys job state) :
    Sat (jobChangeState x sys job state) (Settles I F) E := by
  unfold jobChangeState
  have hfuel : job.state = state ∧ 0 < 17 ∨ state.rank + 1 < 17 :=
    .inr (by cases state <;> simp [JobState.rank])
  generalize 17 = fuel at hfuel
  induction fuel generalizing sys job state with
  | zero => simp at hfuel
  | succ fuel ih =>
    unfold jobChangeStateLoop
    split
    · rename_i hs
      exact ⟨state, h, .inl hs⟩
    · rename_i hs
      split
      · rename_i hb
        exact ⟨state, h, .inr hb⟩
      · rename_i hb
        have hb : job.blocker = none := by simpa using hb
        have hfuel : state.rank < fuel := by
          rcases hfuel with ⟨h, -⟩ | h
          · exact absurd h hs
          · omega
        rw [sat_bind]
        refine ((hpass sys job state h hs hb).and
          (jobEnterState_enters x sys job.state { job with state := state })).mono ?_
          fun f hf => hf.1
        intro pass hpass'
        have hholds := hpass'.1
        have hrank : pass.Holds (fun _ job' state' => job'.state = state' ∨
            state'.rank < state.rank) (fun _ _ => True) := hpass'.2.rank
        cases pass with
        | next sys' job' state' =>
          refine ih hholds ?_
          rcases hrank with hrest | hlt
          · exact .inl ⟨hrest, by omega⟩
          · exact .inr (by omega)
        | freed sys job => exact hholds

/-- The rule for the loop from what a pass can do. -/
theorem jobChangeState_rule {x : Host} {I : Sys → Job → JobState → Prop}
    {F : Sys → Job → Prop} {E : Fault → Prop}
    (hpass : ∀ sys job state pass, I sys job state → job.state ≠ state → job.blocker = none →
      Enters x sys job.state { job with state := state } pass → pass.Holds I F)
    (hfault : ∀ sys job state f, I sys job state → job.state ≠ state → job.blocker = none →
      EnterFault sys job.state { job with state := state } f → E f)
    {sys : Sys} {job : Job} {state : JobState} (h : I sys job state) :
    Sat (jobChangeState x sys job state) (Settles I F) E := by
  refine jobChangeState_passes (fun sys job state h hs hb => ?_) h
  exact (jobEnterState_enters x sys job.state { job with state := state }).mono
    (fun pass hpass' => hpass sys job state pass h hs hb hpass')
    fun f hf => hfault sys job state f h hs hb hf

/-- A pass that makes the job wait for an event is the last one. -/
theorem Enters.blocked {x : Host} {sys : Sys} {old : JobState} {job : Job} {pass : Pass}
    (h : Enters x sys old job pass) (hb : job.blocker = none) :
    pass.Holds (fun _ job' state => job'.blocker = none ∨ job'.state = state)
      (fun _ _ => True) := by
  cases h with
  | starting | stopping => exact .inr rfl
  | waiting => trivial
  | _ => exact .inl hb

/-- The assertion holds of the job and of the state in which it has come to
rest. -/
def Rests (I : Sys → Job → JobState → Prop) (F : Sys → Job → Prop) : Sys × JobRef → Prop
  | (sys, .live job) => I sys job job.state
  | (sys, .freed job) => F sys job

/-- The rule for the loop from a job that waits for no event: it comes to rest in
the state that it heads for. -/
theorem jobChangeState_rest {x : Host} {I : Sys → Job → JobState → Prop}
    {F : Sys → Job → Prop} {E : Fault → Prop}
    (hpass : ∀ sys job state pass, I sys job state → job.state ≠ state → job.blocker = none →
      Enters x sys job.state { job with state := state } pass → pass.Holds I F)
    (hfault : ∀ sys job state f, I sys job state → job.state ≠ state → job.blocker = none →
      EnterFault sys job.state { job with state := state } f → E f)
    {sys : Sys} {job : Job} {state : JobState} (hb : job.blocker = none) (h : I sys job state) :
    Sat (jobChangeState x sys job state) (Rests I F) E := by
  refine (jobChangeState_rule (F := F) (I := fun sys job state =>
    I sys job state ∧ (job.blocker = none ∨ job.state = state)) ?_
    (fun sys job state f h hs hb hf => hfault sys job state f h.1 hs hb hf)
    ⟨h, .inl hb⟩).imp ?_
  · intro sys job state pass h hs hb hpass'
    have hholds := hpass sys job state pass h.1 hs hb hpass'
    have hblocked := hpass'.blocked hb
    cases pass with
    | next => exact ⟨hholds, hblocked⟩
    | freed => exact hholds
  · rintro ⟨sys, job | job⟩ h
    · obtain ⟨state, ⟨h, hor⟩, hs⟩ := h
      have hs : job.state = state := by
        rcases hor with hb | hs'
        · simpa [hb] using hs
        · exact hs'
      subst hs
      exact h
    · exact h

/-! ## The assertions of the state machine -/

/-- The next pass of the loop trips no assertion. -/
def Heads (job : Job) (state : JobState) : Prop :=
  job.goal ≠ .respawn ∧ (job.state ≠ state → edge job.goal job.state state = true)

theorem ProcessType.edge_spawn {goal : JobGoal} {p : ProcessType} (h : p.GoalOk goal) :
    edge goal p.spawnState p.waitState = true := by
  cases p <;> simp_all [ProcessType.GoalOk, ProcessType.spawnState, ProcessType.waitState, edge]

theorem ProcessType.edge_wait {goal : JobGoal} {p : ProcessType} (h : p.GoalOk goal)
    (hne : goal ≠ .respawn) : edge goal p.waitState (p.afterState goal) = true := by
  cases p <;> simp_all [ProcessType.GoalOk, ProcessType.waitState, ProcessType.afterState, edge]
  case postStop => cases goal <;> simp_all

/-- A pass leaves a job that heads where it may. -/
theorem Enters.heads {x : Host} {sys : Sys} {old : JobState} {job : Job} {pass : Pass}
    (h : Enters x sys old job pass) (hne : job.goal ≠ .respawn) :
    pass.Holds (fun _ job state => Heads job state) (fun _ _ => True) := by
  cases h with
  | spawn p proc state goal _ from_ runs proc_ =>
    refine ⟨hne, fun _ => ?_⟩
    rw [show (processStarted sys job p proc).2.state = p.spawnState from state]
    exact p.edge_spawn goal
  | noSpawn p state goal _ from_ runs =>
    refine ⟨hne, fun _ => ?_⟩
    rw [state]
    exact p.edge_spawn goal
  | skip p state goal _ from_ runs =>
    refine ⟨hne, fun _ => ?_⟩
    rw [state]
    exact p.edge_wait goal hne
  | dead state goal from_ dead =>
    refine ⟨hne, fun _ => ?_⟩
    simp [state, edge]
  | waiting => trivial
  | _ => exact ⟨hne, fun h => absurd rfl h⟩

/-- A job that heads where it may trips no assertion of the state machine on
its way. -/
theorem jobChangeState_heads {x : Host} {sys : Sys} {job : Job} {state : JobState}
    (h : Heads job state) :
    Sat (jobChangeState x sys job state) (fun _ => True) (fun f => f.ofStateMachine = false) := by
  refine (jobChangeState_rule (I := fun _ job state => Heads job state)
    (F := fun _ _ => True) (E := fun f => f.ofStateMachine = false) ?_ ?_ h).imp
    fun _ _ => trivial
  · intro sys job state pass h _ _ hpass
    exact hpass.heads h.1
  · intro sys job state f h hs _ hf
    by_contra hc
    have hedge := hf.edge (by simpa using hc) h.1
    rw [show edge job.goal job.state state = true from h.2 hs] at hedge
    exact absurd hedge (by simp)

/-! ## The next state -/

/-- The goal that `job_next_state` leaves: a respawn is a start. -/
def JobGoal.next : JobGoal → JobGoal
  | .respawn => .start
  | goal => goal

theorem JobGoal.next_ne_respawn (goal : JobGoal) : goal.next ≠ .respawn := by
  cases goal <;> simp [JobGoal.next]

theorem JobGoal.next_eq {goal : JobGoal} (h : goal ≠ .respawn) : goal.next = goal := by
  cases goal <;> simp_all [JobGoal.next]

/-- The states and goals that `job_next_state` accepts. -/
def NextOk (job : Job) : Prop :=
  (job.state = .waiting → job.goal = .start) ∧
    (job.goal = .respawn → job.state = .postStart ∨ job.state = .preStop)

/-- The state that a job heads for next: another one, which the job may enter,
and waiting only after `JOB_POST_STOP`. -/
structure Follows (job : Job) (state : JobState) : Prop where
  ne : state ≠ job.state
  edge : edge job.goal.next job.state state = true
  waiting : state = .waiting → job.state = .postStop
  respawn : job.goal = .respawn → state = .stopping

/-- From a state in which no process is being spawned, `job_next_state` finds
a state that follows, or the state and the goal are not among its cases. -/
theorem jobNextState_sat {job : Job} (h : job.state.spawning? = false) :
    Sat (jobNextState job)
      (fun r => r.1 = job.setGoal job.goal.next ∧ Follows job r.2)
      (fun f => f = .assertFailed .jobNextState ∧ ¬ NextOk job) := by
  unfold jobNextState
  cases hs : job.state <;> cases hg : job.goal <;>
    simp only [hs, JobState.spawning?, Bool.true_eq_false] at h <;>
    simp only [sat_ok, sat_error, NextOk, hs, hg, JobGoal.next]
  case running.stop =>
    split <;> exact ⟨by rw [← hg]; rfl, by simp [hs], by simp [hs, hg, edge, JobGoal.next],
      by simp, by simp [hg]⟩
  all_goals first
    | exact ⟨by rw [← hg]; rfl, by simp [hs], by simp [hs, hg, edge, JobGoal.next],
        by simp [hs], by simp [hg]⟩
    | exact ⟨trivial, by simp [hs], by simp [hs, edge], by simp [hs], by simp [hg]⟩
    | simp

end Startup
