import Startup.Job.Machine

/-!
# How the end of a process is classified

`job_process_handler` packs the exit status and the signal of a process into
one number, `stanza_normal` does the same with the arguments of `normal exit`,
and `job_process_terminated` compares the two.  This file undoes the packing and
states what is decided in terms of exits and signals:

* `mainFailed_iff`: the end of a main process is a failure if and only if it is
  not `Normal`, for the arguments that fit the packing.
* `afterTerminated_once`: whatever the `switch` has decided, the state machine is
  advanced at most once, on a job whose pid has been cleared.
* `jobProcessHandler_classifies`: the decision as a whole.

A status of 256 or more is accepted by `stanza_normal` although no process can
exit with it; what it stands for once it is packed is not described here.
-/

namespace Startup

open Lib

/-! ## Exits and signals -/

/-- An argument of `normal exit`. -/
inductive NormalExit where
  | status (status : Int)
  | signal (signal : Int)
  deriving DecidableEq, Repr

/-- What `stanza_normal` stores for an argument. -/
def NormalExit.stored : NormalExit → Int
  | .status n => n
  | .signal n => n * 256

/-- An exit status is a byte, and a signal is a positive number. -/
def NormalExit.Fits : NormalExit → Prop
  | .status n => 0 ≤ n ∧ n < 256
  | .signal n => 0 < n

/-- The notifications of the end of a process. -/
def ChildEvent.Ends : ChildEvent → Prop
  | .exited status => 0 ≤ status ∧ status < 256
  | .killed signal | .dumped signal => 0 < signal
  | _ => False

/-- The status that `job_process_handler` passes on. -/
def ChildEvent.status : ChildEvent → Int
  | .exited status => status
  | .killed signal | .dumped signal => signal * 256
  | _ => 0

/-- The end that an argument of `normal exit` lists. -/
def NormalExit.Covers : NormalExit → ChildEvent → Prop
  | .status n, .exited n' => n = n'
  | .signal n, .killed n' | .signal n, .dumped n' => n = n'
  | _, _ => False

/-- The ends of the main process that a class takes for normal.  A list of normal
exits replaces the default. -/
def Normal (cls : JobClass) (exits : List NormalExit) (event : ChildEvent) : Prop :=
  (∃ n ∈ exits, n.Covers event) ∨
    event = .exited 0 ∧ exits = [] ∧ ¬ (cls.respawn = true ∧ cls.task = false)

/-- Only an exit with status zero is packed as zero. -/
theorem ChildEvent.status_eq_zero {event : ChildEvent} (h : event.Ends) :
    event.status = 0 ↔ event = .exited 0 := by
  cases event <;> simp only [Ends, status, exited.injEq, reduceCtorEq, iff_false] at * <;> omega

/-- The packing keeps exits and signals apart. -/
theorem NormalExit.stored_eq_status {n : NormalExit} {event : ChildEvent} (hn : n.Fits)
    (h : event.Ends) : n.stored = event.status ↔ n.Covers event := by
  cases n <;> cases event <;>
    simp only [Fits, ChildEvent.Ends, stored, ChildEvent.status, Covers, iff_false] at * <;>
      omega

theorem status_mem_stored {exits : List NormalExit} {event : ChildEvent}
    (hfits : ∀ n ∈ exits, n.Fits) (h : event.Ends) :
    event.status ∈ exits.map NormalExit.stored ↔ ∃ n ∈ exits, n.Covers event := by
  simp only [List.mem_map]
  constructor
  · intro hmem
    obtain ⟨n, hn, heq⟩ := hmem
    exact ⟨n, hn, (NormalExit.stored_eq_status (hfits n hn) h).mp heq⟩
  · intro hmem
    obtain ⟨n, hn, hc⟩ := hmem
    exact ⟨n, hn, (NormalExit.stored_eq_status (hfits n hn) h).mpr hc⟩

/-- The main process has failed if and only if its end is not normal. -/
theorem mainFailed_iff {cls : JobClass} {exits : List NormalExit} {event : ChildEvent}
    (hcls : cls.normalexit = exits.map NormalExit.stored) (hfits : ∀ n ∈ exits, n.Fits)
    (h : event.Ends) : mainFailed cls event.status = true ↔ ¬ Normal cls exits event := by
  have hmem := status_mem_stored hfits h
  have hzero := ChildEvent.status_eq_zero h
  have hempty : cls.normalexit.isEmpty = true ↔ exits = [] := by simp [hcls]
  have hcontains : cls.normalexit.contains event.status = true ↔ ∃ n ∈ exits, n.Covers event := by
    rw [List.contains_iff_mem, hcls]
    exact hmem
  unfold mainFailed Normal
  cases hc : cls.normalexit.contains event.status with
  | true => simp [hcontains.mp hc]
  | false =>
    have hno : ¬ ∃ n ∈ exits, n.Covers event := by
      rw [← hcontains, hc]
      simp
    cases he : cls.normalexit.isEmpty <;> cases hr : cls.respawn <;> cases ht : cls.task <;>
      simp_all

/-! ## One change of state -/

/-- The change of state at the end of `job_process_terminated`. -/
inductive Advance where
  | none
  /-- `job_change_state (job, job_next_state (job))` -/
  | next
  /-- `job_change_state (job, JOB_STOPPING)` -/
  | stopping
  deriving DecidableEq, Repr

/-- The change of state that the `switch` leaves. -/
def Advance.ofState (state : Bool) : Advance :=
  if state then .next else .none

@[simp] theorem Advance.ofState_eq_none {state : Bool} : ofState state = .none ↔ state = false := by
  cases state <;> simp [ofState]

@[simp] theorem Advance.ofState_ne_stopping {state : Bool} : ofState state ≠ .stopping := by
  cases state <;> simp [ofState]

/-- Make a change of state. -/
def Advance.run (x : Host) (sys : Sys) (job : Job) : Advance → Except Fault (Sys × JobRef)
  | .none => .ok (sys, .live job)
  | .next => jobAdvance x sys job
  | .stopping => jobChangeState x sys job .stopping

/-- A job that has stopped running waits for its event, and does not advance. -/
theorem jobAdvance_keeps_blocked (x : Host) (sys : Sys) (job : Job)
    (hrest : job.state.spawning? = false) (hnext : NextOk job) (hb : job.blocker.isSome = true) :
    jobAdvance x sys job = .ok (sys, .live (job.setGoal job.goal.next)) := by
  have h : Sat (jobAdvance x sys job) (fun r => r = (sys, .live (job.setGoal job.goal.next)))
      (fun _ => False) := by
    apply jobAdvance_rule hrest
    · intro hn
      exact hn hnext
    · intro _
      rfl
    · intro state hnone
      simp [hnone] at hb
  obtain ⟨r, hr, heq⟩ := h.exists_ok
  rw [hr, heq]

/-- The goal is set to stop and the state advanced: in running the first of the
two has advanced the state already, and the second does nothing more. -/
theorem stop_advance_once {x : Host} {sys : Sys} {job : Job} {state : Bool}
    (hrest : job.state.spawning? = false)
    (hrunning : job.state = .running → job.goal = .start ∧ job.alive .main = false ∧ state = true) :
    (do
      let (sys, ref) ← jobChangeGoal x sys job .stop
      let job ← ref.get .jobProcessTerminated
      if job.state = .running then Except.ok (sys, .live job)
      else if state then jobAdvance x sys job
      else .ok (sys, .live job)) =
    (Advance.ofState state).run x sys (job.setGoal .stop) := by
  rw [jobChangeGoal_eq]
  by_cases hr : job.state = .running
  · obtain ⟨hgoal, hdead, rfl⟩ := hrunning hr
    have hmoves : Moves job .stop := ⟨by simp [hgoal], .inr ⟨rfl, hr⟩⟩
    rw [if_pos hmoves, show Advance.ofState true = .next from rfl, Advance.run]
    cases hb : job.blocker with
    | none =>
      have hr' : (job.setGoal .stop).state = .running := hr
      have hdead' : (job.setGoal .stop).alive .main = false := hdead
      obtain ⟨sys', e, -, heq⟩ := jobAdvance_running_dead x sys hr' rfl hb (by simp [hdead'])
      rw [heq]
      exact jobAdvance_keeps_blocked x sys' { job.setGoal .stop with state := .stopping, blocker := some e }
        rfl (by simp [NextOk, Job.setGoal]) rfl
    | some e =>
      have heq := jobAdvance_keeps_blocked x sys (job.setGoal .stop) hrest
        (by simp [NextOk, Job.setGoal, hr]) (by simp [Job.setGoal, hb])
      rw [heq]
      exact if_pos hr
  · have hmoves : ¬ Moves job .stop := by
      simp [Moves, hr]
    rw [if_neg hmoves]
    simp only [Job.setGoal]
    cases state <;> simp [hr, Advance.run, Advance.ofState, bind, Except.bind]

/-- The rest of `job_process_terminated`: the pid is cleared, a failure is
recorded, the goal is set, and then the state is advanced at most once. -/
theorem afterTerminated_once {x : Host} {sys : Sys} {job : Job} {p : ProcessType}
    {status : Int} {v : Verdict} {r : Sys × JobRef} (hrest : job.state.spawning? = false)
    (hrunning : v.stop = true → job.state = .running →
      job.goal = .start ∧ p = .main ∧ v.state = true)
    (h : afterTerminated x sys job p status false v = .ok r) :
    ∃ sys₁ job₁, Ended sys job p status v.failed sys₁ job₁ ∧
      (Advance.ofState v.state).run x sys₁
        (if v.stop then job₁.setGoal .stop else job₁) = .ok r := by
  have hrec : ∃ sys₁ job₁, Ended sys job p status v.failed sys₁ job₁ ∧
      (do
        let (sys, ref) ← if v.stop then jobChangeGoal x sys₁ job₁ .stop
          else .ok (sys₁, .live job₁)
        let job ← ref.get .jobProcessTerminated
        if v.stop && job.state = .running then .ok (sys, .live job)
        else if v.state then jobAdvance x sys job
        else .ok (sys, .live job)) = Except.ok r := by
    obtain ⟨failed, stop, state⟩ := v
    unfold afterTerminated at h
    cases failed with
    | true =>
      simp only [if_true, Bool.false_eq_true, if_false] at h
      obtain ⟨⟨sys₁, job₁⟩, hfail, h⟩ := bind_eq_ok.mp h
      refine ⟨sys₁, job₁, .failed (jobFailed_sat.of_ok hfail), ?_⟩
      cases stop <;> exact h
    | false =>
      refine ⟨_, _, .ok, ?_⟩
      cases stop <;> exact h
  obtain ⟨sys₁, job₁, hended, heq⟩ := hrec
  have hcore := hended.core
  refine ⟨sys₁, job₁, hended, ?_⟩
  cases hs : v.stop with
  | false =>
    rw [hs] at heq
    cases hv : v.state <;> rw [hv] at heq <;> exact heq
  | true =>
    have hrun : job₁.state = .running →
        job₁.goal = .start ∧ job₁.alive .main = false ∧ v.state = true := by
      intro hr
      obtain ⟨hgoal, rfl, hstate⟩ := hrunning hs (hcore.state.symm.trans hr)
      refine ⟨hcore.goal.trans hgoal, ?_, hstate⟩
      rw [hcore.alive]
      simp [Job.alive, Job.setPid]
    have hrest₁ : job₁.state.spawning? = false := by
      rw [hcore.state]
      exact hrest
    rw [if_pos rfl, ← stop_advance_once hrest₁ hrun]
    simpa [hs] using heq

/-! ## The main process -/

/-- The job respawns more often than its limit allows. -/
def TooFast (x : Host) (job : Job) : Prop :=
  job.cls.respawnLimit ≠ 0 ∧ job.cls.respawnInterval ≠ 0 ∧
    x.now - job.respawnTime < job.cls.respawnInterval ∧
    job.cls.respawnLimit < job.respawnCount + 1

theorem jobProcessCatchRunaway_iff (x : Host) (job : Job) :
    (jobProcessCatchRunaway x job).2 = true ↔ TooFast x job := by
  unfold jobProcessCatchRunaway TooFast
  by_cases hlimit : job.cls.respawnLimit ≠ 0 ∧ job.cls.respawnInterval ≠ 0
  · by_cases htime : x.now - job.respawnTime < job.cls.respawnInterval
    · simp [hlimit, htime]
    · simp [hlimit, htime]
  · rw [if_neg hlimit]
    constructor
    · intro h
      simp at h
    · intro h
      exact absurd ⟨h.1, h.2.1⟩ hlimit

/-- The condition under which a job whose main process has ended is respawned. -/
def Respawns (x : Host) (job : Job) (failed : Prop) : Prop :=
  job.goal = .start ∧ failed ∧ job.cls.respawn = true ∧ x.disableRespawn = false ∧
    ¬ TooFast x job

/-- The end of the main process is not looked at: the job is being stopped. -/
def Job.asked (job : Job) : Prop :=
  job.state = .killed ∨ job.state = .stopping ∨ job.goal ≠ .start

instance (job : Job) : Decidable job.asked := by
  unfold Job.asked
  infer_instance

/-- What the `PROCESS_MAIN` case of `job_process_terminated` decides, with the
condition of each branch. -/
inductive MainEnds (x : Host) (sys : Sys) (job : Job) (failed : Bool) :
    Sys → JobRef → Verdict → Prop where
  | asked (state : Bool) (asked : job.asked)
      (stay : state = false ↔ job.state = .stopping ∨ job.waits = true) :
      MainEnds x sys job failed sys (.live job) ⟨false, false, state⟩
  | stops (notAsked : ¬ job.asked)
      (cond : ¬ (failed = true ∧ job.cls.respawn = true ∧ x.disableRespawn = false)) :
      MainEnds x sys job failed sys (.live job) ⟨failed, true, !job.waits⟩
  | runaway {sys' : Sys} {job' : Job} (notAsked : ¬ job.asked) (isFailed : failed = true)
      (respawns : job.cls.respawn = true ∧ x.disableRespawn = false) (tooFast : TooFast x job)
      (fail : Fails sys (jobProcessCatchRunaway x job).1 none 0 sys' job') :
      MainEnds x sys job failed sys' (.live job') ⟨false, true, !job.waits⟩
  | later (notAsked : ¬ job.asked) (respawns : Respawns x job (failed = true))
      (waits : job.waits = true) :
      MainEnds x sys job failed sys
        (.live ((jobProcessCatchRunaway x job).1.setGoal .respawn)) ⟨false, false, false⟩
  | fromSpawned {sys' : Sys} {ref : JobRef} (respawns : Respawns x job (failed = true))
      (state : job.state = .spawned)
      (change : jobChangeState x sys (jobProcessCatchRunaway x job).1 .stopping =
        .ok (sys', ref)) :
      MainEnds x sys job failed sys' ref ⟨false, false, false⟩
  | respawn (notAsked : ¬ job.asked) (respawns : Respawns x job (failed = true))
      (waits : job.waits = false) (state : job.state ≠ .spawned) :
      MainEnds x sys job failed sys (.live (jobProcessCatchRunaway x job).1)
        ⟨false, false, true⟩

theorem mainTerminated_decides {x : Host} {sys : Sys} {job : Job} {status : Int}
    {r : Sys × JobRef × Verdict} (h : mainTerminated x sys job status = .ok r) :
    MainEnds x sys job (mainFailed job.cls status) r.1 r.2.1 r.2.2 := by
  have hcore := jobProcessCatchRunaway_core x job
  have hfast := jobProcessCatchRunaway_iff x job
  unfold mainTerminated at h
  obtain ⟨-, -, h⟩ := bind_eq_ok.mp h
  dsimp only at h
  split at h
  · rename_i hs
    cases h
    exact .asked _ (.inl hs) (by simp [hs])
  split at h
  · rename_i hs
    cases h
    exact .asked _ (.inr (.inl hs)) (by simp [hs])
  rename_i hk hst
  split at h
  · rename_i hg
    cases h
    exact .asked _ (.inr (.inr hg)) (by simp [hst])
  rename_i hg
  have hasked : ¬ job.asked := by simp [Job.asked, hk, hst, hg]
  split at h
  · rename_i hc
    cases h
    refine .stops hasked ?_
    intro hno
    simp [hno] at hc
  rename_i hc
  have hc : mainFailed job.cls status = true ∧ job.cls.respawn = true ∧
      x.disableRespawn = false := by simpa [and_assoc] using hc
  split at h
  · rename_i hrun
    obtain ⟨⟨sys', job'⟩, hfail, h⟩ := bind_eq_ok.mp h
    cases h
    exact .runaway hasked hc.1 hc.2 (hfast.mp hrun) (jobFailed_sat.of_ok hfail)
  rename_i hrun
  have hresp : Respawns x job (mainFailed job.cls status = true) :=
    ⟨by simpa using hg, hc.1, hc.2.1, hc.2.2, fun hf => hrun (hfast.mpr hf)⟩
  cases hw : job.waits with
  | true =>
    have hmove : ¬ Moves (jobProcessCatchRunaway x job).1 .respawn := by simp [Moves]
    have hne : job.state ≠ .spawned := by
      intro hs
      simp [Job.waits, hs] at hw
    have hne' : ((jobProcessCatchRunaway x job).1.setGoal .respawn).state ≠ .spawned :=
      fun hs => hne (hcore.state.symm.trans hs)
    rw [hw, if_pos (by rfl), jobChangeGoal_eq, if_neg hmove] at h
    change (if ((jobProcessCatchRunaway x job).1.setGoal .respawn).state = .spawned then _
      else _) = _ at h
    rw [if_neg hne'] at h
    cases h
    exact .later hasked hresp hw
  | false =>
    rw [hw, if_neg (by simp)] at h
    change (if (jobProcessCatchRunaway x job).1.state = .spawned then _ else _) = _ at h
    split at h
    · rename_i hs
      obtain ⟨⟨sys', ref⟩, hchange, h⟩ := bind_eq_ok.mp h
      cases h
      exact .fromSpawned hresp (hcore.state.symm.trans hs) hchange
    · rename_i hs
      cases h
      exact .respawn hasked hresp hw fun hs' => hs (hcore.state.trans hs')

/-! ### A respawn out of the spawned state -/

/-- Stopping a spawned job: its event is emitted, and the job waits for it. -/
theorem jobChangeState_spawned_stopping (x : Host) (sys : Sys) {job : Job}
    (hs : job.state = .spawned) :
    jobChangeState x sys job .stopping =
      if job.blocker.isSome then .ok (sys, .live job)
      else (do
        let (sys, e) ← jobEmitEvent x sys { job with state := .stopping }
        .ok (sys, .live { job with state := .stopping, blocker := some e })) := by
  have hne : job.state ≠ .stopping := by simp [hs]
  rw [jobChangeState, jobChangeStateLoop, if_neg hne]
  cases hb : job.blocker with
  | some e => rfl
  | none =>
    obtain ⟨sys', e, hemit⟩ := jobEmitEvent_ok x sys { job with state := .stopping } (by rfl)
    have henter : jobEnterState x sys job.state { job with state := .stopping } =
        .ok (.next sys' { job with state := .stopping, blocker := some e } .stopping) := by
      simp only [jobEnterState, hs, nihAssert, or_true, true_or, decide_true, check_true, hemit]
      rfl
    rw [← hb, henter, hemit]
    rfl

/-- The pids are no part of the event that a job emits. -/
theorem jobEmitEvent_cleared (x : Host) (sys : Sys) {job job₁ : Job} (p : ProcessType)
    (h : job₁ = job.cancelKill.setPid p 0) :
    jobEmitEvent x sys { job₁ with state := .stopping } =
      jobEmitEvent x sys { job with state := .stopping } := by
  subst h
  unfold Job.cancelKill
  split <;> rfl

/-- Stopping a spawned job and then clearing a pid, or the other way round. -/
theorem stopping_cleared {x : Host} {sys : Sys} {job job₁ : Job} {p : ProcessType}
    {r : Sys × JobRef} (hjob : job₁ = job.cancelKill.setPid p 0) (hs : job.state = .spawned)
    (h : jobChangeState x sys job .stopping = .ok r) :
    ∃ job', r.2 = .live job' ∧ jobChangeState x sys job₁ .stopping =
      .ok (r.1, .live (job'.cancelKill.setPid p 0)) := by
  have hcore : SameCore job job.cancelKill := cancelKill_core job
  have hs₁ : job₁.state = .spawned := by
    rw [hjob]
    exact hcore.state.trans hs
  have hb : job₁.blocker = job.blocker := by
    rw [hjob]
    exact hcore.blocker
  rw [jobChangeState_spawned_stopping x sys hs] at h
  rw [jobChangeState_spawned_stopping x sys hs₁]
  cases hblock : job.blocker with
  | some e =>
    rw [if_pos (by simp [hblock])] at h
    cases h
    exact ⟨job, rfl, by rw [if_pos (by simp [hb, hblock]), hjob]⟩
  | none =>
    rw [if_neg (by simp [hblock])] at h
    obtain ⟨⟨sys', e⟩, hemit, h⟩ := bind_eq_ok.mp h
    cases h
    rw [if_neg (by simp [hb, hblock]), jobEmitEvent_cleared x sys p hjob, hemit, hjob]
    refine ⟨_, rfl, ?_⟩
    unfold Job.cancelKill
    dsimp only
    split <;> rfl

/-! ## The classification -/

/-- The pid of a process has been cleared, and the state not yet changed. -/
structure Cleared (job : Job) (p : ProcessType) (job₁ : Job) : Prop where
  pid : job₁.pid = Function.update job.pid p 0
  state : job₁.state = job.state
  cls : job₁.cls = job.cls
  blocker : job₁.blocker = job.blocker

/-- What the end of a process decides about a job, before its state changes. -/
structure Classified (x : Host) (job : Job) (abnormal : Prop) (p : ProcessType)
    (event : ChildEvent) (job₁ : Job) (advance : Advance) : Prop
    extends Cleared job p job₁ where
  /-- the job is stopped unless it is respawned -/
  respawned : p = .main → ¬ job.asked → (job₁.goal ≠ .stop ↔ Respawns x job abnormal)
  /-- an end that is not normal is followed by a respawn, or the job has failed -/
  failed : p = .main → ¬ job.asked →
    (job₁.failed = true ↔ job.failed = true ∨ abnormal ∧ ¬ Respawns x job abnormal)
  /-- the end that was asked for -/
  asked : p = .main → job.asked → job₁.goal = job.goal ∧ job₁.failed = job.failed
  /-- a process without which the job cannot go on -/
  required : p = .security ∨ p = .preStart ∨ p = .postStop →
    if event = .exited 0 then job₁.goal = job.goal ∧ job₁.failed = job.failed
    else job₁.goal = .stop ∧ job₁.failed = true
  /-- a process that the job can do without -/
  optional : p = .postStart ∨ p = .preStop → job₁.goal = job.goal ∧ job₁.failed = job.failed
  stays : advance = .none ↔ p = .main ∧ (job.state = .stopping ∨ job.waits = true)
  stops : advance = .stopping ↔ p = .main ∧ job.state = .spawned ∧ Respawns x job abnormal

theorem SameCore.cleared {job job' job₁ : Job} {p : ProcessType} (h : SameCore job job')
    (h₁ : SameCore (job'.setPid p 0) job₁) : Cleared job p job₁ :=
  ⟨by rw [h₁.pid]; simp [Job.setPid, h.pid], h₁.state.trans h.state, h₁.cls.trans h.cls,
    h₁.blocker.trans h.blocker⟩

theorem Cleared.setGoal {job job₁ : Job} {p : ProcessType} (h : Cleared job p job₁)
    (goal : JobGoal) : Cleared job p (job₁.setGoal goal) :=
  ⟨h.pid, h.state, h.cls, h.blocker⟩

theorem Job.cancelKill_failed (job : Job) : job.cancelKill.failed = job.failed := by
  unfold Job.cancelKill
  split <;> rfl

theorem Ended.failed_eq {sys sys' : Sys} {job job' : Job} {p : ProcessType} {status : Int}
    {failed : Bool} (h : Ended sys job p status failed sys' job') :
    job'.failed = (job.failed || failed) := by
  cases h with
  | ok => simp [Job.setPid, job.cancelKill_failed]
  | failed fail =>
    cases fail with
    | already hf => simp [hf]
    | now hf => simp

theorem jobProcessCatchRunaway_failed (x : Host) (job : Job) :
    (jobProcessCatchRunaway x job).1.failed = job.failed := by
  unfold jobProcessCatchRunaway
  repeat' split
  all_goals rfl

theorem Job.asked_running {job : Job} (h : ¬ job.asked) :
    job.goal = .start ∧ job.state ≠ .stopping := by
  simp only [Job.asked, not_or, not_not] at h
  exact ⟨h.2.2, h.2.1⟩

theorem Job.waits_running {job : Job} (h : job.state = .running ∨ job.state = .spawned) :
    job.waits = false := by
  rcases h with hs | hs <;> simp [Job.waits, hs]

/-- The end of the main process, where it was not asked for. -/
theorem classified_main {x : Host} {job job₁ : Job} {abnormal : Prop} {event : ChildEvent}
    {advance : Advance} (hcleared : Cleared job .main job₁) (hasked : ¬ job.asked)
    (hresp : job₁.goal ≠ .stop ↔ Respawns x job abnormal)
    (hfailed : job₁.failed = true ↔
      job.failed = true ∨ abnormal ∧ ¬ Respawns x job abnormal)
    (hstays : advance = .none ↔ job.waits = true)
    (hstops : advance = .stopping ↔ job.state = .spawned ∧ Respawns x job abnormal) :
    Classified x job abnormal .main event job₁ advance where
  toCleared := hcleared
  respawned := fun _ _ => hresp
  failed := fun _ _ => hfailed
  asked := fun _ h => absurd h hasked
  required := by simp
  optional := by simp
  stays := by
    have hne := (Job.asked_running hasked).2
    simp [hstays, hne]
  stops := by simp [hstops]

/-- The branches of the `PROCESS_MAIN` case meet the classification. -/
theorem MainEnds.classified {x : Host} {sys sys' : Sys} {job job' : Job} {event : ChildEvent}
    {v : Verdict} {failed : Bool} {r : Sys × JobRef} (hrest : job.state.spawning? = false)
    (hends : MainEnds x sys job failed sys' (.live job') v)
    (h : afterTerminated x sys' job' .main event.status false v = .ok r) :
    ∃ sys₁ job₁ advance, Classified x job (failed = true) .main event job₁ advance ∧
      advance.run x sys₁ job₁ = .ok r := by
  have hcatch := jobProcessCatchRunaway_core x job
  cases hends with
  | asked state hasked hstay =>
    obtain ⟨sys₁, job₁, hended, hrun⟩ := afterTerminated_once hrest (by simp) h
    refine ⟨sys₁, job₁, _, ⟨(SameCore.refl job).cleared hended.core, ?_, ?_, ?_, ?_, ?_, ?_, ?_⟩,
      hrun⟩
    · exact fun _ hno => absurd hasked hno
    · exact fun _ hno => absurd hasked hno
    · exact fun _ _ => ⟨hended.core.goal, by simpa using hended.failed_eq⟩
    · simp
    · simp
    · simp [hstay]
    · have hno : ¬ (job.state = .spawned ∧ Respawns x job (failed = true)) := by
        intro hspawned
        obtain ⟨hs, hresp⟩ := hspawned
        simp [Job.asked, hs, hresp.1] at hasked
      simp [hno]
  | stops hasked hcond =>
    have hno : ¬ Respawns x job (failed = true) :=
      fun hresp => hcond ⟨hresp.2.1, hresp.2.2.1, hresp.2.2.2.1⟩
    have hstart := Job.asked_running hasked
    obtain ⟨sys₁, job₁, hended, hrun⟩ := afterTerminated_once hrest
      (fun _ hs => ⟨hstart.1, rfl, by simp [Job.waits_running (.inl hs)]⟩) h
    refine ⟨sys₁, _, _, classified_main (((SameCore.refl job).cleared hended.core).setGoal .stop)
      hasked ?_ ?_ ?_ ?_, hrun⟩
    · simp [Job.setGoal, hno]
    · have hf := hended.failed_eq
      simp [Job.setGoal, hno, hf]
    · simp
    · simp [hno]
  | runaway hasked hfailed _ hfast fail =>
    have hno : ¬ Respawns x job (failed = true) := fun hresp => hresp.2.2.2.2 hfast
    have hcore : SameCore job job' := hcatch.trans fail.core
    have hstart := Job.asked_running hasked
    have hf' : job'.failed = true := by
      cases fail with
      | already hf => exact hf
      | now => rfl
    obtain ⟨sys₁, job₁, hended, hrun⟩ := afterTerminated_once (by rw [hcore.state]; exact hrest)
      (fun _ hs => ⟨hcore.goal.trans hstart.1, rfl, by
        simp [Job.waits_running (.inl (hcore.state.symm.trans hs))]⟩) h
    refine ⟨sys₁, _, _, classified_main ((hcore.cleared hended.core).setGoal .stop)
      hasked ?_ ?_ ?_ ?_, hrun⟩
    · simp [Job.setGoal, hno]
    · have hf := hended.failed_eq
      refine iff_of_true ?_ (.inr ⟨hfailed, hno⟩)
      simp [Job.setGoal, hf, hf']
    · simp
    · simp [hno]
  | later hasked hresp hwaits =>
    obtain ⟨sys₁, job₁, hended, hrun⟩ := afterTerminated_once (by
      rw [Job.setGoal, hcatch.state]
      exact hrest) (by simp) h
    have hcleared := (hcatch.cleared ((SameCore.refl _).setPid .main 0)).setGoal .respawn
    refine ⟨sys₁, job₁, _, classified_main ?_ hasked ?_ ?_ ?_ ?_, hrun⟩
    · exact ⟨hended.core.pid.trans hcleared.pid, hended.core.state.trans hcleared.state,
        hended.core.cls.trans hcleared.cls, hended.core.blocker.trans hcleared.blocker⟩
    · simp [hended.core.goal, Job.setGoal, Job.setPid, hresp]
    · have hf := hended.failed_eq
      simp [hf, Job.setGoal, jobProcessCatchRunaway_failed, hresp]
    · simp [hwaits]
    · have hne : job.state ≠ .spawned := by
        intro hs
        simp [Job.waits_running (.inr hs)] at hwaits
      simp [hne]
  | fromSpawned hresp hs hchange =>
    have hasked : ¬ job.asked := by simp [Job.asked, hs, hresp.1]
    have hs' : (jobProcessCatchRunaway x job).1.state = .spawned := hcatch.state.trans hs
    obtain ⟨_, hlive, heq⟩ := stopping_cleared rfl hs' hchange
    cases hlive
    have hdone : afterTerminated x sys' job' .main event.status false ⟨false, false, false⟩ =
        .ok (sys', .live (job'.cancelKill.setPid .main 0)) := rfl
    cases hdone.symm.trans h
    have hcancel := (cancelKill_core (jobProcessCatchRunaway x job).1).setPid .main 0
    refine ⟨sys, _, .stopping, classified_main (hcatch.cleared hcancel) hasked ?_ ?_ ?_ ?_, heq⟩
    · have hgoal : (jobProcessCatchRunaway x job).1.goal = .start := hcatch.goal.trans hresp.1
      rw [hcancel.goal]
      simp [Job.setPid, hgoal, hresp]
    · simp [Job.setPid, Job.cancelKill_failed, jobProcessCatchRunaway_failed, hresp]
    · simp [Job.waits_running (.inr hs)]
    · simp [hs, hresp]
  | respawn hasked hresp hwaits hs =>
    obtain ⟨sys₁, job₁, hended, hrun⟩ := afterTerminated_once (by rw [hcatch.state]; exact hrest)
      (by simp) h
    refine ⟨sys₁, job₁, _, classified_main (hcatch.cleared hended.core) hasked ?_ ?_ ?_ ?_, hrun⟩
    · have hgoal : (jobProcessCatchRunaway x job).1.goal = .start := hcatch.goal.trans hresp.1
      simp [hended.core.goal, Job.setPid, hgoal, hresp]
    · have hf := hended.failed_eq
      simp [hf, jobProcessCatchRunaway_failed, hresp]
    · simp [hwaits]
    · simp [hs]

/-- The processes other than the main one. -/
theorem processTerminated_decides {x : Host} {sys : Sys} {job : Job} {p : ProcessType}
    {status : Int} {r : Sys × JobRef × Verdict} (hp : p ≠ .main)
    (h : processTerminated x sys job p status = .ok r) :
    MayEnd job.state p = true ∧ ∃ failed : Bool, r = (sys, .live job, ⟨failed, failed, true⟩) ∧
      (failed = true ↔ (p = .security ∨ p = .preStart ∨ p = .postStop) ∧ status ≠ 0) := by
  cases p with
  | main => exact absurd rfl hp
  | security | preStart | postStop =>
    obtain ⟨⟨⟩, hmay, h⟩ := bind_eq_ok.mp h
    cases h
    rw [nihAssert, check_eq_ok] at hmay
    exact ⟨by simpa [MayEnd] using hmay, _, rfl, by simp⟩
  | postStart | preStop =>
    obtain ⟨⟨⟩, hmay, h⟩ := bind_eq_ok.mp h
    cases h
    rw [nihAssert, check_eq_ok] at hmay
    exact ⟨by simpa [MayEnd] using hmay, _, rfl, by simp⟩

theorem classified_other {x : Host} {sys : Sys} {job : Job} {p : ProcessType}
    {event : ChildEvent} {abnormal : Prop} {r : Sys × JobRef} (hends : event.Ends) (hp : p ≠ .main)
    (h : jobProcessTerminated x sys job p event.status false = .ok r)
    (hrest : job.state.spawning? = false) :
    ∃ sys₁ job₁ advance, Classified x job abnormal p event job₁ advance ∧
      advance.run x sys₁ job₁ = .ok r := by
  unfold jobProcessTerminated at h
  rw [if_neg (by simp [hrest])] at h
  obtain ⟨d, hterm, h⟩ := bind_eq_ok.mp h
  obtain ⟨hmay, failed, rfl, hfailed⟩ := processTerminated_decides hp hterm
  rw [Ne, ChildEvent.status_eq_zero hends] at hfailed
  have hrunning : failed = true → job.state ≠ .running := by
    intro hf hs
    obtain ⟨hp, -⟩ := hfailed.mp hf
    rcases hp with rfl | rfl | rfl <;> simp [MayEnd, hs] at hmay
  obtain ⟨sys₁, job₁, hended, hrun⟩ := afterTerminated_once hrest
    (fun hf hs => absurd hs (hrunning hf)) h
  have hcleared := (SameCore.refl job).cleared hended.core
  have hgoal : job₁.goal = job.goal := hended.core.goal
  have hfail := hended.failed_eq
  cases failed with
  | true =>
    obtain ⟨hp', hevent⟩ := hfailed.mp rfl
    refine ⟨sys₁, _, _, ⟨hcleared.setGoal .stop, by simp [hp], by simp [hp], by simp [hp], ?_, ?_,
      by simp [hp], by simp [hp]⟩, hrun⟩
    · intro _
      rw [if_neg hevent]
      exact ⟨rfl, by simp [Job.setGoal, hfail]⟩
    · intro hopt
      rcases hp' with rfl | rfl | rfl <;> simp at hopt
  | false =>
    have hsame : job₁.goal = job.goal ∧ job₁.failed = job.failed :=
      ⟨hgoal, by simpa using hfail⟩
    refine ⟨sys₁, _, _, ⟨hcleared, by simp [hp], by simp [hp], by simp [hp], ?_,
      fun _ => hsame, by simp [hp], by simp [hp]⟩, hrun⟩
    intro hreq
    have hevent : event = .exited 0 := by
      by_contra hne
      simp [hreq, hne] at hfailed
    rw [if_pos hevent]
    exact hsame

/-- A job that was running or spawned stops, and keeps what was decided. -/
theorem Classified.stops_live {x : Host} {sys₁ : Sys} {job job₁ : Job} {abnormal : Prop}
    {event : ChildEvent} {advance : Advance} {r : Sys × JobRef}
    (h : Classified x job abnormal .main event job₁ advance) (hrun : advance.run x sys₁ job₁ = .ok r)
    (hs : job.state = .running ∨ job.state = .spawned) (hb : job.blocker = none)
    (hgoal : job.goal = .start) :
    r.2.Live fun j => j.state = .stopping ∧ j.goal = job₁.goal ∧ j.failed = job₁.failed := by
  have hs₁ : job₁.state = .running ∨ job₁.state = .spawned := by rwa [h.state]
  have hasked : ¬ job.asked := by
    rcases hs with hs | hs <;> simp [Job.asked, hs, hgoal]
  have hdead : (job₁.has .main && job₁.alive .main) = false := by
    simp [Job.alive, h.pid]
  -- every change of state that is possible here is the one to stopping
  have hchange : jobChangeState x sys₁ job₁ .stopping = .ok r := by
    cases advance with
    | none =>
      obtain ⟨-, hstay⟩ := h.stays.mp rfl
      rcases hs with hs | hs <;> simp [hs, Job.waits] at hstay
    | stopping => exact hrun
    | next =>
      rcases hs₁ with hrunning | hspawned
      · cases hg : job₁.goal with
        | stop | start => simpa [Advance.run, jobAdvance, jobNextState, hrunning, hg, hdead,
            bind, Except.bind] using hrun
        | respawn => simp [Advance.run, jobAdvance, jobNextState, hrunning, hg, bind,
            Except.bind] at hrun
      · have hno : ¬ Respawns x job abnormal := fun hresp => by
          simpa using h.stops.mpr ⟨rfl, h.state.symm.trans hspawned, hresp⟩
        have hg : job₁.goal = .stop := by
          by_contra hne
          exact hno ((h.respawned rfl hasked).mp hne)
        simpa [Advance.run, jobAdvance, jobNextState, hspawned, hg, bind, Except.bind] using hrun
  have hedge : edge job₁.goal job₁.state .stopping = true := by
    rcases hs₁ with hs₁ | hs₁ <;> simp [hs₁, edge]
  obtain ⟨sys', e, -, heq⟩ := jobChangeState_stopping x sys₁ (h.blocker.trans hb) hedge
  cases heq.symm.trans hchange
  exact ⟨rfl, rfl, rfl⟩

/-! ## The notification -/

theorem jobNextState_spawning {job job' : Job} {state : JobState}
    (hs : job.state.spawning? = true) (h : jobNextState job = .ok (job', state)) : job' = job := by
  unfold jobNextState at h
  cases hstate : job.state <;> cases hgoal : job.goal <;>
    simp_all [JobState.spawning?]

/-- While a process is being set up, only its status is noted. -/
theorem jobProcessTerminated_spawning {x : Host} {sys : Sys} {job : Job} {p : ProcessType}
    {status : Int} {r : Sys × JobRef} (hs : job.state.spawning? = true)
    (h : jobProcessTerminated x sys job p status false = .ok r) :
    ∃ job', r = (sys, .live job') ∧ job'.goal = job.goal ∧ job'.failed = job.failed ∧
      job'.pid = job.pid ∧ job'.respawnCount = job.respawnCount := by
  unfold jobProcessTerminated at h
  rw [if_pos hs] at h
  split at h
  · cases h
  rename_i pid _
  obtain ⟨⟨job', state⟩, hnext, h⟩ := bind_eq_ok.mp h
  cases h
  cases jobNextState_spawning (show (job.modifyData pid _).state.spawning? = true from hs) hnext
  exact ⟨_, rfl, rfl, rfl, rfl, rfl⟩

/-- **Classification of exits.**  What `job_process_handler` decides when a
process of a job has ended. -/
theorem jobProcessHandler_classifies {x : Host} {sys : Sys} {job : Job} {p : ProcessType}
    {event : ChildEvent} {exits : List NormalExit} {r : Sys × JobRef} (hends : event.Ends)
    (hcls : job.cls.normalexit = exits.map NormalExit.stored) (hfits : ∀ n ∈ exits, n.Fits)
    (h : jobProcessHandler x sys job p event = .ok r) :
    (job.state.spawning? = true →
      ∃ job', r.2 = .live job' ∧ job'.goal = job.goal ∧ job'.failed = job.failed ∧
        job'.pid = job.pid ∧ job'.respawnCount = job.respawnCount) ∧
    (job.state.spawning? = false →
      ∃ sys₁ job₁ advance,
        Classified x job (¬ Normal job.cls exits event) p event job₁ advance ∧
        advance.run x sys₁ job₁ = .ok r ∧
        (p = .main → job.goal = .start → job.blocker = none →
          job.state = .running ∨ job.state = .spawned →
          r.2.Live fun j =>
            j.state = .stopping ∧ j.goal = job₁.goal ∧ j.failed = job₁.failed)) := by
  have hterm : jobProcessTerminated x (sys.act (.exited (job.pid p))) job p event.status false =
      .ok r := by
    cases event with
    | exited status | killed signal | dumped signal => exact h
    | stopped | continued | trapped | ptraceFork | ptraceExec => exact hends.elim
  constructor
  · intro hs
    obtain ⟨job', rfl, hrest⟩ := jobProcessTerminated_spawning hs hterm
    exact ⟨job', rfl, hrest⟩
  · intro hs
    by_cases hp : p = .main
    · subst hp
      unfold jobProcessTerminated at hterm
      rw [if_neg (by simp [hs])] at hterm
      obtain ⟨⟨sys', ref, v⟩, hmain, hafter⟩ := bind_eq_ok.mp hterm
      obtain ⟨job', href, hafter⟩ := bind_eq_ok.mp hafter
      cases ref with
      | freed => cases href
      | live =>
        cases href
        obtain ⟨sys₁, job₁, advance, hclass, hrun⟩ :=
          (mainTerminated_decides hmain).classified hs hafter
        rw [propext (mainFailed_iff hcls hfits hends)] at hclass
        exact ⟨sys₁, job₁, advance, hclass, hrun, fun _ hgoal hb hstate =>
          hclass.stops_live hrun hstate hb hgoal⟩
    · obtain ⟨sys₁, job₁, advance, hclass, hrun⟩ := classified_other hends hp hterm hs
      exact ⟨sys₁, job₁, advance, hclass, hrun, fun h => absurd h hp⟩

/-- A service with `normal exit TERM`, that is respawned after an exit with
status 1, and stopped after a death by `SIGTERM`. -/
theorem jobProcessHandler_classifies_term :
    ∃ sys job r r', job.cls.normalexit = [NormalExit.signal 15].map NormalExit.stored ∧
      jobProcessHandler plainHost sys job .main (.exited 1) = .ok r ∧
      (r.2.Live fun j => j.goal = .start ∧ j.failed = false) ∧
      jobProcessHandler plainHost sys job .main (.killed 15) = .ok r' ∧
      (r'.2.Live fun j => j.goal = .stop ∧ j.failed = false) ∧
      ∃ sys₁ job₁ advance, Classified plainHost job (¬ Normal job.cls [.signal 15] (.killed 15))
        .main (.killed 15) job₁ advance ∧ advance.run plainHost sys₁ job₁ = .ok r' := by
  let cls : JobClass := { plainClass [.main] with respawn := true, normalexit := [15 * 256] }
  let job : Job := { jobNew 1 1 cls "" none with
    goal := .start, state := .running, pid := fun _ => 5 }
  have hcls : job.cls.normalexit = [NormalExit.signal 15].map NormalExit.stored := rfl
  have hterm : ∃ r', jobProcessHandler plainHost ⟨[], 0, 5, []⟩ job .main (.killed 15) = .ok r' ∧
      r'.2.Live fun j => j.goal = .stop ∧ j.failed = false := ⟨_, rfl, rfl, rfl⟩
  obtain ⟨r', hterm, hlive⟩ := hterm
  obtain ⟨-, hclass⟩ := jobProcessHandler_classifies (by simp [ChildEvent.Ends]) hcls
    (by simp [NormalExit.Fits]) hterm
  obtain ⟨sys₁, job₁, advance, hclass, hrun, -⟩ := hclass rfl
  exact ⟨⟨[], 0, 5, []⟩, job, _, r', rfl, rfl, ⟨rfl, rfl⟩, hterm, hlive, sys₁, job₁, advance,
    hclass, hrun⟩

/-- A list of normal exits adds to the default. -/
def AddedNormal (cls : JobClass) (exits : List NormalExit) (event : ChildEvent) : Prop :=
  (∃ n ∈ exits, n.Covers event) ∨ event = .exited 0 ∧ ¬ (cls.respawn = true ∧ cls.task = false)

/-- A main process that ends with status 1 while its job, with the goal to
start, still waits for its stopping event has not failed; and where a class
lists its normal exits, an exit with status zero that is not among them is a
failure. -/
theorem exit_not_by_default :
    (∃ sys job r, Reached Always (sys, .live job) ∧ job.goal = .start ∧
      job.cls.normalexit = ([] : List NormalExit).map NormalExit.stored ∧
      ¬ AddedNormal job.cls [] (.exited 1) ∧ job.cls.respawn = false ∧
      jobProcessHandler plainHost sys job .main (.exited 1) = .ok r ∧
      r.2.Live fun j => j.goal = .start ∧ j.failed = false) ∧
    ∃ sys job r, Reached Always (sys, .live job) ∧ job.goal = .start ∧
      job.cls.normalexit = [NormalExit.status 1].map NormalExit.stored ∧
      AddedNormal job.cls [.status 1] (.exited 0) ∧
      jobProcessHandler plainHost sys job .main (.exited 0) = .ok r ∧
      r.2.Live fun j => j.failed = true := by
  constructor
  · have h₀ := reached_newRun Always (plainClass [.main])
    have h₁ := h₀.next (.changeGoal .start) ⟨by simp [Enabled], trivial⟩ rfl
    have h₂ := h₁.next .blockerFinished ⟨rfl, trivial⟩ rfl
    have h₃ := h₂.next (.childClosed 1) ⟨rfl, trivial⟩ rfl
    have h₄ := h₃.next (.changeGoal .stop) ⟨by simp [Enabled], trivial⟩ rfl
    have h₅ := h₄.next (.changeGoal .start) ⟨by simp [Enabled], trivial⟩ rfl
    exact ⟨_, _, _, h₅, rfl, rfl, by simp [AddedNormal], rfl, rfl, rfl, rfl⟩
  · have h₀ := reached_newRun Always { plainClass [.main] with normalexit := [1] }
    have h₁ := h₀.next (.changeGoal .start) ⟨by simp [Enabled], trivial⟩ rfl
    have h₂ := h₁.next .blockerFinished ⟨rfl, trivial⟩ rfl
    have h₃ := h₂.next (.childClosed 1) ⟨rfl, trivial⟩ rfl
    exact ⟨_, _, _, h₃, rfl, rfl, .inr ⟨rfl, by decide⟩, rfl, rfl⟩

end Startup
