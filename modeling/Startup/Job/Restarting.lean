import Startup.Job.Answers
import Startup.Job.WakeUp

/-!
# Requests to restart a job

`job_restart` sets the goal to stop and back to start, and answers the request from
`job_finished`, wherever that is next called.  A request that finds the job running
without a `pre-stop` process, or on its way to stop, is answered with success only
after the process has ended and another one has been spawned (`reached_restarted`).
-/

namespace Startup

open Lib

variable {x : Host} {sys sys' : Sys} {job job' : Job} {m : MessageId} {id : JobId} {p : Pid}
  {base acts : List Action}

/-! ## What is logged -/

/-- The main process `p` of a job has ended, and another one has been spawned. -/
structure Restarted (id : JobId) (p : Pid) (acts : List Action) : Prop where
  ended : .exited p ∈ acts
  started : ∃ pid, .spawned id .main pid ∈ acts

/-- Since `base`, the request `m` has been answered with success only once the job had
been restarted.  The latest action comes first. -/
def SuccessAfter (m : MessageId) (id : JobId) (p : Pid) (base log : List Action) : Prop :=
  ∀ acts mid, log = acts ++ .replied m true :: (mid ++ base) → Restarted id p mid

theorem Restarted.append (h : Restarted id p acts) (new : List Action) :
    Restarted id p (new ++ acts) := by
  obtain ⟨pid, hspawned⟩ := h.started
  exact ⟨List.mem_append_right _ h.ended, pid, List.mem_append_right _ hspawned⟩

theorem successAfter_base : SuccessAfter m id p base base := by
  intro acts mid h
  have hlength := congrArg List.length h
  simp only [List.length_append, List.length_cons] at hlength
  omega

/-- Once the job has been restarted the request may be answered. -/
theorem SuccessAfter.append (h : SuccessAfter m id p base (acts ++ base)) (new : List Action)
    (hnew : .replied m true ∈ new → Restarted id p acts) :
    SuccessAfter m id p base (new ++ (acts ++ base)) := by
  intro before mid heq
  rcases List.append_eq_append_iff.mp heq with ⟨rest, -, hrest⟩ | ⟨rest, hrest, htail⟩
  · exact h rest mid hrest
  · cases rest with
    | nil => exact h [] mid htail.symm
    | cons a rest =>
      obtain ⟨ha, hmid⟩ := List.cons.inj htail
      have hmem : .replied m true ∈ new := by simp [hrest, ha]
      have hmid : mid ++ base = (rest ++ acts) ++ base := hmid.trans (List.append_assoc ..).symm
      rw [List.append_cancel_right hmid]
      exact (hnew hmem).append rest

/-! ## A restart under way -/

/-- The states in which a job that is to be restarted has not yet spawned the new
process, and those that it goes through between them. -/
def JobState.restarts : JobState → Bool
  | .stopping | .killed | .postStopping | .postStop => true
  | .starting | .securitySpawning | .security | .preStarting | .preStart | .spawning => true
  | _ => false

/-- The states from which on the failures of the last run are forgotten. -/
def JobState.renewed : JobState → Bool
  | .securitySpawning | .security | .preStarting | .preStart | .spawning => true
  | _ => false

/-- The job, which heads for `state`, is to be restarted: its old process has ended, or
is still awaited. -/
structure Underway (id : JobId) (p : Pid) (acts : List Action) (job : Job) (state : JobState) :
    Prop where
  ident : job.id = id
  goal : job.goal = .start
  main : job.has .main = true
  restarts : state.restarts = true
  ended : .exited p ∈ acts ∨
    (state = .stopping ∨ state = .killed) ∧ job.alive .main = true ∧ job.pid .main = p
  failed : state.renewed = true ∨ job.state = .starting → job.failed = false

/-- What holds of a request to restart a job, from when it has been accepted: the job has
been restarted, or does not have the request any more, or is under way. -/
def Restarting (m : MessageId) (id : JobId) (p : Pid) (base : List Action)
    (s : Sys × JobRef) : Prop :=
  ∃ acts, s.1.log = acts ++ base ∧ SuccessAfter m id p base s.1.log ∧
    ∀ job, s.2 = .live job → Restarted id p acts ∨ (∀ b ∈ job.blocking, b.message? ≠ some m) ∨
      Underway id p acts job job.state

/-! ## The state machine -/

/-- What holds at the head of the loop of `job_change_state`. -/
def RestartingHead (m : MessageId) (id : JobId) (p : Pid) (base : List Action) (sys : Sys)
    (job : Job) (state : JobState) : Prop :=
  ∃ acts, sys.log = acts ++ base ∧ SuccessAfter m id p base sys.log ∧
    (Restarted id p acts ∨ Underway id p acts job state)

/-- A restarted job may answer the request. -/
theorem Answers.restarted (h : Answers sys job sys' job') (hlog : sys.log = acts ++ base)
    (hafter : SuccessAfter m id p base sys.log) (hdone : Restarted id p acts) :
    ∃ acts', sys'.log = acts' ++ base ∧ SuccessAfter m id p base sys'.log ∧
      Restarted id p acts' := by
  obtain ⟨new, hnew, -⟩ := h.log
  refine ⟨new ++ acts, by rw [hnew, hlog, List.append_assoc], ?_, hdone.append new⟩
  rw [hnew, hlog]
  exact (hlog ▸ hafter).append new fun _ => hdone

/-- A log that grows by actions that are not the answer. -/
theorem SuccessAfter.grow (h : SuccessAfter m id p base sys.log) (hlog : sys.log = acts ++ base)
    {new : List Action} (hnew : sys'.log = new ++ sys.log) (hno : .replied m true ∉ new) :
    sys'.log = (new ++ acts) ++ base ∧ SuccessAfter m id p base sys'.log := by
  refine ⟨by rw [hnew, hlog, List.append_assoc], ?_⟩
  rw [hnew, hlog]
  exact (hlog ▸ h).append new fun hmem => absurd hmem hno

theorem Underway.runs_main {state : JobState} (h : Underway id p acts job state) :
    job.runs x .main = true := by
  simp [Job.runs, h.main]

/-- Where the old process is not awaited any more it has ended. -/
theorem Underway.exited {state : JobState} (h : Underway id p acts job state)
    (hs : state ≠ .stopping ∧ state ≠ .killed) : .exited p ∈ acts := by
  rcases h.ended with hended | ⟨hstate | hstate, -⟩
  · exact hended
  · exact absurd hstate hs.1
  · exact absurd hstate hs.2

/-- A job that is about to enter or to leave a state in which it spawns a process or
awaits one is in none of the states that wait for an event. -/
theorem ProcessType.process_states (q : ProcessType) :
    (q.spawnState ≠ .starting ∧ q.spawnState ≠ .stopping ∧ q.spawnState ≠ .killed) ∧
      q.waitState ≠ .starting ∧ q.waitState ≠ .stopping ∧ q.waitState ≠ .killed := by
  cases q <;> decide

theorem ProcessType.restarts_waitState {q : ProcessType} (h : q.spawnState.restarts = true)
    (hq : q ≠ .main) :
    q.waitState.restarts = true ∧ (q.waitState.renewed = true → q.spawnState.renewed = true) := by
  cases q <;> simp_all [spawnState, waitState, JobState.restarts, JobState.renewed]

theorem ProcessType.restarts_afterState {q : ProcessType} (h : q.waitState.restarts = true) :
    (q.afterState .start).restarts = true ∧
      ((q.afterState .start).renewed = true → q.waitState.renewed = true) := by
  cases q <;> simp_all [waitState, afterState, JobState.restarts, JobState.renewed]

/-- One pass of a job that is under way. -/
theorem Enters.underway {state : JobState} {pass : Pass}
    (h : Enters x sys job.state { job with state := state } pass)
    (hlog : sys.log = acts ++ base) (hafter : SuccessAfter m id p base sys.log)
    (hu : Underway id p acts job state) :
    pass.Holds (RestartingHead m id p base) (fun _ _ => False) := by
  have hrestarts := hu.restarts
  -- failures are forgotten when the job enters `JOB_STARTING`
  have hfailed : ∀ {next : JobState}, state ≠ .starting →
      (next.renewed = true → state.renewed = true) →
      next.renewed = true ∨ state = .starting → job.failed = false := by
    intro next hne hnext hor
    rcases hor with hrenewed | hstarting
    · exact hu.failed (.inl (hnext hrenewed))
    · exact absurd hstarting hne
  cases h with
  | starting st goal from_ emit =>
    have st : state = .starting := st
    refine ⟨acts, emit.log.trans hlog, emit.log ▸ hafter, .inr ⟨hu.ident, goal, hu.main,
      hu.restarts, .inl (hu.exited (by simp [st])), fun _ => rfl⟩⟩
  | spawn q proc st goal ne from_ runs proc_ =>
    have st : state = q.spawnState := st
    subst st
    obtain ⟨⟨hstarting, hne⟩, -⟩ := q.process_states
    have hended := List.mem_append_right [.spawned job.id q (sys.lastPid + 1)] (hu.exited hne)
    have hspawned : (sys.act (.spawned job.id q (sys.lastPid + 1))).log =
        [.spawned job.id q (sys.lastPid + 1)] ++ sys.log := rfl
    obtain ⟨hlog', hafter'⟩ := hafter.grow hlog hspawned (by simp)
    refine ⟨_, hlog', hafter', ?_⟩
    by_cases hq : q = .main
    · subst hq
      exact .inl ⟨hended, sys.lastPid + 1, by simp [hu.ident]⟩
    · obtain ⟨hwait, hrenewed⟩ := ProcessType.restarts_waitState hrestarts hq
      exact .inr ⟨hu.ident, hu.goal, hu.main, hwait, .inl hended, hfailed hstarting hrenewed⟩
  | noSpawn q st goal ne from_ runs =>
    have st : state = q.spawnState := st
    subst st
    obtain ⟨⟨hstarting, hne⟩, -⟩ := q.process_states
    have hq : q ≠ .main := by
      rintro rfl
      exact absurd (hu.runs_main.symm.trans runs) (by simp)
    obtain ⟨hwait, hrenewed⟩ := ProcessType.restarts_waitState hrestarts hq
    exact ⟨acts, hlog, hafter, .inr ⟨hu.ident, hu.goal, hu.main, hwait, .inl (hu.exited hne),
      hfailed hstarting hrenewed⟩⟩
  | wait q st goal from_ runs =>
    have st : state = q.waitState := st
    subst st
    obtain ⟨-, hstarting, -⟩ := q.process_states
    exact ⟨acts, hlog, hafter, .inr ⟨hu.ident, hu.goal, hu.main, hu.restarts, hu.ended,
      hfailed hstarting fun h => h⟩⟩
  | skip q st goal ne from_ runs =>
    have st : state = q.waitState := st
    subst st
    obtain ⟨-, hstarting, hne⟩ := q.process_states
    obtain ⟨hnext, hrenewed⟩ := ProcessType.restarts_afterState hrestarts
    have hgoal : job.goal = .start := hu.goal
    refine ⟨acts, hlog, hafter, .inr ⟨hu.ident, hu.goal, hu.main, ?_, .inl (hu.exited hne), ?_⟩⟩
    · show (q.afterState job.goal).restarts = true
      rw [hgoal]
      exact hnext
    · show (q.afterState job.goal).renewed = true ∨ q.waitState = .starting → _
      rw [hgoal]
      exact hfailed hstarting hrenewed
  | stopping st from_ emit =>
    have st : state = .stopping := st
    exact ⟨acts, emit.log.trans hlog, emit.log ▸ hafter, .inr ⟨hu.ident, hu.goal, hu.main,
      hu.restarts, hu.ended, hfailed (by simp [st]) fun h => h⟩⟩
  | kill st from_ alive =>
    have st : state = .killed := st
    have hsignalled : (sys.act (.signalled (job.pid .main) job.cls.killSignal)).log =
        [.signalled (job.pid .main) job.cls.killSignal] ++ sys.log := rfl
    obtain ⟨hlog', hafter'⟩ := hafter.grow hlog hsignalled (by simp)
    exact ⟨_, hlog', hafter', .inr ⟨hu.ident, hu.goal, hu.main, hu.restarts,
      hu.ended.imp (List.mem_append_right _) fun h => h, hfailed (by simp [st]) fun h => h⟩⟩
  | dead st goal from_ dead =>
    have st : state = .killed := st
    have hended : .exited p ∈ acts := by
      rcases hu.ended with hended | ⟨-, halive, -⟩
      · exact hended
      · have dead : (job.has .main && job.alive .main) = false := dead
        simp [hu.main, halive] at dead
    exact ⟨acts, hlog, hafter, .inr ⟨hu.ident, hu.goal, hu.main, rfl, .inl hended,
      hfailed (by simp [st]) fun h => by cases h⟩⟩
  | waiting st goal =>
    have goal : job.goal = .stop := goal
    exact absurd (hu.goal.symm.trans goal) (by simp)
  | resumed st | running st | runningTask st =>
    have st : state = .running := st
    rw [st] at hrestarts
    cases hrestarts

/-- From a state in which the job is restarted it goes to the next one of them. -/
theorem JobState.restarts_edge {old state : JobState} (hedge : edge .start old state = true)
    (hrest : old.spawning? = false) (hrestarts : old.restarts = true) :
    state.restarts = true ∧ (state.renewed = true → old.renewed = true ∨ old = .starting) ∧
      (old = .stopping → state = .killed) := by
  cases old <;> first
    | exact absurd hrestarts Bool.false_ne_true
    | exact absurd hrest.symm Bool.false_ne_true
    | cases state <;> first
      | exact absurd hedge Bool.false_ne_true
      | exact ⟨rfl, by decide, by decide⟩

/-- A process other than the main one that may end there is one of three. -/
theorem JobState.restarts_mayEnd {state : JobState} {q : ProcessType}
    (hmay : MayEnd state q = true) (hne : q ≠ .main) (hrestarts : state.restarts = true) :
    state = .security ∨ state = .preStart ∨ state = .postStop := by
  cases q with
  | main => exact absurd rfl hne
  | security => exact .inl (of_decide_eq_true hmay)
  | preStart => exact .inr (.inl (of_decide_eq_true hmay))
  | postStart =>
    rcases Bool.or_eq_true_iff.mp hmay with h | h <;>
      rw [of_decide_eq_true h] at hrestarts <;> cases hrestarts
  | preStop =>
    rw [of_decide_eq_true hmay] at hrestarts
    cases hrestarts
  | postStop => exact .inr (.inr (of_decide_eq_true hmay))

/-- A job under way goes on to the next state. -/
theorem jobAdvance_restarting (hrest : job.state.spawning? = false) (hb : job.blocker = none)
    (hlog : sys.log = acts ++ base) (hafter : SuccessAfter m id p base sys.log)
    (hu : Underway id p acts job job.state)
    (hended : job.state = .stopping ∨ .exited p ∈ acts) :
    Sat (jobAdvance x sys job) (Restarting m id p base) (fun _ => True) := by
  refine jobAdvance_rule hrest (fun _ => trivial) (fun hblock => by simp [hb] at hblock) ?_
  intro state _ hf
  have hgoal : job.goal.next = .start := by rw [hu.goal]; rfl
  have hedge := hf.edge
  rw [hgoal] at hedge ⊢
  have hstate : state.restarts = true ∧ (state.renewed = true → job.failed = false) ∧
      (job.state = .stopping → state = .killed) := by
    obtain ⟨hnext, hrenewed, hkilled⟩ := JobState.restarts_edge hedge hrest hu.restarts
    exact ⟨hnext, fun h => hu.failed (hrenewed h), hkilled⟩
  have hhead : RestartingHead m id p base sys (job.setGoal .start) state := by
    refine ⟨acts, hlog, hafter, .inr ⟨hu.ident, rfl, hu.main, hstate.1, ?_, ?_⟩⟩
    · rcases hended with hs | hended
      · refine hu.ended.imp (fun h => h) fun h => ⟨.inr (hstate.2.2 hs), h.2⟩
      · exact .inl hended
    · rintro (hrenewed | hstarting)
      · exact hstate.2.1 hrenewed
      · exact hu.failed (.inr hstarting)
  have hb : (job.setGoal .start).blocker = none := hb
  refine (jobChangeState_rest (I := RestartingHead m id p base)
    (F := fun sys _ => ∃ acts, sys.log = acts ++ base ∧ SuccessAfter m id p base sys.log) ?_
    (fun _ _ _ _ _ _ _ _ => trivial) hb hhead).imp ?_
  · rintro sys₁ job₁ state₁ pass ⟨acts₁, hlog₁, hafter₁, hdone | hu₁⟩ _ _ hpass
    · have hanswers := hpass.answers
      cases pass with
      | next sys₂ job₂ state₂ =>
        obtain ⟨acts₂, hlog₂, hafter₂, hdone₂⟩ := Answers.restarted hanswers hlog₁ hafter₁ hdone
        exact ⟨acts₂, hlog₂, hafter₂, .inl hdone₂⟩
      | freed sys₂ job₂ =>
        obtain ⟨acts₂, hlog₂, hafter₂, -⟩ := Answers.restarted hanswers hlog₁ hafter₁ hdone
        exact ⟨acts₂, hlog₂, hafter₂⟩
    · have hpass₁ := hpass.underway hlog₁ hafter₁ hu₁
      cases pass with
      | next => exact hpass₁
      | freed => exact hpass₁.elim
  · rintro ⟨sys₁, job₁ | job₁⟩ h
    · obtain ⟨acts₁, hlog₁, hafter₁, hor⟩ := h
      refine ⟨acts₁, hlog₁, hafter₁, ?_⟩
      rintro _ ⟨⟩
      exact hor.imp (fun h => h) .inr
    · obtain ⟨acts₁, hlog₁, hafter₁⟩ := h
      exact ⟨acts₁, hlog₁, hafter₁, fun _ h => by cases h⟩

/-! ## Notifications -/

/-- The job no longer has the request, or has been restarted. -/
def Released (m : MessageId) (id : JobId) (p : Pid) (acts : List Action) (job : Job) : Prop :=
  Restarted id p acts ∨ ∀ b ∈ job.blocking, b.message? ≠ some m

/-- A job that has been released does as it likes. -/
theorem Answers.released (h : Answers sys job sys' job') (hlog : sys.log = acts ++ base)
    (hafter : SuccessAfter m id p base sys.log) (hr : Released m id p acts job) :
    ∃ acts', sys'.log = acts' ++ base ∧ SuccessAfter m id p base sys'.log ∧
      Released m id p acts' job' := by
  rcases hr with hdone | hwaits
  · obtain ⟨acts', hlog', hafter', hdone'⟩ := h.restarted hlog hafter hdone
    exact ⟨acts', hlog', hafter', .inl hdone'⟩
  · obtain ⟨new, hnew, hreplies⟩ := h.log
    have hno : .replied m true ∉ new := by
      intro hmem
      obtain ⟨b, hb, hmessage⟩ := hreplies m true hmem
      exact hwaits b hb hmessage
    obtain ⟨hlog', hafter'⟩ := hafter.grow hlog hnew hno
    exact ⟨_, hlog', hafter', .inr fun b hb => hwaits b (h.entries b hb)⟩

theorem Restarting.of_released {ref : JobRef} (h : ∃ acts, sys.log = acts ++ base ∧
    SuccessAfter m id p base sys.log ∧ Released m id p acts ref.job) :
    Restarting m id p base (sys, ref) := by
  obtain ⟨acts, hlog, hafter, hr⟩ := h
  refine ⟨acts, hlog, hafter, ?_⟩
  rintro job rfl
  exact hr.imp (fun h => h) .inl

theorem Answering.restarting {c : Except Fault (Sys × JobRef)} (h : Answering sys job c)
    (hlog : sys.log = acts ++ base) (hafter : SuccessAfter m id p base sys.log)
    (hr : Released m id p acts job) : Sat c (Restarting m id p base) (fun _ => True) :=
  Sat.imp h fun _ hanswers => .of_released (hanswers.released hlog hafter hr)

/-- A failure answers the request with an error. -/
theorem Fails.released {q : Option ProcessType} {status : Int}
    (h : Fails sys job q status sys' job') (hfailed : job.failed = false)
    (hlog : sys.log = acts ++ base) (hafter : SuccessAfter m id p base sys.log) :
    ∃ acts', sys'.log = acts' ++ base ∧ SuccessAfter m id p base sys'.log ∧
      Released m id p acts' job' := by
  cases h with
  | already failed => simp [hfailed] at failed
  | now _ finish =>
    obtain ⟨hlog', hafter'⟩ := hafter.grow hlog finish.log (by simp)
    exact ⟨_, hlog', hafter', .inr (by simp)⟩

/-- A job under way that stays where it is. -/
theorem Underway.stays (h : Underway id p acts job job.state) (hlog : sys.log = acts ++ base)
    (hafter : SuccessAfter m id p base sys.log) : Restarting m id p base (sys, .live job) := by
  refine ⟨acts, hlog, hafter, ?_⟩
  rintro _ ⟨⟩
  exact .inr (.inr h)

/-- The end of a process that is under way is recorded. -/
theorem Underway.clear {q : ProcessType} (h : Underway id p acts job job.state)
    (hended : .exited p ∈ acts) :
    Underway id p acts (job.cancelKill.setPid q 0) (job.cancelKill.setPid q 0).state := by
  obtain ⟨timer, process, heq⟩ : ∃ timer process,
      job.cancelKill = { job with killTimer := timer, killProcess := process } := by
    unfold Job.cancelKill
    split <;> exact ⟨_, _, rfl⟩
  rw [heq]
  exact ⟨h.ident, h.goal, h.main, h.restarts, .inl hended, h.failed⟩

/-- A process of a job under way ends. -/
theorem jobProcessTerminated_restarting {q : ProcessType} {status : Int}
    (hset : Settled (· ≠ .security) job) (hlog : sys.log = acts ++ base)
    (hafter : SuccessAfter m id p base sys.log) (hu : Underway id p acts job job.state)
    (hexited : .exited (job.pid q) ∈ acts)
    (hfailed : q = .postStop → status ≠ 0 → job.failed = false) :
    Sat (jobProcessTerminated x sys job q status false) (Restarting m id p base)
      (fun _ => True) := by
  have hrestarts := hu.restarts
  -- where the old process is still awaited, it is the one that has ended
  have hended : MayEnd job.state q = true → .exited p ∈ acts := by
    intro hmay
    rcases hu.ended with hended | ⟨hstate, -, hpid⟩
    · exact hended
    · have hq : q = .main := by
        rcases hstate with hs | hs <;> rw [hs] at hmay <;> cases q <;> simp_all [MayEnd]
      rw [← hpid, ← hq]
      exact hexited
  have hadvance : job.state ≠ .starting → job.state ≠ .stopping → .exited p ∈ acts →
      ∀ {failed sys₁ job₁}, Ended sys job q status failed sys₁ job₁ → failed = false →
      Sat (jobAdvance x sys₁ job₁) (Restarting m id p base) (fun _ => True) := by
    rintro hstarting hstopping hended failed sys₁ job₁ (fail | _) hok
    · cases hok
    · have hb : job.blocker = none := by
        by_contra hne
        rcases hset.blocked.mp (Option.isSome_iff_ne_none.mpr hne) with hs | hs
        · exact hstarting hs
        · exact hstopping hs
      have hcancel := cancelKill_core job
      refine jobAdvance_restarting ?_ (hcancel.blocker.trans hb) hlog hafter (hu.clear hended)
        (.inr hended)
      show job.cancelKill.state.spawning? = false
      rw [hcancel.state]
      exact hset.resting
  refine jobProcessTerminated_rule hset.resting (fun _ _ => trivial) fun sys' job' v ht => ?_
  cases ht with
  | process q failed ne mayEnd fails =>
    have hstate := JobState.restarts_mayEnd mayEnd ne hu.restarts
    have hended := hended mayEnd
    refine afterTerminated_rule (fun _ _ => trivial) (fun _ _ _ _ hv => by cases hv)
      (fun sys₁ job₁ he hok _ => hadvance ?_ ?_ hended he hok) fun sys₁ job₁ he hfail => ?_
    · rcases hstate with hs | hs | hs <;> simp [hs]
    · rcases hstate with hs | hs | hs <;> simp [hs]
    · -- the failure answers the request
      have hfirst : job.failed = false := by
        have hlate := hu.failed
        rcases hstate with hs | hs | hs
        · exact hlate (.inl (by simp [hs, JobState.renewed]))
        · exact hlate (.inl (by simp [hs, JobState.renewed]))
        · refine hfailed ?_ (fails hfail)
          rw [hs] at mayEnd
          revert mayEnd
          cases q <;> simp [MayEnd]
      have hreleased : ∃ acts', sys₁.log = acts' ++ base ∧ SuccessAfter m id p base sys₁.log ∧
          Released m id p acts' job₁ := by
        cases he with
        | failed fail =>
          refine fail.released ?_ hlog hafter
          unfold Job.setPid Job.cancelKill
          split <;> exact hfirst
        | ok => cases hfail
      obtain ⟨acts₁, hlog₁, hafter₁, hr₁⟩ := hreleased
      refine (jobChangeGoal_answers sys₁ job₁ .stop).imp ?_
      rintro ⟨sys₂, ref⟩ hanswers j rfl
      have hreleased₂ := hanswers.released hlog₁ hafter₁ hr₁
      obtain ⟨acts₂, hlog₂, hafter₂, hr₂⟩ := hreleased₂
      exact ⟨fun _ => .of_released ⟨acts₂, hlog₂, hafter₂, hr₂⟩,
        fun _ _ => (jobAdvance_answers sys₂ j).restarting hlog₂ hafter₂ hr₂⟩
  | killed state =>
    have hended := hended (by simp [MayEnd, state])
    exact afterTerminated_rule (fun _ _ => trivial) (fun _ _ _ _ hv => by cases hv)
      (fun sys₁ job₁ he hok _ => hadvance (by simp [state]) (by simp [state]) hended he hok)
      fun _ _ _ hv => by cases hv
  | stopping state =>
    have hended := hended (by simp [MayEnd, state])
    refine afterTerminated_rule (fun _ _ => trivial) (fun sys₁ job₁ he _ _ => ?_)
      (fun _ _ _ _ hv => by cases hv) fun _ _ _ hv => by cases hv
    cases he with
    | ok => exact (hu.clear hended).stays hlog hafter
  | goal state | stop failed state | runaway state =>
    rcases state with hs | hs | hs | hs <;> simp [hs, JobState.restarts] at hrestarts
  | respawn state => rcases state with hs | hs | hs <;> simp [hs, JobState.restarts] at hrestarts
  | respawnLater waits =>
    simp only [Job.waits, Bool.or_eq_true, Bool.and_eq_true, decide_eq_true_eq] at waits
    rcases waits with ⟨⟨hs, -⟩, -⟩ | ⟨⟨hs, -⟩, -⟩ <;> simp [hs, JobState.restarts] at hrestarts
  | respawnSpawned state => simp [state, JobState.restarts] at hrestarts

/-! ### Set-up errors -/

/-- The process whose set-up failed need not be awaited by a job under way. -/
theorem Underway.dropPid {q : ProcessType} (h : Underway id p acts job job.state)
    (hq : q ≠ .main) :
    Underway id p acts (job.setPid q 0) (job.setPid q 0).state := by
  refine ⟨h.ident, h.goal, h.main, h.restarts, ?_, h.failed⟩
  have hmain : (job.setPid q 0).pid .main = job.pid .main := by
    simp [Job.setPid, Function.update, hq.symm]
  rw [Job.alive, hmain]
  exact h.ended

/-- A set-up error of a job under way. -/
theorem jobChildErrorHandler_restarting {q : ProcessType} (hset : Settled (· ≠ .security) job)
    (hlog : sys.log = acts ++ base) (hafter : SuccessAfter m id p base sys.log)
    (hu : Underway id p acts job job.state)
    (hfailed : q ≠ .postStart → q ≠ .preStop → job.failed = false)
    (hkilled : q = .postStart ∨ q = .preStop → job.state = .killed → job.alive .main = false) :
    Sat (jobChildErrorHandler x sys job q) (Restarting m id p base) (fun _ => True) := by
  have hreleased : ∀ {q' : Option ProcessType} {status : Int} {sys₁ : Sys} {job₁ : Job},
      job.failed = false → Fails sys (job.setPid q 0) q' status sys₁ job₁ →
      ∃ acts', sys₁.log = acts' ++ base ∧ SuccessAfter m id p base sys₁.log ∧
        Released m id p acts' job₁ := fun hno hfails => hfails.released hno hlog hafter
  have hfails : ∀ q', job.failed = false →
      Sat (failAndAdvance x sys (job.setPid q 0) q') (Restarting m id p base)
        (fun _ => True) := by
    intro q' hno
    unfold failAndAdvance
    rw [sat_bind]
    refine jobFailed_sat.mono (fun r hr => ?_) fun _ _ => trivial
    obtain ⟨acts₁, hlog₁, hafter₁, hr₁⟩ := hreleased hno hr
    exact (Answering.get (jobChangeGoal_answers r.1 r.2 .stop) fun sys₂ job₂ h₂ =>
      (jobAdvance_answers sys₂ job₂).after h₂).restarting hlog₁ hafter₁ hr₁
  have hmoves : q = .postStart ∨ q = .preStop →
      Sat (jobAdvance x sys (job.setPid q 0)) (Restarting m id p base) (fun _ => True) := by
    intro hq
    have hu' : Underway id p acts (job.setPid q 0) (job.setPid q 0).state := hu.dropPid (by
      rcases hq with rfl | rfl <;> simp)
    cases hb : job.blocker with
    | none =>
      refine jobAdvance_restarting hset.resting hb hlog hafter hu' (.inr ?_)
      rcases hu.ended with hended | ⟨hs | hs, halive, -⟩
      · exact hended
      · have hblocked := hset.blocked.mpr (.inr hs)
        simp [hb] at hblocked
      · rw [hkilled hq hs] at halive
        cases halive
    | some e =>
      refine jobAdvance_rule hset.resting (fun _ => trivial) (fun _ => ?_) fun state hnone _ => ?_
      · have hgoal : (job.setPid q 0).goal.next = .start := by
          show job.goal.next = .start
          rw [hu.goal]
          rfl
        rw [hgoal]
        have hstart : Underway id p acts ((job.setPid q 0).setGoal .start)
            ((job.setPid q 0).setGoal .start).state :=
          ⟨hu'.ident, rfl, hu'.main, hu'.restarts, hu'.ended, hu'.failed⟩
        exact hstart.stays hlog hafter
      · have hnone : job.blocker = none := hnone
        simp [hb] at hnone
  cases q with
  | security =>
    show Sat (jobFailed sys (job.setPid .security 0) _ _ >>= _) _ _
    rw [sat_bind]
    refine jobFailed_sat.mono (fun r hr => ?_) fun _ _ => trivial
    obtain ⟨acts₁, hlog₁, hafter₁, hr₁⟩ := hreleased (hfailed (by simp) (by simp)) hr
    exact (jobChangeGoal_answers r.1 r.2 .stop).restarting hlog₁ hafter₁ hr₁
  | preStart => exact hfails .preStart (hfailed (by simp) (by simp))
  | main => exact hfails .main (hfailed (by simp) (by simp))
  | postStop => exact hfails .postStop (hfailed (by simp) (by simp))
  | postStart => exact hmoves (.inl rfl)
  | preStop => exact hmoves (.inr rfl)

/-- The set-up data of a job are changed. -/
theorem Restarting.modifyData (h : Restarting m id p base (sys, .live job)) (pid : Pid)
    (f : JobProcessData → JobProcessData) :
    Restarting m id p base (sys, .live (job.modifyData pid f)) := by
  obtain ⟨acts, hlog, hafter, hor⟩ := h
  refine ⟨acts, hlog, hafter, ?_⟩
  rintro _ ⟨⟩
  refine (hor job rfl).imp (fun h => h) (Or.imp (fun h => h) fun hu => ?_)
  exact ⟨hu.ident, hu.goal, hu.main, hu.restarts, hu.ended, hu.failed⟩

/-! ### What may happen -/

/-- The status with which a process has ended. -/
def ChildEvent.status? : ChildEvent → Option Int
  | .exited status => some status
  | .killed signal | .dumped signal => some (signal * 256)
  | _ => none

/-- The notifications with which a job that is on its way to stop fails. -/
def failsStopping (job : Job) : Input → Prop
  | .childError pid permanent => permanent = true ∧ ∃ d, job.data? pid = some d ∧
      d.valid = true ∧ d.process ≠ .postStart ∧ d.process ≠ .preStop
  | .childEvent q event => q = .postStop ∧ ∃ status, event.status? = some status ∧ status ≠ 0
  | _ => False

/-- The job fails once more after it has failed, before it begins to start again. -/
def failsAgain (job : Job) (i : Input) : Prop :=
  job.failed = true ∧ (job.state = .stopping ∨ job.state = .killed ∨ job.state = .postStop) ∧
    failsStopping job i

/-- A set-up error of the `post-start` or the `pre-stop` process comes in while the main
process is being killed. -/
def errorWhileKilled (job : Job) : Input → Prop
  | .childError pid permanent => permanent = true ∧ job.state = .killed ∧
      job.alive .main = true ∧ ∃ d, job.data? pid = some d ∧ d.valid = true ∧
        (d.process = .postStart ∨ d.process = .preStop)
  | _ => False

/-- What may happen after the request `m`: notifications, but for those two kinds, and
what the rest of init does, which does not answer the request. -/
def Notified (m : MessageId) (_ : Host) (sys : Sys) (job : Job) : Input → Prop
  | .elsewhere sys' => ∃ acts, sys'.log = acts ++ sys.log ∧ .replied m true ∉ acts
  | i => i.happens ∧ ¬ failsAgain job i ∧ ¬ errorWhileKilled job i

theorem Underway.first_failure {i : Input} (hu : Underway id p acts job job.state)
    (hrest : job.state.spawning? = false) (hn : ¬ failsAgain job i) (hi : failsStopping job i) :
    job.failed = false := by
  have hrestarts := hu.restarts
  have hlate := hu.failed
  by_contra hfailed
  have hfailed : job.failed = true := by simpa using hfailed
  refine hn ⟨hfailed, ?_, hi⟩
  revert hrestarts hlate hrest
  cases job.state <;> simp [JobState.restarts, JobState.renewed, JobState.spawning?, hfailed]

theorem jobProcessChildReader_restarting {pid : Pid} {permanent : Bool}
    (hset : Settled (· ≠ .security) job) (hlog : sys.log = acts ++ base)
    (hafter : SuccessAfter m id p base sys.log) (hu : Underway id p acts job job.state)
    (hn : ¬ failsAgain job (.childError pid permanent))
    (hkilled : ¬ errorWhileKilled job (.childError pid permanent)) :
    Sat (jobProcessChildReader x sys job pid permanent) (Restarting m id p base)
      (fun _ => True) := by
  unfold jobProcessChildReader
  split
  · trivial
  rename_i d hd
  split
  · exact hu.stays hlog hafter
  rename_i hc
  simp only [Bool.or_eq_true, Bool.not_eq_true', not_or, Bool.not_eq_false] at hc
  dsimp only
  rw [sat_bind]
  refine (jobChildErrorHandler_restarting (hset.same (modifyData_core job pid _)) hlog hafter
    ⟨hu.ident, hu.goal, hu.main, hu.restarts, hu.ended, hu.failed⟩ (fun hstart hstop => ?_)
    fun hq hs => ?_).imp ?_
  · exact hu.first_failure hset.resting hn ⟨hc.2, d, hd, hc.1, hstart, hstop⟩
  · show job.alive .main = false
    by_contra halive
    exact hkilled ⟨hc.2, hs, by simpa using halive, d, hd, hc.1, hq⟩
  · rintro ⟨sys₁, job₁ | job₁⟩ h
    · exact h.modifyData pid _
    · trivial

/-- A child event of a job under way. -/
theorem jobProcessHandler_restarting {q : ProcessType} {event : ChildEvent}
    (hset : Settled (· ≠ .security) job) (hlog : sys.log = acts ++ base)
    (hafter : SuccessAfter m id p base sys.log) (hu : Underway id p acts job job.state)
    (hn : ¬ failsAgain job (.childEvent q event)) :
    Sat (jobProcessHandler x sys job q event) (Restarting m id p base) (fun _ => True) := by
  have hstays := hu.stays hlog hafter
  have hmain : job.mainStarting q = false := by
    have hrestarts := hu.restarts
    have hrest := hset.resting
    revert hrestarts hrest
    unfold Job.mainStarting
    cases job.state <;> simp [JobState.restarts, JobState.spawning?]
  have hexited : (sys.act (.exited (job.pid q))).log = [.exited (job.pid q)] ++ sys.log := rfl
  obtain ⟨hlog', hafter'⟩ := hafter.grow hlog hexited (by simp)
  have hu' : Underway id p ([.exited (job.pid q)] ++ acts) job job.state :=
    ⟨hu.ident, hu.goal, hu.main, hu.restarts, hu.ended.imp (List.mem_append_right _) fun h => h,
      hu.failed⟩
  have hends : ∀ status, event.status? = some status →
      Sat (jobProcessTerminated x (sys.act (.exited (job.pid q))) job q status false)
        (Restarting m id p base) (fun _ => True) := by
    intro status hstatus
    refine jobProcessTerminated_restarting hset hlog' hafter' hu' (by simp) fun hq hne => ?_
    exact hu.first_failure hset.resting hn ⟨hq, status, hstatus, hne⟩
  cases event with
  | exited status => exact hends status rfl
  | killed signal => exact hends _ rfl
  | dumped signal => exact hends _ rfl
  | stopped signal =>
    dsimp only [jobProcessHandler, jobProcessStopped]
    rw [hmain]
    split <;> exact hstays
  | continued => exact hstays
  | trapped signal =>
    dsimp only [jobProcessHandler, jobProcessTraceSignal, jobProcessTraceNew,
      jobProcessTraceNewChild]
    rw [hmain]
    split
    · exact sat_assert (fun _ => trivial) fun _ => hstays
    split
    · exact sat_assert (fun _ => trivial) fun _ => hstays
    · exact hstays
  | ptraceFork =>
    dsimp only [jobProcessHandler, jobProcessTraceFork]
    rw [hmain]
    exact hstays
  | ptraceExec =>
    dsimp only [jobProcessHandler, jobProcessTraceExec]
    rw [hmain]
    exact hstays

/-! ## Runs -/

theorem Underway.ne_spawned (h : Underway id p acts job job.state) : job.state ≠ .spawned := by
  intro hs
  have hrestarts := h.restarts
  rw [hs] at hrestarts
  cases hrestarts

theorem jobProcessCloseHandler_restarting {pid : Pid} (hset : Settled (· ≠ .security) job)
    (hlog : sys.log = acts ++ base) (hafter : SuccessAfter m id p base sys.log)
    (hu : Underway id p acts job job.state) :
    Sat (jobProcessCloseHandler x sys job pid) (Restarting m id p base) (fun _ => True) := by
  have hstays := hu.stays hlog hafter
  unfold jobProcessCloseHandler
  split
  · trivial
  split
  · exact hstays
  dsimp only
  split
  · rename_i hs
    exact absurd hs.1 hu.ne_spawned
  · show Sat (if job.state.spawning? then _ else _) _ _
    rw [if_neg (by simp [hset.resting])]
    exact hstays.modifyData pid _

theorem jobProcessKillTimer_restarting (hlog : sys.log = acts ++ base)
    (hafter : SuccessAfter m id p base sys.log) (hu : Underway id p acts job job.state) :
    Sat (jobProcessKillTimer sys job) (Restarting m id p base) (fun _ => True) := by
  refine sat_assert (fun _ => trivial) fun _ => ?_
  split
  · trivial
  rename_i q _
  refine sat_assert (fun _ => trivial) fun _ => ?_
  have hsignalled : (sys.act (.signalled (job.pid q) 9)).log =
      [.signalled (job.pid q) 9] ++ sys.log := rfl
  obtain ⟨hlog', hafter'⟩ := hafter.grow hlog hsignalled (by simp)
  have hu' : Underway id p ([.signalled (job.pid q) 9] ++ acts)
      { job with killTimer := none, killProcess := none } job.state :=
    ⟨hu.ident, hu.goal, hu.main, hu.restarts, hu.ended.imp (List.mem_append_right _) fun h => h,
      hu.failed⟩
  exact hu'.stays hlog' hafter'

/-- What happens after the request keeps what holds of it. -/
theorem jobStep_restarting {i : Input} (h : Restarting m id p base (sys, .live job))
    (hset : Settled (· ≠ .security) job) (hi : Enabled sys job i)
    (hn : Notified m x sys job i) :
    Sat (jobStep x sys job i) (Restarting m id p base) (fun _ => True) := by
  obtain ⟨acts, hlog, hafter, hor⟩ := h
  have hcases : i.happens → (Underway id p acts job job.state →
      Sat (jobStep x sys job i) (Restarting m id p base) (fun _ => True)) →
      Sat (jobStep x sys job i) (Restarting m id p base) (fun _ => True) := by
    intro hi hunderway
    have hanswers : Answering sys job (jobStep x sys job i) :=
      notification_answers hset.resting hi
    rcases hor job rfl with hdone | hwaits | hu
    · exact hanswers.restarting hlog hafter (.inl hdone)
    · exact hanswers.restarting hlog hafter (.inr hwaits)
    · exact hunderway hu
  cases i with
  | elsewhere sys' =>
    obtain ⟨new, hnew, hno⟩ := hn
    obtain ⟨hlog', hafter'⟩ := hafter.grow hlog hnew hno
    refine ⟨_, hlog', hafter', ?_⟩
    rintro _ ⟨⟩
    refine (hor job rfl).imp (fun h => h.append new) (Or.imp (fun h => h) fun hu => ?_)
    exact ⟨hu.ident, hu.goal, hu.main, hu.restarts,
      hu.ended.imp (List.mem_append_right _) fun h => h, hu.failed⟩
  | blockerFinished =>
    refine hcases hn.1 fun hu => ?_
    have hu' : Underway id p acts { job with blocker := none } job.state :=
      ⟨hu.ident, hu.goal, hu.main, hu.restarts, hu.ended, hu.failed⟩
    have hrest : ({ job with blocker := none } : Job).state.spawning? = false := hset.resting
    refine jobAdvance_restarting hrest rfl hlog hafter hu' ?_
    rcases hset.blocked.mp hi with hs | hs
    · exact .inr (hu.exited (by simp [hs]))
    · exact .inl hs
  | childError pid permanent =>
    exact hcases hn.1 fun hu => jobProcessChildReader_restarting hset hlog hafter hu hn.2.1 hn.2.2
  | childClosed pid =>
    exact hcases hn.1 fun hu => jobProcessCloseHandler_restarting hset hlog hafter hu
  | childEvent q event =>
    exact hcases hn.1 fun hu => jobProcessHandler_restarting hset hlog hafter hu hn.2.1
  | readyText pid buf =>
    refine hcases hn.1 fun hu => ?_
    dsimp only [jobStep, jobProcessReadyfdReader]
    rw [if_neg fun hs => hu.ne_spawned hs.1]
    exact hu.stays hlog hafter
  | killTimer => exact hcases hn.1 fun hu => jobProcessKillTimer_restarting hlog hafter hu
  | _ => exact hn.1.elim

/-! ## The request -/

/-- The requests to restart a job, with the message `m`, that wait for it. -/
def Input.restarts (m : MessageId) : Input → Prop
  | .restart m' wait => m' = m ∧ wait = true
  | .classRestart _ m' wait => m' = m ∧ wait = true
  | _ => False

/-- A request to restart the job takes it to its stop: it runs without a `pre-stop`
process, or is on its way to stop. -/
def Job.restartStops (job : Job) : Prop :=
  job.state = .running ∧ job.has .preStop = false ∨ job.state = .stopping ∨ job.state = .killed

/-- The loop of `job_change_state` on its way from `JOB_RUNNING` to `JOB_STOPPING`: of the
job only the state changes. -/
def StoppingHead (sys₀ : Sys) (job₀ : Job) (sys : Sys) (job : Job) (state : JobState) : Prop :=
  sys.log = sys₀.log ∧
    ((∃ e, job = { job₀ with state := .stopping, blocker := some e } ∧ state = .stopping) ∨
      ∃ old, job = { job₀ with state := old } ∧ old ≠ state ∧
        (state = .preStopping ∨ state = .preStop ∨ state = .stopping))

theorem Enters.stoppingHead {sys₀ : Sys} {job₀ : Job} {state : JobState} {pass : Pass}
    (hpre : job₀.has .preStop = false) (hne : job.state ≠ state)
    (h : Enters x sys job.state { job with state := state } pass)
    (hi : StoppingHead sys₀ job₀ sys job state) :
    pass.Holds (StoppingHead sys₀ job₀) (fun _ _ => False) := by
  obtain ⟨hlog, ⟨e, rfl, hs⟩ | ⟨old, rfl, -, hstate⟩⟩ := hi
  · exact absurd hs.symm hne
  -- the job has no process to wait for on its way
  have hproc : ∀ q : ProcessType, state = q.spawnState ∨ state = q.waitState →
      q = .preStop ∧ Job.runs x { job₀ with state := state } q = false := by
    intro q hq
    have hq : q = .preStop := by
      rcases hstate with hs | hs | hs <;> rw [hs] at hq <;> cases q <;>
        simp [ProcessType.spawnState, ProcessType.waitState] at hq ⊢
    subst hq
    refine ⟨rfl, ?_⟩
    show (job₀.has .preStop && _) = false
    rw [hpre, Bool.false_and]
  cases h with
  | spawn q proc st goal ne from_ runs =>
    obtain ⟨rfl, hno⟩ := hproc q (.inl st)
    exact absurd (hno.symm.trans runs) (by simp)
  | noSpawn q st =>
    obtain ⟨rfl, -⟩ := hproc q (.inl st)
    have st : state = .preStopping := st
    exact ⟨hlog, .inr ⟨state, rfl, by simp [st, ProcessType.waitState], .inr (.inl rfl)⟩⟩
  | wait q st goal from_ runs =>
    obtain ⟨rfl, hno⟩ := hproc q (.inr st)
    exact absurd (hno.symm.trans runs) (by simp)
  | skip q st =>
    obtain ⟨rfl, -⟩ := hproc q (.inr st)
    have st : state = .preStop := st
    exact ⟨hlog, .inr ⟨state, rfl, by simp [st, ProcessType.afterState], .inr (.inr rfl)⟩⟩
  | stopping st from_ emit =>
    have st : state = .stopping := st
    subst st
    exact ⟨emit.log.trans hlog, .inl ⟨_, rfl, rfl⟩⟩
  | starting st | resumed st | running st | runningTask st | kill st | dead st | waiting st =>
    have st : state = _ := st
    rcases hstate with hs | hs | hs <;> simp [hs] at st

/-- A running job without a `pre-stop` process goes through to stopping. -/
theorem jobAdvance_running_to_stopping (hs : job.state = .running) (hg : job.goal = .stop)
    (hpre : job.has .preStop = false) (hb : job.blocker = none) :
    Sat (jobAdvance x sys job) (fun r => r.1.log = sys.log ∧
      ∃ e, r.2 = .live { job with state := .stopping, blocker := some e }) (fun _ => True) := by
  have hrest : job.state.spawning? = false := by simp [hs, JobState.spawning?]
  refine jobAdvance_rule hrest (fun _ => trivial) (fun hblock => by simp [hb] at hblock) ?_
  intro state _ hf
  have hsame : job.setGoal job.goal.next = job := by
    rw [hg]
    show job.setGoal .stop = job
    rw [← hg]
    rfl
  have hstate : state = .preStopping ∨ state = .preStop ∨ state = .stopping := by
    have hedge := hf.edge
    rw [hs, hg] at hedge
    revert hedge
    cases state <;> simp [edge, JobGoal.next]
  rw [hsame]
  have hhead : StoppingHead sys job sys job state := ⟨rfl, .inr ⟨_, rfl, hf.ne.symm, hstate⟩⟩
  refine (jobChangeState_rest (I := StoppingHead sys job) (F := fun _ _ => False)
    (fun _ _ _ _ hi hne _ hpass => hpass.stoppingHead hpre hne hi)
    (fun _ _ _ _ _ _ _ _ => trivial) hb hhead).imp ?_
  rintro ⟨sys₁, job₁ | job₁⟩ h
  · obtain ⟨hlog, ⟨e, rfl, -⟩ | ⟨old, rfl, hne, -⟩⟩ := h
    · exact ⟨hlog, e, rfl⟩
    · exact absurd rfl hne
  · exact h.elim

/-- The goal of a job under way to its stop goes back to start. -/
theorem changeBack_restarting (hlog : sys.log = acts ++ base)
    (hafter : SuccessAfter m job.id (job.pid .main) base sys.log)
    (hmain : (job.has .main && job.alive .main) = true)
    (hs : job.state = .stopping ∨ job.state = .killed) :
    Sat (jobChangeGoal x sys job .start) (Restarting m job.id (job.pid .main) base)
      (fun _ => True) := by
  obtain ⟨hhas, halive⟩ := Bool.and_eq_true_iff.mp hmain
  have hnomove : ¬ Moves job .start := by
    rintro ⟨-, ⟨-, hw⟩ | ⟨hw, -⟩⟩
    · rcases hs with hs | hs <;> simp [hs] at hw
    · cases hw
  have hrestarts : job.state.restarts = true := by
    rcases hs with hs | hs <;> rw [hs] <;> rfl
  rw [jobChangeGoal_eq, if_neg hnomove]
  have hu : Underway job.id (job.pid .main) acts (job.setGoal .start)
      (job.setGoal .start).state := by
    refine ⟨rfl, rfl, hhas, hrestarts, .inr ⟨hs, halive, rfl⟩, fun hor => ?_⟩
    rcases hs with hs | hs <;> simp [hs, JobState.renewed, Job.setGoal] at hor
  exact hu.stays hlog hafter

/-- The goal goes to stop and back to start. -/
theorem stopStart_restarting (hset : Settled (· ≠ .security) job) (hlog : sys.log = acts ++ base)
    (hafter : SuccessAfter m job.id (job.pid .main) base sys.log) (hgoal : job.goal ≠ .stop)
    (hat : job.restartStops) (hmain : (job.has .main && job.alive .main) = true) :
    Sat (do
      let (sys, ref) ← jobChangeGoal x sys job .stop
      let job ← ref.get .jobChangeGoal
      jobChangeGoal x sys job .start) (Restarting m job.id (job.pid .main) base)
      (fun _ => True) := by
  rw [sat_bind, jobChangeGoal_eq]
  by_cases hm : Moves job .stop
  · rw [if_pos hm]
    have hs : job.state = .running := by
      rcases hm.2 with ⟨hm, -⟩ | ⟨-, hs⟩
      · cases hm
      · exact hs
    have hpre : job.has .preStop = false := by
      rcases hat with ⟨-, hpre⟩ | hat | hat
      · exact hpre
      · simp [hs] at hat
      · simp [hs] at hat
    have hb : job.blocker = none := by
      have hblocked := hset.blocked
      simpa [hs] using hblocked
    have hrunning : (job.setGoal .stop).state = .running := hs
    refine (jobAdvance_running_to_stopping hrunning rfl hpre hb).imp ?_
    rintro ⟨sys₁, _⟩ ⟨hlog₁, e, rfl⟩
    have hlog₁ : sys₁.log = sys.log := hlog₁
    exact @changeBack_restarting x sys₁
      { job.setGoal .stop with state := .stopping, blocker := some e } m base acts
      (hlog₁.trans hlog) (hlog₁ ▸ hafter) hmain (.inl rfl)
  · rw [if_neg hm]
    have hs : (job.setGoal .stop).state = .stopping ∨ (job.setGoal .stop).state = .killed := by
      rcases hat with ⟨hs, -⟩ | hs
      · exact absurd ⟨hgoal, .inr ⟨rfl, hs⟩⟩ hm
      · exact hs
    rw [sat_ok]
    show Sat (jobChangeGoal x sys (job.setGoal .stop) .start) _ _
    exact changeBack_restarting hlog hafter hmain hs

/-- A request that takes the job to its stop is on its way to be carried out. -/
theorem restartFor_restarting {entry : Blocked} (hset : Settled (· ≠ .security) job)
    (hgoal : job.goal ≠ .stop) (hat : job.restartStops)
    (hmain : (job.has .main && job.alive .main) = true)
    (hfresh : ∀ b ∈ job.blocking, b.message? ≠ some m) :
    Sat (restartFor x sys job entry m true)
      (Restarting m job.id (job.pid .main) sys.log) (fun _ => True) := by
  have hafter : SuccessAfter m job.id (job.pid .main) sys.log sys.log := successAfter_base
  unfold restartFor replaceBlocking
  rw [sat_bind, sat_bind]
  refine jobFinished_sat.mono ?_ fun _ _ => trivial
  rintro ⟨sys₁, _⟩ ⟨rfl, hfin⟩
  -- the requests that waited before are others
  have hno : .replied m true ∉ ((job.blocking.filterMap Blocked.message?).map fun m' =>
      Action.replied m' (!false)).reverse := by
    rw [List.mem_reverse, List.mem_map]
    rintro ⟨m', hm', heq⟩
    cases heq
    obtain ⟨b, hb, hmessage⟩ := List.mem_filterMap.mp hm'
    exact hfresh b hb hmessage
  have hnil : sys.log = [] ++ sys.log := rfl
  obtain ⟨hlog₁, hafter₁⟩ := hafter.grow hnil hfin.log hno
  have hset₁ : Settled (· ≠ .security) { job with blocking := [] ++ [entry] } :=
    hset.same ⟨rfl, rfl, rfl, rfl, rfl, fun h => h⟩
  have hgoes := stopStart_restarting (x := x) hset₁ hlog₁ hafter₁ hgoal hat hmain
  rw [sat_ok]
  rw [sat_bind] at hgoes ⊢
  refine Sat.imp hgoes fun r hr => ?_
  rw [sat_bind] at hr ⊢
  refine Sat.imp hr fun job₂ hr₂ => ?_
  rw [sat_bind]
  exact Sat.imp hr₂ fun r₃ hr₃ => hr₃

/-- A request to restart a job that runs without a `pre-stop` process, or is on its way to
stop, is answered with success only after the process of the job has ended and another one
has been spawned. -/
theorem reached_restarted {x : Host} {i : Input} {s₁ s : Sys × JobRef}
    (h : Reached Always (sys, .live job)) (hi : i.restarts m) (hgoal : job.goal ≠ .stop)
    (hat : job.restartStops) (hmain : (job.has .main && job.alive .main) = true)
    (hfresh : ∀ b ∈ job.blocking, b.message? ≠ some m) (hstep : jobStep x sys job i = .ok s₁)
    (hrun : Reach (· = s₁) (Admits (Notified m)) step s) :
    SuccessAfter m job.id (job.pid .main) sys.log s.1.log := by
  have hset : Settled (· ≠ .security) job := reached_settled h
  have hset' : ∀ startEnv, Settled (· ≠ .security)
      { job with startEnv := startEnv, stopEnv := none } := fun startEnv => hset.setEnv startEnv none
  have haccepted : Restarting m job.id (job.pid .main) sys.log s₁ := by
    cases i with
    | restart m' wait =>
      obtain ⟨rfl, rfl⟩ := hi
      have hstep : jobRestart x sys job m' true = .ok s₁ := hstep
      rw [jobRestart, if_neg hgoal] at hstep
      exact (restartFor_restarting (hset' none) hgoal hat hmain hfresh).of_ok hstep
    | classRestart env m' wait =>
      obtain ⟨rfl, rfl⟩ := hi
      have hstep : jobClassRestartInstance x sys job env m' true = .ok s₁ := hstep
      rw [jobClassRestartInstance, if_neg hgoal] at hstep
      obtain ⟨r, hr, heq⟩ := bind_eq_ok.mp hstep
      cases heq
      exact (restartFor_restarting (hset' (some env)) hgoal hat hmain hfresh).of_ok hr
    | _ => exact hi.elim
  have hsettled : s₁.2.All (Settled (· ≠ .security)) := by
    have hi' : Enabled sys job i := by
      cases i <;> trivial
    have hsteps : Sat (jobStep x sys job i) (fun r => r.2.All (Settled (· ≠ .security)))
        (fun _ => True) :=
      jobStep_settled hset hi' fun hne => absurd rfl hne
    exact hsteps.of_ok hstep
  have hinv : Restarting m job.id (job.pid .main) sys.log s ∧
      s.2.All (Settled (· ≠ .security)) := by
    refine Reach.invariant (I := fun s => Restarting m job.id (job.pid .main) sys.log s ∧
      s.2.All (Settled (· ≠ .security))) ?_ ?_ hrun
    · rintro _ rfl
      exact ⟨haccepted, hsettled⟩
    · rintro ⟨sys', job' | job'⟩ ⟨x', i'⟩ ⟨hr, hs⟩ hok
      · exact (Sat.and (jobStep_restarting hr hs hok.1 hok.2)
          (jobStep_settled hs hok.1 fun hne => absurd rfl hne)).mono (fun _ h => h) fun _ _ => trivial
      · exact ⟨hr, hs⟩
  obtain ⟨acts, -, hafter, -⟩ := hinv.1
  exact hafter

/-- What follows a request of a concrete run. -/
theorem Reached.accepts {C : Host → Sys → Job → Input → Prop}
    (_ : Reached C (sys, .live job)) (i : Input) {s₁ : Sys × JobRef}
    (_ : jobStep plainHost sys job i = .ok s₁) : Reach (· = s₁) (Admits (Notified m)) step s₁ :=
  .init rfl

/-- A notification that follows a request of a concrete run. -/
theorem Notified.next {s₁ : Sys × JobRef}
    (h : Reach (· = s₁) (Admits (Notified m)) step (sys, .live job)) (i : Input)
    (hi : Enabled sys job i ∧ Notified m plainHost sys job i) {s : Sys × JobRef}
    (hs : jobStep plainHost sys job i = .ok s) :
    Reach (· = s₁) (Admits (Notified m)) step s :=
  .step (i := (plainHost, i)) h hi hs

/-- A running service is restarted, and the request is answered. -/
theorem reached_restarted_service :
    ∃ sys job s₁ s, Reached Always (sys, .live job) ∧ job.state = .running ∧
      jobStep plainHost sys job (.restart 7 true) = .ok s₁ ∧
      Reach (· = s₁) (Admits (Notified 7)) step s ∧ .replied 7 true ∈ s.1.log ∧
      SuccessAfter 7 job.id (job.pid .main) sys.log s.1.log := by
  have h₀ := reached_newRun Always (plainClass [.main])
  have h₁ := h₀.next (.changeGoal .start) ⟨by simp [Enabled], trivial⟩ rfl
  have h₂ := h₁.next .blockerFinished ⟨rfl, trivial⟩ rfl
  have h₃ := h₂.next (.childClosed 1) ⟨rfl, trivial⟩ rfl
  have hquiet : ∀ {job : Job} {i : Input}, job.failed = false → (∀ pid, i ≠ .childError pid true) →
      ¬ failsAgain job i ∧ ¬ errorWhileKilled job i := by
    intro job i hf hi
    refine ⟨fun h => absurd (hf.symm.trans h.1) (by decide), fun h => ?_⟩
    cases i with
    | childError pid permanent => exact hi pid (congrArg _ h.1)
    | _ => exact h.elim
  have r₀ := @Reached.accepts _ _ 7 _ h₃ (.restart 7 true) _ rfl
  have r₁ := Notified.next r₀ .blockerFinished ⟨rfl, trivial, hquiet rfl (by simp)⟩ rfl
  have r₂ := Notified.next r₁ (.childEvent .main (.exited 0))
    ⟨rfl, trivial, hquiet rfl (by simp)⟩ rfl
  have r₃ := Notified.next r₂ .blockerFinished ⟨rfl, trivial, hquiet rfl (by simp)⟩ rfl
  have r₄ := Notified.next r₃ (.childClosed 2) ⟨rfl, trivial, hquiet rfl (by simp)⟩ rfl
  exact ⟨_, _, _, _, h₃, rfl, rfl, r₄, .head _, reached_restarted h₃
    (show (Input.restart 7 true).restarts 7 from ⟨rfl, rfl⟩) (by decide) (.inl ⟨rfl, rfl⟩) rfl
    (by simp) rfl r₄⟩

/-- A service with a `pre-stop` process is asked to restart.  The process is told that the
job is to start again and cancels the stop; the request is answered, and nothing was
restarted. -/
theorem preStop_restart_answered :
    ∃ sys job s₁ s, Reached Always (sys, .live job) ∧ job.goal ≠ .stop ∧
      (job.has .main && job.alive .main) = true ∧
      (∀ b ∈ job.blocking, b.message? ≠ some 7) ∧
      jobStep plainHost sys job (.restart 7 true) = .ok s₁ ∧
      Reach (· = s₁) (Admits (Notified 7)) step s ∧
      ¬ SuccessAfter 7 job.id (job.pid .main) sys.log s.1.log := by
  have h₀ := reached_newRun Always (plainClass [.main, .preStop])
  have h₁ := h₀.next (.changeGoal .start) ⟨by simp [Enabled], trivial⟩ rfl
  have h₂ := h₁.next .blockerFinished ⟨rfl, trivial⟩ rfl
  have h₃ := h₂.next (.childClosed 1) ⟨rfl, trivial⟩ rfl
  have r₀ := @Reached.accepts _ _ 7 _ h₃ (.restart 7 true) _ rfl
  have r₁ := Notified.next r₀ (.childClosed 2)
    ⟨rfl, trivial, fun h => absurd h.1 (by decide), fun h => h⟩ rfl
  have r₂ := Notified.next r₁ (.childEvent .preStop (.exited 0))
    ⟨rfl, trivial, fun h => absurd h.1 (by decide), fun h => h⟩ rfl
  refine ⟨_, _, _, _, h₃, fun h => ?_, rfl, by simp, rfl, r₂, fun h => ?_⟩
  · cases h
  have hrestarted : Restarted 1 1 [.exited 2, .spawned 1 .preStop 2] := h [] _ rfl
  exact absurd hrestarted.ended (by simp)

end Startup
