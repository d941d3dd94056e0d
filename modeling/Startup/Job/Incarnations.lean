import Startup.Job.Orders
import Startup.Job.Running

/-!
# Notifications of an earlier incarnation

The set-up pipe and the readiness pipe of a child are watched until the job is
freed, and their handlers look at the job as it is then.  `isolated_iff` says
when a notification of a child that has since been replaced leaves the job alone.
-/

namespace Startup

open Lib

variable {x : Host} {sys : Sys} {job : Job} {p : ProcessType} {pid : Pid} {i : Input}

/-- A notification about an earlier incarnation of a process: an error or the
close of a set-up pipe, or a line from a readiness pipe, that is not the latest
of that process. -/
inductive Late (job : Job) : Input → ProcessType → Prop where
  | error {pid : Pid} {d : JobProcessData} (data : job.data? pid = some d)
      (valid : d.valid = true) (old : job.processData d.process ≠ some pid) :
      Late job (.childError pid true) d.process
  | closed {pid : Pid} {d : JobProcessData} (data : job.data? pid = some d)
      (valid : d.valid = true) (old : job.processData d.process ≠ some pid) :
      Late job (.childClosed pid) d.process
  | ready {pid : Pid} {buf : String} (pipe : pid ∈ job.readyPipes)
      (old : job.processData .main ≠ some pid) (line : buf.toList.contains '\n' = true) :
      Late job (.readyText pid buf) .main

/-- The program leaves the job there, with its goal, its state and the pid of the
process `p`. -/
def Isolated (m : Except Fault (Sys × JobRef)) (job : Job) (p : ProcessType) : Prop :=
  Ends m fun _ j => j.goal = job.goal ∧ j.state = job.state ∧ j.pid p = job.pid p

/-- The condition under which a late notification is harmless. -/
def Harmless (job : Job) (p : ProcessType) : Input → Prop
  | .childError _ _ => job.pid p = 0 ∧ (p = .postStart ∨ p = .preStop ∨ job.goal = .stop) ∧
      (p = .security ∨ job.blocker.isSome = true)
  | .childClosed _ => ¬ (job.state = .spawned ∧ job.cls.expect = .none ∧ p = .main)
  | .readyText _ _ => job.state ≠ .spawned
  | _ => True

/-! ## Advancing always changes the state -/

/-- A job that waits for an event stays where it is. -/
theorem jobAdvance_blocked (hrest : job.state.spawning? = false)
    (hb : job.blocker.isSome = true) (hn : NextOk job) :
    jobAdvance x sys job = .ok (sys, .live (job.setGoal job.goal.next)) := by
  obtain ⟨⟨_, state⟩, hnext, rfl, hfollows⟩ :=
    ((jobNextState_sat hrest).mono (fun _ h => h) fun _ hf => hf.2 hn).exists_ok
  rw [jobAdvance, hnext]
  have hne : (job.setGoal job.goal.next).state ≠ state := hfollows.ne.symm
  show jobChangeState x sys (job.setGoal job.goal.next) state = _
  rw [jobChangeState, jobChangeStateLoop, if_neg hne, if_pos (by exact hb)]

theorem Enters.state_eq {old : JobState} {pass : Pass} (h : Enters x sys old job pass) :
    pass.Holds (fun _ job' _ => job'.state = job.state) (fun _ _ => True) := by
  cases h with
  | waiting => trivial
  | _ => rfl

theorem JobState.rank_pos (state : JobState) : 0 < state.rank := by
  cases state <;> decide

/-- Where a job that waits for no event can head for: nearer to its end, or from
running to stopping. -/
def Onward (old state : JobState) : Prop :=
  state.rank < old.rank ∨ (state = .stopping ∧ old = .running)

theorem Settled.onward {D : ProcessType → Prop} {state : JobState} (h : Settled D job)
    (hb : job.blocker = none) (hf : Follows job state) : Onward job.state state := by
  have hedge := hf.edge
  have hblocked := h.blocked
  have hrest := h.resting
  have hrunning := h.running
  have hwaiting := h.waiting
  rw [hb] at hblocked
  cases hs : job.state <;> cases state <;>
    simp_all [Onward, edge, JobState.rank, JobState.spawning?, JobGoal.next]

/-- A job that waits for no event goes on to another state, or does not come
back. -/
theorem Settled.advance_moves {D : ProcessType → Prop} (h : Settled D job)
    (hb : job.blocker = none) :
    Sat (jobAdvance x sys job) (fun r => r.2.All fun j => j.state ≠ job.state)
      (fun _ => True) := by
  refine jobAdvance_rule h.resting (fun _ => trivial) (fun hsome => by simp [hb] at hsome)
    fun state _ hf => ?_
  have hb' : (job.setGoal job.goal.next).blocker = none := hb
  refine (jobChangeState_rest (I := fun _ _ state => Onward job.state state)
    (F := fun _ _ => True) ?_ (fun _ _ _ _ _ _ _ _ => trivial) hb' (h.onward hb hf)).imp ?_
  · intro sys' job' state' pass ho _ _ hpass
    have hrank := hpass.rank
    have hsame := hpass.state_eq
    cases pass with
    | next sys₁ job₁ state₁ =>
      rcases hrank with hrank | hrank
      · have hsame : state₁ = state' := hrank.symm.trans hsame
        exact hsame ▸ ho
      · have hrank : state₁.rank < state'.rank := hrank
        rcases ho with ho | ⟨rfl, -⟩
        · exact .inl (by omega)
        · have hpos := state₁.rank_pos
          have hrank : state₁.rank < 1 := hrank
          omega
    | freed => trivial
  · rintro ⟨sys', job' | job'⟩ ho
    · intro (heq : job'.state = job.state)
      have ho : Onward job.state job'.state := ho
      rw [heq] at ho
      rcases ho with ho | ⟨h₁, h₂⟩
      · omega
      · simp [h₁] at h₂
    · trivial

/-! ## The handlers -/

/-- `job_next_state` keeps the goal, but for a respawn. -/
theorem jobNextState_goal (job : Job) :
    Sat (jobNextState job) (fun r => r.1.goal = job.goal.next) (fun _ => True) := by
  unfold jobNextState
  cases hs : job.state <;> cases hg : job.goal <;> dsimp only [JobGoal.next] <;>
    (try split) <;> simp [hg, Job.setGoal]

theorem jobAdvance_goal :
    Sat (jobAdvance x sys job) (fun r => r.2.All fun j => j.goal = job.goal.next)
      (fun _ => True) := by
  unfold jobAdvance
  rw [sat_bind]
  refine (jobNextState_goal job).imp ?_
  rintro ⟨job', state⟩ hg
  refine jobChangeState_persists.imp ?_
  rintro ⟨sys', job₁ | job₁⟩ h
  · exact h.goal.trans hg
  · trivial

/-- A failure that stops the job leaves the goal to stop. -/
theorem failAndAdvance_goal :
    Sat (failAndAdvance x sys job p) (fun r => r.2.All fun j => j.goal = .stop)
      (fun _ => True) := by
  unfold failAndAdvance
  rw [sat_bind]
  refine (sat_true (m := jobFailed sys job (some p) (-1))).imp fun r _ => ?_
  rw [sat_bind]
  refine (jobChangeGoal_persists (by simp)).imp ?_
  rintro ⟨sys', job' | job'⟩ h
  · have hg : job'.goal = .stop := h.goal
    simp only [JobRef.get_live, sat_bind, sat_ok]
    refine jobAdvance_goal.imp ?_
    rw [hg]
    exact fun _ => id
  · trivial

/-- Once the end of the process has been recorded, moving the job on leaves it
alone only if it waits for an event and the process was not there. -/
theorem Settled.advance_isolated {D : ProcessType → Prop} {job' : Job} {sys' : Sys}
    (h : Settled D job) (hc : SameCore (job.setPid p 0) job') :
    Isolated (jobAdvance x sys' job') job p ↔ job.pid p = 0 ∧ job.blocker.isSome = true := by
  have hset := (h.setPid p 0).same hc
  have hstate : job'.state = job.state := hc.state
  have hgoal : job'.goal = job.goal := hc.goal
  have hpid : job'.pid p = 0 := by simp [hc.pid, Job.setPid]
  have hblocker : job'.blocker = job.blocker := hc.blocker
  cases hb : job.blocker with
  | none =>
    refine iff_of_false ?_ (by simp)
    rintro ⟨sys₁, job₁, heq, -, hs, -⟩
    exact Sat.of_ok (hset.advance_moves (hblocker.trans hb)) heq (hs.trans hstate.symm)
  | some e =>
    have hwaits : job.state = .starting ∨ job.state = .stopping := h.blocked.mp (by simp [hb])
    have hrespawn : job.goal ≠ .respawn := fun hg => by
      rcases h.respawn hg with hs | hs <;> simp [hs] at hwaits
    have hnext : NextOk job' := by
      refine ⟨fun hs => ?_, fun hg => absurd (hgoal.symm.trans hg) hrespawn⟩
      rw [hstate] at hs
      simp [hs] at hwaits
    have hsome : job'.blocker.isSome = true := by simp [hblocker, hb]
    rw [jobAdvance_blocked hset.resting hsome hnext, JobGoal.next_eq (hgoal ▸ hrespawn)]
    constructor
    · rintro ⟨_, _, heq, -, -, hp⟩
      cases heq
      exact ⟨hp.symm.trans hpid, rfl⟩
    · rintro ⟨hp, -⟩
      exact ⟨_, _, rfl, hgoal, hstate, hpid.trans hp.symm⟩

/-- When `job_child_error_handler` leaves the job alone. -/
theorem childErrorHandler_isolated (h : Settled (· ≠ .security) job) (ho : Owned sys job) :
    Isolated (jobChildErrorHandler x sys job p) job p ↔
      job.pid p = 0 ∧ (p = .postStart ∨ p = .preStop ∨ job.goal = .stop) ∧
        (p = .security ∨ job.blocker.isSome = true) := by
  have hclear := h.setPid p 0
  -- the failure is recorded
  obtain ⟨⟨sys₁, job₁⟩, hfailed, hc⟩ : ∃ r, jobFailed sys (job.setPid p 0) (some p) (-1) = .ok r ∧
      SameCore (job.setPid p 0) r.2 := by
    refine Sat.exists_ok (jobFailed_sat.mono (fun _ hr => hr.core) fun f hf => hf.2 ?_)
    exact ho.releasable
  have hgoal₁ : job₁.goal = job.goal := hc.goal
  -- a goal that is already to stop is left alone
  have hstop : job.goal = .stop → jobChangeGoal x sys₁ job₁ .stop = .ok (sys₁, .live job₁) := by
    intro hg
    rw [jobChangeGoal, if_pos (hgoal₁.trans hg)]
  have hfail : Isolated (failAndAdvance x sys (job.setPid p 0) p) job p ↔
      job.pid p = 0 ∧ job.goal = .stop ∧ job.blocker.isSome = true := by
    by_cases hg : job.goal = .stop
    · have heq : failAndAdvance x sys (job.setPid p 0) p = jobAdvance x sys₁ job₁ := by
        simp [failAndAdvance, hfailed, hstop hg, bind, Except.bind]
      rw [heq, h.advance_isolated hc]
      simp [hg]
    · refine iff_of_false ?_ fun hn => hg hn.2.1
      rintro ⟨sys₂, job₂, heq, hsame, -⟩
      exact hg (hsame.symm.trans (failAndAdvance_goal.of_ok heq))
  cases p with
  | security =>
    have heq : jobChildErrorHandler x sys job .security = jobChangeGoal x sys₁ job₁ .stop := by
      simp [jobChildErrorHandler, hfailed, bind, Except.bind]
    rw [heq]
    constructor
    · rintro ⟨sys₂, job₂, heq, hsame, -, hpid⟩
      have hg : job.goal = .stop :=
        hsame.symm.trans ((jobChangeGoal_persists (by simp)).of_ok heq).goal
      rw [hstop hg] at heq
      cases heq
      refine ⟨?_, by simp [hg], .inl rfl⟩
      rw [← hpid, hc.pid]
      simp [Job.setPid]
    · rintro ⟨hpid, hg, -⟩
      have hg : job.goal = .stop := by simpa using hg
      refine ⟨_, _, hstop hg, hc.goal, hc.state, ?_⟩
      rw [hc.pid, hpid]
      simp [Job.setPid]
  | preStart | main | postStop =>
    refine hfail.trans ?_
    simp
  | postStart =>
    have hiso : Isolated (jobAdvance x sys (job.setPid .postStart 0)) job .postStart ↔
        job.pid .postStart = 0 ∧ job.blocker.isSome = true := h.advance_isolated (SameCore.refl _)
    exact Iff.trans hiso (by simp)
  | preStop =>
    have hiso : Isolated (jobAdvance x sys (job.setPid .preStop 0)) job .preStop ↔
        job.pid .preStop = 0 ∧ job.blocker.isSome = true := h.advance_isolated (SameCore.refl _)
    exact Iff.trans hiso (by simp)

/-- What the reader of a set-up pipe does to the set-up data is not compared. -/
theorem childReader_isolated {d : JobProcessData} (hd : job.data? pid = some d)
    (hvalid : d.valid = true) :
    Isolated (jobProcessChildReader x sys job pid true) job p ↔
      Isolated (jobChildErrorHandler x sys (job.modifyData pid fun d => { d with script := none })
        d.process) (job.modifyData pid fun d => { d with script := none }) p := by
  simp only [jobProcessChildReader, hd, hvalid, Bool.not_true, Bool.or_self, Bool.false_eq_true,
    if_false]
  generalize jobChildErrorHandler x sys _ d.process = m
  rcases m with f | ⟨sys', job' | job'⟩
  · exact iff_of_false (by rintro ⟨_, _, heq, -⟩; cases heq) (by rintro ⟨_, _, heq, -⟩; cases heq)
  · constructor
    · rintro ⟨_, _, heq, hj⟩
      cases heq
      exact ⟨_, _, rfl, hj⟩
    · rintro ⟨_, _, heq, hj⟩
      cases heq
      exact ⟨_, _, rfl, hj⟩
  · exact iff_of_false (by rintro ⟨_, _, heq, -⟩; cases heq) (by rintro ⟨_, _, heq, -⟩; cases heq)

/-- A job that stays as it is has been left alone. -/
theorem isolated_refl (sys : Sys) (job : Job) (p : ProcessType) :
    Isolated (.ok (sys, .live job)) job p :=
  ⟨_, _, rfl, rfl, rfl, rfl⟩

/-- When `job_process_close_handler` leaves the job alone. -/
theorem closeHandler_isolated {d : JobProcessData} (h : Settled (· ≠ .security) job)
    (hd : job.data? pid = some d) (hvalid : d.valid = true) :
    Isolated (jobProcessCloseHandler x sys job pid) job p ↔
      ¬ (job.state = .spawned ∧ job.cls.expect = .none ∧ d.process = .main) := by
  simp only [jobProcessCloseHandler, hd, hvalid, Bool.not_true, Bool.false_eq_true, if_false]
  have hcore := modifyData_core job pid fun d => { d with valid := false, script := none }
  have hset := h.same hcore
  revert hset hcore
  generalize hj : (job.modifyData pid fun d => { d with valid := false, script := none }) = job₀
  intro hcore hset
  rw [hcore.state, hcore.cls]
  by_cases hs : job.state = .spawned ∧ job.cls.expect = .none ∧ d.process = .main
  · rw [if_pos hs]
    refine iff_of_false ?_ fun hn => hn hs
    have hs₀ : job₀.state = .spawned := hcore.state.trans hs.1
    have hb : job₀.blocker = none := by
      have := hset.blocked
      rw [hs₀] at this
      simpa using this
    have hsat : Sat (jobAdvance x sys job₀ >>= fun r =>
        r.2.get .jobProcessCloseHandler >>= fun job =>
          if job.state.spawning? then jobProcessTerminated x r.1 job d.process d.status true
          else .ok (r.1, .live job)) (fun r => r.2.All fun j => j.state ≠ job.state)
        (fun _ => True) := by
      rw [sat_bind]
      have hsettled : Settling (· ≠ .security) (jobAdvance x sys job₀) := hset.advance
      refine ((hset.advance_moves hb).and hsettled).mono ?_ fun _ _ => trivial
      rintro ⟨sys', job' | job'⟩ ⟨hmoves, hset'⟩
      · have hset' : Settled _ job' := hset'
        simp only [JobRef.get_live, sat_bind, sat_ok]
        rw [if_neg (by simp [hset'.resting])]
        rw [hcore.state] at hmoves
        exact hmoves
      · trivial
    rintro ⟨sys', job', heq, -, hs', -⟩
    exact hsat.of_ok heq hs'
  · rw [if_neg hs]
    refine iff_of_true ?_ hs
    refine ⟨sys, job₀, ?_, hcore.goal, hcore.state, by rw [hcore.pid]⟩
    simp [bind, Except.bind, hset.resting]

/-- When a line from a readiness pipe leaves the job alone. -/
theorem readyText_isolated {buf : String} (h : Settled (· ≠ .security) job)
    (hline : buf.toList.contains '\n' = true) :
    Isolated (jobProcessReadyfdReader x sys job buf) job p ↔ job.state ≠ .spawned := by
  unfold jobProcessReadyfdReader
  by_cases hs : job.state = .spawned
  · rw [if_pos ⟨hs, hline⟩]
    refine iff_of_false ?_ fun hn => hn hs
    have hb : job.blocker = none := by
      have := h.blocked
      rw [hs] at this
      simpa using this
    rintro ⟨sys', job', heq, -, hs', -⟩
    exact (h.advance_moves hb).of_ok heq hs'
  · rw [if_neg fun hn => hs hn.1]
    exact iff_of_true (isolated_refl sys job p) hs

/-! ## Earlier incarnations -/

/-- In every run, a late notification leaves the job alone exactly when it is
harmless. -/
theorem isolated_iff (h : Reached Always (sys, .live job)) (hl : Late job i p) (x : Host) :
    Isolated (jobStep x sys job i) job p ↔ Harmless job p i := by
  have hset : Settled (· ≠ .security) job := reached_settled h
  cases hl with
  | error hd hvalid _ =>
    exact (childReader_isolated hd hvalid).trans (childErrorHandler_isolated
      (hset.same (modifyData_core job _ _)) ((modifyData_frame _ _).owned h.owned))
  | closed hd hvalid _ => exact closeHandler_isolated hset hd hvalid
  | ready _ _ hline => exact readyText_isolated hset hline

/-- The set-up pipe of a main process that has been respawned is closed while
the new one runs. -/
theorem isolated_closed :
    ∃ sys job, Reached Always (sys, .live job) ∧ job.pid .main = 2 ∧
      Isolated (jobStep plainHost sys job (.childClosed 1)) job .main := by
  have h₀ := reached_newRun Always { plainClass [.main] with respawn := true }
  have h₁ := h₀.next (.changeGoal .start) ⟨by simp [Enabled], trivial⟩ rfl
  have h₂ := h₁.next .blockerFinished ⟨rfl, trivial⟩ rfl
  have h₃ := h₂.next (.childEvent .main (.exited 1)) ⟨rfl, trivial⟩ rfl
  have h₄ := h₃.next .blockerFinished ⟨rfl, trivial⟩ rfl
  have h₅ := h₄.next .blockerFinished ⟨rfl, trivial⟩ rfl
  have h₆ := h₅.next (.childClosed 2) ⟨rfl, trivial⟩ rfl
  refine ⟨_, _, h₆, rfl, (isolated_iff h₆ (p := .main) ?_ plainHost).mpr fun h => ?_⟩
  · exact .closed (d := ⟨1, .main, none, 0, true⟩) rfl rfl (by decide)
  · exact absurd h.1 (by decide)

/-- The set-up error of a main process that has been respawned is handled while
the new one is being waited for: the new one is forgotten and the job stops. -/
theorem lateError_not_isolated :
    ∃ sys job, Reached Always (sys, .live job) ∧ Late job (.childError 1 true) .main ∧
      job.pid .main = 2 ∧ job.state = .spawned ∧ job.goal = .start ∧
      ∃ sys' job', jobStep plainHost sys job (.childError 1 true) = .ok (sys', .live job') ∧
        job'.pid .main = 0 ∧ job'.state = .stopping ∧ job'.goal = .stop := by
  have h₀ := reached_newRun Always { plainClass [.main] with respawn := true }
  have h₁ := h₀.next (.changeGoal .start) ⟨by simp [Enabled], trivial⟩ rfl
  have h₂ := h₁.next .blockerFinished ⟨rfl, trivial⟩ rfl
  have h₃ := h₂.next (.childEvent .main (.exited 255)) ⟨rfl, trivial⟩ rfl
  have h₄ := h₃.next .blockerFinished ⟨rfl, trivial⟩ rfl
  have h₅ := h₄.next .blockerFinished ⟨rfl, trivial⟩ rfl
  refine ⟨_, _, h₅, ?_, rfl, rfl, rfl, _, _, rfl, rfl, rfl, rfl⟩
  exact .error (d := ⟨1, .main, none, 0, true⟩) rfl rfl (by decide)

end Startup
