import Startup.Job.Replies
import Startup.Job.WakeUp

/-!
# The environment that a job is started with

A request or the events of a condition give a job an environment, which takes the place of
its old one when the job is on its way into `JOB_STARTING`.

* `Pending`, `Taken`: whether the job still has to take what it was given;
* `jobStep_same`: no step but another start writes either environment otherwise;
* `Given`: what a start gives, a new job takes at once, and any job where it enters
  `JOB_STARTING`;
* `reach_keeps`: what holds of the two environments until the next start.
-/

namespace Startup

open Lib

variable {x : Host} {sys sys' : Sys} {job job' : Job} {env : List String}

/-- The job has been given an environment for its start. -/
def Pending (env : List String) (job : Job) : Prop := job.startEnv = some env

/-- The job has taken the environment that it was given. -/
structure Taken (env : List String) (job : Job) : Prop where
  env : job.env = some env
  startEnv : job.startEnv = none

/-- It is the same job, and its environment stays or is replaced by that for its start. -/
abbrev KeptJob (_ : Sys) (job : Job) (_ : Sys) (job' : Job) : Prop :=
  job'.id = job.id ∧ KeepsEnv job job'

theorem KeptJob.closed : Closed KeptJob where
  quiet _ hid _ henv := ⟨hid, henv.toKeepsEnv⟩
  finished _ hid _ henv := ⟨hid, henv⟩
  fails h := by
    cases h with
    | already => exact ⟨rfl, .refl _⟩
    | now => exact ⟨rfl, .same rfl rfl rfl rfl⟩
  trans h h' := ⟨h'.1.trans h.1, h.2.trans h'.2⟩

theorem Taken.keeps (h : Taken env job) (hkeeps : KeepsEnv job job') : Taken env job' := by
  rcases hkeeps.moves with ⟨henv, hstart⟩ | ⟨henv, hstart⟩
  · exact ⟨henv.trans h.env, hstart.trans h.startEnv⟩
  · exact ⟨by rw [henv, h.startEnv, Option.none_or, h.env], hstart⟩

theorem Pending.keeps (h : Pending env job) (hkeeps : KeepsEnv job job') :
    Pending env job' ∨ Taken env job' := by
  rcases hkeeps.moves with ⟨-, hstart⟩ | ⟨henv, hstart⟩
  · exact .inl (hstart.trans h)
  · exact .inr ⟨by rw [henv, h, Option.some_or], hstart⟩

/-! ## Steps that start nothing -/

theorem jobFinished_same : Sat (jobFinished sys job false)
    (fun r => ∃ blocking, r.2 = { job with blocking := blocking }) (fun _ => True) :=
  jobFinished_sat.mono (fun _ hr => ⟨[], hr.1⟩) fun _ _ => trivial

theorem replaceBlocking_same {entry : Blocked} {wait : Bool} :
    Sat (replaceBlocking sys job entry wait)
      (fun r => ∃ blocking, r.2 = { job with blocking := blocking }) (fun _ => True) := by
  unfold replaceBlocking
  rw [sat_bind]
  refine jobFinished_same.imp ?_
  rintro ⟨sys', _⟩ ⟨blocking, rfl⟩
  cases wait with
  | true => exact ⟨_, rfl⟩
  | false => exact ⟨_, rfl⟩

theorem changeGoalFor_same {entry : Blocked} {message : MessageId} {wait : Bool}
    {goal : JobGoal} :
    Within KeptJob sys job (changeGoalFor x sys job entry message wait goal) := by
  unfold changeGoalFor Within
  rw [sat_bind]
  refine replaceBlocking_same.imp ?_
  rintro ⟨sys₁, _⟩ ⟨blocking, rfl⟩
  rw [sat_bind]
  refine (jobChangeGoal_within KeptJob.closed sys₁ { job with blocking := blocking } goal).imp ?_
  rintro r ⟨hid, hkeeps⟩
  exact ⟨hid, hkeeps.classId, hkeeps.moves, hkeeps.starting⟩

theorem restartFor_same {entry : Blocked} {message : MessageId} {wait : Bool} :
    Within KeptJob sys job (restartFor x sys job entry message wait) := by
  unfold restartFor Within
  rw [sat_bind]
  refine replaceBlocking_same.imp ?_
  rintro ⟨sys₁, _⟩ ⟨blocking, rfl⟩
  rw [sat_bind]
  refine (jobChangeGoal_within KeptJob.closed sys₁ { job with blocking := blocking } .stop).imp ?_
  rintro ⟨sys₂, job₂ | job₂⟩ ⟨hid₂, hkeeps₂⟩
  · rw [sat_bind, JobRef.get_live, sat_ok, sat_bind]
    refine (jobChangeGoal_within KeptJob.closed sys₂ job₂ .start).imp ?_
    rintro r ⟨hid, hkeeps⟩
    have hsame : KeepsEnv job job₂ := ⟨hkeeps₂.classId, hkeeps₂.moves, hkeeps₂.starting⟩
    exact ⟨hid.trans hid₂, hsame.trans hkeeps⟩
  · trivial

theorem blockOnEvents_same {root : EventOperator} {cond : Bool} :
    Sat (blockOnEvents sys job root cond)
      (fun r => ∃ blocking, r.2 = { job with blocking := blocking }) (fun _ => True) := by
  refine blockOnEvents_sat.imp ?_
  rintro r ⟨-, blocking, hr, -⟩
  exact ⟨blocking, hr⟩

theorem takeStopEnv_same {root : EventOperator} :
    Sat (takeStopEnv x sys job root) (fun r => KeptJob sys job r.1 r.2) (fun _ => True) := by
  unfold takeStopEnv
  split
  · rw [sat_bind]
    refine (sat_true (m := eventOperatorEnvironment _ _ _ _ _)).imp fun env _ => ?_
    refine jobFinished_same.imp ?_
    rintro ⟨sys', _⟩ ⟨blocking, rfl⟩
    exact ⟨rfl, .same rfl rfl rfl rfl⟩
  · exact ⟨rfl, .refl job⟩

theorem stopForEvents_same {root : EventOperator} :
    Within KeptJob sys job (stopForEvents x sys job root) := by
  unfold stopForEvents Within
  rw [sat_bind]
  refine takeStopEnv_same.imp ?_
  rintro ⟨sys₁, job₁⟩ ⟨hid₁, hkeeps₁⟩
  rw [sat_bind]
  refine blockOnEvents_same.imp ?_
  rintro ⟨sys₂, _⟩ ⟨blocking, rfl⟩
  dsimp only
  rw [changeGoalIfOther_eq, sat_bind]
  refine (jobChangeGoal_within KeptJob.closed sys₂ { job₁ with blocking := blocking } .stop).imp ?_
  rintro ⟨sys₃, job₃ | job₃⟩ ⟨hid₃, hkeeps₃⟩
  · rw [sat_bind, JobRef.get_live, sat_ok, sat_bind]
    have hsame : KeepsEnv job₁ job₃ := ⟨hkeeps₃.classId, hkeeps₃.moves, hkeeps₃.starting⟩
    have hall := hkeeps₁.trans hsame
    exact (sat_true (m := resetOperator _ _)).imp fun r _ =>
      ⟨hid₃.trans hid₁, hall.classId, hall.moves, hall.starting⟩
  · trivial

theorem handleStopOn_same {event : Event} :
    Within KeptJob sys job (handleStopOn x sys job event) := by
  unfold handleStopOn Within
  split
  · exact ⟨rfl, .refl job⟩
  · rw [sat_bind]
    refine (sat_true (m := handleOperator _ _ _ _ _)).imp fun r _ => ?_
    dsimp only
    split
    · exact stopForEvents_same.imp fun r' h' => ⟨h'.1, h'.2.classId, h'.2.moves, h'.2.starting⟩
    · exact ⟨rfl, .same rfl rfl rfl rfl⟩

/-- The environment for the start of the job is written: by the events or the request that
start it, and by a request to the instance, which has no environment and drops the one that
has not been taken yet. -/
def Input.startsAnew (job : Job) : Input → Prop
  | .classStart _ _ _ | .induct _ _ => job.goal ≠ .start
  | .classRestart _ _ _ => job.goal ≠ .stop
  | .start _ _ => job.goal ≠ .start ∧ job.startEnv ≠ none
  | .restart _ _ => job.goal ≠ .stop ∧ job.startEnv ≠ none
  | _ => False

/-- Every other step leaves the environments as they are, or the job takes what it was given. -/
theorem jobStep_same {i : Input} (hrest : job.state.spawning? = false)
    (hi : ¬ i.startsAnew job) : Within KeptJob sys job (jobStep x sys job i) := by
  have hrefuse : ∀ m, Within KeptJob sys job (refuse sys job m) := fun m => ⟨rfl, .refl job⟩
  -- the environment of the stop does not matter
  have hstop : ∀ {stopEnv : Option (List String)} {c : Except Fault (Sys × JobRef)},
      Within KeptJob sys { job with stopEnv := stopEnv } c → Within KeptJob sys job c :=
    fun hc => Sat.imp hc fun r hr => ⟨hr.1, hr.2.classId, hr.2.moves, hr.2.starting⟩
  -- nor what is dropped where nothing has been given
  have hnone : ∀ {stopEnv : Option (List String)} {c : Except Fault (Sys × JobRef)},
      job.startEnv = none → Within KeptJob sys { job with startEnv := none, stopEnv := stopEnv } c →
      Within KeptJob sys job c := by
    intro stopEnv c hn hc
    have hsame : KeepsEnv job { job with startEnv := none, stopEnv := stopEnv } :=
      .same rfl rfl hn.symm rfl
    exact Sat.imp hc fun r hr => ⟨hr.1, hsame.trans hr.2⟩
  cases i with
  | changeGoal goal => exact jobChangeGoal_within KeptJob.closed sys job goal
  | start m wait =>
    dsimp only [jobStep, jobStart]
    split
    · exact hrefuse m
    · rename_i hg
      split
      · exact hrefuse m
      · exact hnone (by_contra fun hn => hi ⟨hg, hn⟩) changeGoalFor_same
  | stop m wait =>
    dsimp only [jobStep, jobStop]
    split
    · exact hrefuse m
    · exact hstop changeGoalFor_same
  | restart m wait =>
    dsimp only [jobStep, jobRestart]
    split
    · exact hrefuse m
    · rename_i hg
      exact hnone (by_contra fun hn => hi ⟨hg, hn⟩) restartFor_same
  | classStart env m wait =>
    dsimp only [jobStep, jobClassStartInstance]
    rw [if_pos (not_not.mp hi)]
    exact hrefuse m
  | classStop env m wait =>
    dsimp only [jobStep, jobClassStopInstance]
    split
    · exact hrefuse m
    · exact hstop changeGoalFor_same
  | classRestart env m wait =>
    dsimp only [jobStep, jobClassRestartInstance]
    rw [if_pos (not_not.mp hi)]
    exact hrefuse m
  | stopEvent event => exact handleStopOn_same
  | induct root env =>
    have hgoal : job.goal = .start := not_not.mp hi
    dsimp only [jobStep]
    unfold inductInstance takeStartEnv Within
    rw [if_neg (not_not.mpr hgoal), sat_bind, sat_ok, sat_bind]
    refine blockOnEvents_same.imp ?_
    rintro ⟨sys', _⟩ ⟨blocking, rfl⟩
    dsimp only
    rw [changeGoalIfOther, if_neg (not_not.mpr hgoal)]
    exact ⟨rfl, .same rfl rfl rfl rfl⟩
  | elsewhere sys' => exact ⟨rfl, .refl job⟩
  | blockerFinished | childError | childClosed | childEvent | readyText | killTimer =>
    exact notification_within KeptJob.closed hrest trivial

/-! ## Starts -/

/-- The job has not been started before, and does not run. -/
structure Fresh (job : Job) : Prop where
  state : job.state = .waiting
  goal : job.goal = .stop
  blocker : job.blocker = none

/-- What has become of an environment that was given to `job₀`: a new job takes it at once,
and any job where it enters `JOB_STARTING`. -/
structure Given (job₀ : Job) (env : List String) (job : Job) : Prop where
  has : Pending env job ∨ Taken env job
  fresh : Fresh job₀ → Taken env job
  starting : job₀.state ≠ .starting → job.state = .starting → Taken env job

variable {job₀ : Job}

theorem Pending.starting (h : Pending env job) (hkeeps : KeepsEnv job job')
    (hs : job.state ≠ .starting) (hs' : job'.state = .starting) : Taken env job' := by
  refine (h.keeps hkeeps).resolve_left fun hpending => ?_
  have hnone := (hkeeps.starting hs').resolve_left hs
  exact Option.some_ne_none env (hpending.symm.trans hnone)

theorem Given.keeps (h : Given job₀ env job) (hkeeps : KeepsEnv job job') :
    Given job₀ env job' := by
  refine ⟨h.has.elim (·.keeps hkeeps) fun ht => .inr (ht.keeps hkeeps),
    fun hnew => (h.fresh hnew).keeps hkeeps, fun hs₀ hs' => ?_⟩
  by_cases hs : job.state = .starting
  · exact (h.starting hs₀ hs).keeps hkeeps
  · exact h.has.elim (fun hp => hp.starting hkeeps hs hs') fun ht => ht.keeps hkeeps

/-- A job that waits takes the environment on its way into `JOB_STARTING`. -/
theorem jobChangeGoal_takes (h : Pending env job) (hs : job.state = .waiting)
    (hg : job.goal = .stop) (hb : job.blocker = none) :
    Sat (jobChangeGoal x sys job .start) (fun r => r.2.All (Taken env)) (fun _ => True) := by
  have hgoal : ¬ job.goal = .start := by simp [hg]
  have hadvance : jobChangeGoal x sys job .start =
      jobChangeState x sys (job.setGoal .start) .starting := by
    rw [jobChangeGoal, if_neg hgoal]
    dsimp only
    rw [if_pos (show (job.setGoal .start).state = .waiting from hs), jobAdvance, jobNextState]
    simp only [Job.setGoal, hs]
    rfl
  rw [hadvance]
  -- the first pass of the loop is the one that takes it
  have hrest : Sat (jobChangeState x sys (job.setGoal .start) .starting)
      (Rests (fun _ job' state => Taken env job' ∨ job' = job.setGoal .start ∧ state = .starting)
        fun _ _ => True) (fun _ => True) := by
    refine jobChangeState_rest ?_ (fun _ _ _ _ _ _ _ _ => trivial) hb (.inr ⟨rfl, rfl⟩)
    rintro sys₁ job₁ state pass hor - - hpass
    rcases hor with htaken | ⟨rfl, rfl⟩
    · have htaken' : Taken env { job₁ with state := state } := ⟨htaken.env, htaken.startEnv⟩
      have hwithin := hpass.within KeptJob.closed
      cases pass with
      | next => exact .inl (htaken'.keeps hwithin.2)
      | freed => trivial
    · cases hpass with
      | starting =>
        refine .inl ⟨?_, rfl⟩
        show (if job.startEnv.isSome then job.startEnv else job.env) = some env
        rw [show job.startEnv = some env from h]
        rfl
      | spawn p _ state | noSpawn p state | wait p state | skip p state =>
        cases p <;> cases state
      | _ => contradiction
  refine hrest.imp ?_
  rintro ⟨sys', job' | job'⟩ h
  · rcases h with htaken | ⟨heq, hstate⟩
    · exact htaken
    · rw [heq] at hstate
      exact absurd (hs.symm.trans hstate) (by decide)
  · trivial

theorem jobChangeGoal_gives (h : Pending env job) (hs : job₀.state = job.state)
    (hnew : Fresh job₀ → Fresh job) :
    Sat (jobChangeGoal x sys job .start) (fun r => r.2.All (Given job₀ env)) (fun _ => True) := by
  have hwithin := jobChangeGoal_within KeptJob.closed (x := x) sys job .start
  rw [sat_iff]
  refine ⟨?_, fun _ _ => trivial⟩
  rintro ⟨sys', job' | job'⟩ hr
  · have hkeeps : KeepsEnv job job' := (hwithin.of_ok hr).2
    refine ⟨h.keeps hkeeps, fun hn => ?_, fun hs₀ => h.starting hkeeps (hs ▸ hs₀)⟩
    obtain ⟨hs, hg, hb⟩ := hnew hn
    exact (jobChangeGoal_takes h hs hg hb).of_ok hr
  · trivial

/-- The reply of `job_class_start` and `job_class_restart` reads the path of the job. -/
theorem getUnlessWait_sat {Q : Job → Prop} {wait : Bool} {fn : SourceFn}
    {m : Except Fault (Sys × JobRef)} (hm : Sat m (fun r => r.2.All Q) (fun _ => True)) :
    Sat (do
      let (sys, ref) ← m
      if wait then .ok (sys, ref)
      else
        let job ← ref.get fn
        .ok (sys, .live job)) (fun r => r.2.All Q) (fun _ => True) := by
  rw [sat_bind]
  refine hm.imp ?_
  rintro ⟨sys', job' | job'⟩ h
  · cases wait <;> exact h
  · cases wait <;> trivial

theorem jobClassStartInstance_gives {m : MessageId} {wait : Bool} (hg : job.goal ≠ .start) :
    Sat (jobClassStartInstance x sys job env m wait) (fun r => r.2.All (Given job env))
      (fun _ => True) := by
  unfold jobClassStartInstance
  rw [if_neg hg]
  refine getUnlessWait_sat ?_
  unfold changeGoalFor
  rw [sat_bind]
  refine replaceBlocking_same.imp ?_
  rintro ⟨sys₁, _⟩ ⟨blocking, rfl⟩
  rw [sat_bind]
  exact jobChangeGoal_gives rfl rfl fun hn => ⟨hn.state, hn.goal, hn.blocker⟩

theorem jobClassRestartInstance_gives {m : MessageId} {wait : Bool} (hg : job.goal ≠ .stop) :
    Sat (jobClassRestartInstance x sys job env m wait)
      (fun r => r.2.All (Given job env)) (fun _ => True) := by
  unfold jobClassRestartInstance
  rw [if_neg hg]
  refine getUnlessWait_sat (restartFor_same.imp ?_)
  rintro ⟨sys', job' | job'⟩ ⟨-, hkeeps⟩
  · have hp : Pending env { job with startEnv := some env, stopEnv := none } := rfl
    exact ⟨hp.keeps hkeeps, fun hn => absurd hn.goal hg, fun hs₀ => hp.starting hkeeps hs₀⟩
  · trivial

/-- The environment is that of the class and the events, and their descriptors. -/
theorem inductInstance_gives {root : EventOperator} (hg : job.goal ≠ .start) :
    Sat (inductInstance x sys job root env)
      (fun r => ∃ sys' fds env', Extends sys sys' [] ∧
        eventOperatorFds x sys' root env "UPSTART_FDS" = .ok (fds, env') ∧
        r.2.All (Given job env')) (fun _ => True) := by
  unfold inductInstance takeStartEnv
  rw [if_pos hg, sat_bind, sat_bind]
  refine jobFinished_sat.mono ?_ fun _ _ => trivial
  rintro ⟨sys₁, _⟩ ⟨rfl, hfinished⟩
  dsimp only
  rw [sat_bind, sat_iff]
  refine ⟨?_, fun _ _ => trivial⟩
  rintro ⟨fds, env'⟩ hdescribed
  rw [sat_ok, sat_bind]
  refine blockOnEvents_same.imp ?_
  rintro ⟨sys₂, _⟩ ⟨blocking', rfl⟩
  dsimp only
  rw [changeGoalIfOther_eq]
  have hpending : Pending env'
      { job with startEnv := some env', fds := fds, blocking := blocking' } := rfl
  have hgives : Sat (jobChangeGoal x sys₂ _ .start) (fun r => r.2.All (Given job env'))
      (fun _ => True) :=
    jobChangeGoal_gives hpending rfl fun hn => ⟨hn.state, hn.goal, hn.blocker⟩
  exact hgives.imp fun r hr => ⟨_, fds, env', hfinished.queue, hdescribed, hr⟩

/-! ## Runs -/

/-- No input of the run starts the job anew. -/
abbrev StartsNothing : Host → Sys → Job → Input → Prop := fun _ _ job i => ¬ i.startsAnew job

/-- What every other step preserves holds until the job is started again. -/
theorem reach_keeps {P : Job → Prop} {s₁ s : Sys × JobRef}
    (hkeeps : ∀ {job job' : Job}, P job → KeepsEnv job job' → P job')
    (h : s₁.2.All P) (hsettled : s₁.2.All (Settled (· ≠ .security)))
    (hrun : Reach (· = s₁) (Admits StartsNothing) step s) :
    s.2.All P ∧ s.2.All (Settled (· ≠ .security)) := by
  refine Reach.invariant (I := fun s => s.2.All P ∧ s.2.All (Settled (· ≠ .security))) ?_ ?_ hrun
  · rintro _ rfl
    exact ⟨h, hsettled⟩
  · rintro ⟨sys', job' | job'⟩ ⟨x', i'⟩ ⟨hp, hs⟩ hok
    · have hwithin : Within KeptJob sys' job' (jobStep x' sys' job' i') :=
        jobStep_same hs.resting hok.2
      refine (Sat.and hwithin (jobStep_settled hs hok.1 fun hne => absurd rfl hne)).mono ?_
        fun _ _ => trivial
      rintro ⟨sys₂, job₂ | job₂⟩ ⟨hsame, hs₂⟩
      · exact ⟨hkeeps hp hsame.2, hs₂⟩
      · exact ⟨trivial, trivial⟩
    · exact ⟨hp, hs⟩

end Startup
