import Startup.Job.Machine

/-!
# What calls on a job are made of

As far as the requests that wait for it are concerned, a call on a job is made of
calls of `job_finished`, calls of `job_failed`, and the rest, which answers nobody.
`Closed R` says that the relation `R`, between the shared state and the job before
and after, holds of each of these and of one after the other; then it holds of
every call (`Within`):

* `jobChangeState_within`, `jobChangeGoal_within`: the state machine;
* `notification_within`: every notification.
-/

namespace Startup

open Lib

/-- An event has an entry for the client that emitted it. -/
def Sys.AwaitsEmit (sys : Sys) (m : MessageId) : Prop :=
  ∃ ev ∈ sys.events, .emitMethod m ∈ ev.blocking

/-- No request is answered, and no new event has an emitter that waits for it. -/
structure NoAnswer (sys sys' : Sys) : Prop where
  log : ∃ acts, sys'.log = acts ++ sys.log ∧ ∀ m ok, .replied m ok ∉ acts
  emits : ∀ m, sys'.AwaitsEmit m → sys.AwaitsEmit m

/-- The environment of a job stays, or the one that has been given for its start takes its
place, which it does where the job enters `JOB_STARTING`. -/
structure KeepsEnv (job job' : Job) : Prop where
  classId : job'.classId = job.classId
  moves : job'.env = job.env ∧ job'.startEnv = job.startEnv ∨
    job'.env = job.startEnv.or job.env ∧ job'.startEnv = none
  starting : job'.state = .starting → job.state = .starting ∨ job'.startEnv = none

/-- The job has come to where its goal takes it; a task does so only at its end. -/
def Job.Arrived (job : Job) : Prop :=
  job.state = .waiting ∨ job.state = .running ∧ job.cls.task = false

/-- A job that nobody is told of does not arrive. -/
structure KeepsPlace (job job' : Job) : Prop extends KeepsEnv job job' where
  arrived : job'.Arrived → job.Arrived

/-- The relation holds of what calls on a job are made of. -/
structure Closed (R : Sys → Job → Sys → Job → Prop) : Prop where
  quiet : ∀ {sys sys' : Sys} {job job' : Job}, NoAnswer sys sys' → job'.id = job.id →
    job'.blocking = job.blocking → KeepsPlace job job' → R sys job sys' job'
  finished : ∀ {sys sys' : Sys} {job job' : Job}, Finished false sys job.blocking sys' →
    job'.id = job.id → job'.blocking = [] → KeepsEnv job job' → R sys job sys' job'
  fails : ∀ {sys sys' : Sys} {job job' : Job} {p : Option ProcessType} {status : Int},
    Fails sys job p status sys' job' → R sys job sys' job'
  trans : ∀ {sys sys' sys'' : Sys} {job job' job'' : Job}, R sys job sys' job' →
    R sys' job' sys'' job'' → R sys job sys'' job''

/-- A call that stays within the relation. -/
def Within (R : Sys → Job → Sys → Job → Prop) (sys : Sys) (job : Job)
    (m : Except Fault (Sys × JobRef)) : Prop :=
  Sat m (fun r => R sys job r.1 r.2.job) (fun _ => True)

namespace KeepsEnv

variable {job job' job'' : Job}

/-- Neither the environments nor the state are written. -/
theorem same (hclass : job'.classId = job.classId) (henv : job'.env = job.env)
    (hstart : job'.startEnv = job.startEnv) (hstate : job'.state = job.state) : KeepsEnv job job' :=
  ⟨hclass, .inl ⟨henv, hstart⟩, fun h => .inl (hstate.symm.trans h)⟩

theorem refl (job : Job) : KeepsEnv job job := .same rfl rfl rfl rfl

/-- An environment that has been taken is not given again. -/
theorem startEnv_none (h : KeepsEnv job job') (hnone : job.startEnv = none) :
    job'.startEnv = none := by
  rcases h.moves with ⟨-, hstart⟩ | ⟨-, hstart⟩
  · exact hstart.trans hnone
  · exact hstart

theorem trans (h : KeepsEnv job job') (h' : KeepsEnv job' job'') : KeepsEnv job job'' := by
  refine ⟨h'.classId.trans h.classId, ?_, fun hs => ?_⟩
  · rcases h.moves with ⟨henv, hstart⟩ | ⟨henv, hstart⟩ <;>
      rcases h'.moves with ⟨henv', hstart'⟩ | ⟨henv', hstart'⟩ <;>
      simp_all
  · rcases h'.starting hs with hs' | hnone
    · exact (h.starting hs').imp_right h'.startEnv_none
    · exact .inr hnone

/-- Another state than `JOB_STARTING` is entered. -/
theorem entered (job : Job) {state : JobState} (hs : state ≠ .starting) :
    KeepsEnv job { job with state := state } :=
  ⟨rfl, .inl ⟨rfl, rfl⟩, fun h => absurd h hs⟩

/-- `job_change_state` on the way into `JOB_STARTING`. -/
theorem renew (job : Job) (state : JobState) (blocker : Option EventId) :
    KeepsEnv job { { job with state := state }.renew with blocker := blocker } := by
  refine ⟨rfl, .inr ⟨?_, rfl⟩, fun _ => .inr rfl⟩
  show (if job.startEnv.isSome then job.startEnv else job.env) = _
  cases job.startEnv <;> rfl

end KeepsEnv

namespace KeepsPlace

variable {job job' job'' : Job}

/-- Neither the environments nor the state are written. -/
theorem same (hclass : job'.classId = job.classId) (henv : job'.env = job.env)
    (hstart : job'.startEnv = job.startEnv) (hstate : job'.state = job.state)
    (hcls : job'.cls = job.cls) : KeepsPlace job job' := by
  refine ⟨.same hclass henv hstart hstate, fun h => ?_⟩
  rw [Job.Arrived, hstate, hcls] at h
  exact h

theorem refl (job : Job) : KeepsPlace job job := .same rfl rfl rfl rfl rfl

theorem trans (h : KeepsPlace job job') (h' : KeepsPlace job' job'') : KeepsPlace job job'' :=
  ⟨h.toKeepsEnv.trans h'.toKeepsEnv, fun harrived => h.arrived (h'.arrived harrived)⟩

/-- Another state is entered, in which the job has not arrived. -/
theorem entered (job : Job) {state : JobState} (hs : state ≠ .starting)
    (hstay : ¬ { job with state := state }.Arrived) : KeepsPlace job { job with state := state } :=
  ⟨.entered job hs, fun h => absurd h hstay⟩

/-- `job_change_state` on the way into `JOB_STARTING`. -/
theorem renew (job : Job) (blocker : Option EventId) :
    KeepsPlace job { { job with state := .starting }.renew with blocker := blocker } :=
  ⟨.renew job .starting blocker, fun h => absurd h (by simp [Job.Arrived, Job.renew])⟩

end KeepsPlace

namespace NoAnswer

variable {sys sys' sys'' : Sys}

theorem of_events (hlog : sys'.log = sys.log) (hevents : sys'.events = sys.events) :
    NoAnswer sys sys' :=
  ⟨⟨[], hlog, by simp⟩, fun m h => by rwa [Sys.AwaitsEmit, hevents] at h⟩

theorem refl (sys : Sys) : NoAnswer sys sys := .of_events rfl rfl

theorem trans (h : NoAnswer sys sys') (h' : NoAnswer sys' sys'') : NoAnswer sys sys'' := by
  obtain ⟨acts, hlog, hacts⟩ := h.log
  obtain ⟨acts', hlog', hacts'⟩ := h'.log
  refine ⟨⟨acts' ++ acts, by rw [hlog', hlog, List.append_assoc], fun m ok hm => ?_⟩,
    fun m hm => h.emits m (h'.emits m hm)⟩
  rcases List.mem_append.mp hm with hm | hm
  · exact hacts' m ok hm
  · exact hacts m ok hm

/-- An action that is not an answer. -/
theorem act (sys : Sys) {a : Action} (ha : ∀ m ok, a ≠ .replied m ok) :
    NoAnswer sys (sys.act a) := by
  refine ⟨⟨[a], rfl, fun m ok hm => ?_⟩, fun m h => h⟩
  exact ha m ok (List.mem_singleton.mp hm).symm

/-- The event of a job has an entry for the job at most. -/
theorem emitted {job : Job} {e : EventId} (h : Emitted sys job sys' e) : NoAnswer sys sys' := by
  refine ⟨⟨[], h.log, by simp⟩, fun m hm => ?_⟩
  obtain ⟨new, hevents, -, -, -, -, hblocking⟩ := h.events
  obtain ⟨ev, hev, hentry⟩ := hm
  rw [hevents] at hev
  rcases List.mem_append.mp hev with hev | hev
  · exact ⟨ev, hev, hentry⟩
  · rw [List.mem_singleton.mp hev, hblocking] at hentry
    split at hentry <;> simp at hentry

end NoAnswer

/-- The lists of the events do not change when only blocks do. -/
theorem Extends.awaitsEmit {sys sys' : Sys} (h : Extends sys sys' []) {m : MessageId}
    (hm : sys'.AwaitsEmit m) : sys.AwaitsEmit m := by
  obtain ⟨ev', hev', hentry⟩ := hm
  have hmem : ev'.bare ∈ sys.events.map Event.bare := by
    have hevents := h.events
    rw [List.append_nil] at hevents
    rw [← hevents]
    exact List.mem_map_of_mem hev'
  obtain ⟨ev, hev, hbare⟩ := List.mem_map.mp hmem
  have hblocking : ev.bare.blocking = ev'.bare.blocking := by rw [hbare]
  exact ⟨ev, hev, show .emitMethod m ∈ ev.blocking from
    (show ev.blocking = ev'.blocking from hblocking) ▸ hentry⟩

section

variable {R : Sys → Job → Sys → Job → Prop} {x : Host} {sys sys' : Sys} {job job' : Job}

namespace Closed

theorem refl (hR : Closed R) (sys : Sys) (job : Job) : R sys job sys job :=
  hR.quiet (.refl sys) rfl rfl (.refl job)

/-- Only fields of the job that no request waits for are written. -/
theorem same (hR : Closed R) (sys : Sys) {job job' : Job} (hid : job'.id = job.id)
    (h : job'.blocking = job.blocking) (henv : KeepsPlace job job') : R sys job sys job' :=
  hR.quiet (.refl sys) hid h henv

/-- An action that is not an answer. -/
theorem act (hR : Closed R) (sys : Sys) {job job' : Job} {a : Action}
    (ha : ∀ m ok, a ≠ .replied m ok) (hid : job'.id = job.id)
    (h : job'.blocking = job.blocking) (henv : KeepsPlace job job') :
    R sys job (sys.act a) job' :=
  hR.quiet (.act sys ha) hid h henv

end Closed

namespace Within

theorem after (hR : Closed R) {m : Except Fault (Sys × JobRef)} (h : Within R sys' job' m)
    (hto : R sys job sys' job') : Within R sys job m :=
  Sat.imp h fun _ h' => hR.trans hto h'

theorem ok (hR : Closed R) (sys : Sys) (job : Job) :
    Within R sys job (.ok (sys, .live job)) :=
  hR.refl sys job

/-- The job is accessed after a call. -/
theorem get {m : Except Fault (Sys × JobRef)} {fn : SourceFn}
    {k : Sys → Job → Except Fault (Sys × JobRef)} (hm : Within R sys job m)
    (hk : ∀ sys' job', R sys job sys' job' → Within R sys job (k sys' job')) :
    Within R sys job (do
      let r ← m
      let job ← r.2.get fn
      k r.1 job) := by
  rw [Within, sat_bind]
  refine Sat.imp hm ?_
  rintro ⟨sys', job' | job'⟩ h
  · exact hk sys' job' h
  · trivial

end Within

/-! ## The state machine -/

theorem Enters.within (hR : Closed R) {old : JobState} {pass : Pass}
    (h : Enters x sys old job pass) :
    pass.Holds (fun sys' job' _ => R sys job sys' job') (R sys job) := by
  cases h with
  | starting st goal from_ emit =>
    refine hR.quiet ⟨⟨[], emit.log, by simp⟩, ?_⟩ rfl rfl ⟨.renew job job.state _, fun h => h⟩
    exact (NoAnswer.emitted ⟨emit.fresh, emit.lastEvent, emit.lastPid, emit.log,
      emit.events, emit.named⟩).emits
  | spawn p proc =>
    exact hR.quiet ((NoAnswer.act sys (a := .spawned job.id p (sys.lastPid + 1)) (by simp)).trans
      (.of_events rfl rfl)) rfl rfl (.same rfl rfl rfl rfl rfl)
  | noSpawn | wait | skip | dead => exact hR.refl _ _
  | resumed st goal from_ finish => exact hR.finished finish rfl rfl (.same rfl rfl rfl rfl)
  | running st goal from_ emit task finish | waiting st goal from_ emit finish =>
    exact hR.trans (hR.quiet (.emitted emit) rfl rfl (.refl job))
      (hR.finished finish rfl rfl (.same rfl rfl rfl rfl))
  | runningTask st goal from_ emit | stopping st from_ emit =>
    exact hR.quiet (.emitted emit) rfl rfl (.same rfl rfl rfl rfl rfl)
  | kill => exact hR.act sys (by simp) rfl rfl (.same rfl rfl rfl rfl rfl)

/-- Where a job arrives, those that wait for it are released at once. -/
theorem Enters.arrives (hR : Closed R) {state : JobState} {pass : Pass}
    (h : Enters x sys job.state { job with state := state } pass)
    (harrived : { job with state := state }.Arrived) :
    pass.Holds (fun sys' job' _ => R sys job sys' job') (R sys job) := by
  have hne : state ≠ .starting := by
    rintro rfl
    exact absurd harrived (by simp [Job.Arrived])
  have hkeeps : ∀ {stopEnv : Option (List String)},
      KeepsEnv job { job with state := state, stopEnv := stopEnv, blocking := [] } :=
    ⟨rfl, .inl ⟨rfl, rfl⟩, fun h => absurd h hne⟩
  cases h with
  | resumed st goal from_ finish => exact hR.finished finish rfl rfl hkeeps
  | running st goal from_ emit task finish | waiting st goal from_ emit finish =>
    exact hR.trans (hR.quiet (.emitted emit) rfl rfl (.refl job))
      (hR.finished finish rfl rfl hkeeps)
  | spawn p _ st | noSpawn p st | wait p st | skip p st =>
    cases p <;> simp_all [Job.Arrived, ProcessType.spawnState, ProcessType.waitState]
  | _ => simp_all [Job.Arrived]

theorem jobChangeState_within (hR : Closed R) (sys : Sys) (job : Job) (state : JobState) :
    Within R sys job (jobChangeState x sys job state) := by
  refine (jobChangeState_rule (I := fun sys' job' _ => R sys job sys' job')
    (F := R sys job) ?_ (fun _ _ _ _ _ _ _ _ => trivial) (hR.refl sys job)).imp ?_
  · intro sys' job' state pass h _ _ hpass
    by_cases hs : state = .starting
    · subst hs
      cases hpass with
      | starting st goal from_ emit =>
        refine hR.trans h (hR.quiet ⟨⟨[], emit.log, by simp⟩, ?_⟩ rfl rfl (.renew job' _))
        exact (NoAnswer.emitted ⟨emit.fresh, emit.lastEvent, emit.lastPid, emit.log,
          emit.events, emit.named⟩).emits
      | spawn p _ state | noSpawn p state | wait p state | skip p state =>
        cases p <;> cases state
      | _ => contradiction
    by_cases harrived : { job' with state := state }.Arrived
    · have harrives := hpass.arrives hR harrived
      cases pass with
      | next => exact hR.trans h harrives
      | freed => exact hR.trans h harrives
    · have hwithin := hpass.within hR
      have h : R sys job sys' { job' with state := state } :=
        hR.trans h (hR.same sys' rfl rfl (.entered job' hs harrived))
      cases pass with
      | next => exact hR.trans h hwithin
      | freed => exact hR.trans h hwithin
  · rintro ⟨sys', job' | job'⟩ h
    · obtain ⟨_, h, -⟩ := h
      exact h
    · exact h

theorem jobNextState_blocking (job : Job) :
    Sat (jobNextState job)
      (fun r => r.1.id = job.id ∧ r.1.blocking = job.blocking ∧ KeepsPlace job r.1)
      (fun _ => True) := by
  unfold jobNextState
  cases job.state <;> cases job.goal <;> first
    | exact ⟨rfl, rfl, .same rfl rfl rfl rfl rfl⟩
    | trivial
    | (dsimp only; split <;> exact ⟨rfl, rfl, .same rfl rfl rfl rfl rfl⟩)

/-- From a state in which a process is being spawned the job neither starts again nor
arrives. -/
theorem jobNextState_onwards (h : job.state.spawning? = true) :
    Sat (jobNextState job) (fun r => r.2 ≠ .starting ∧ r.2 ≠ .waiting ∧ r.2 ≠ .running)
      (fun _ => True) := by
  unfold jobNextState
  cases hs : job.state <;> rw [hs] at h <;> cases job.goal <;> first
    | exact absurd h (by decide)
    | trivial
    | simp

theorem jobAdvance_within (hR : Closed R) (sys : Sys) (job : Job) :
    Within R sys job (jobAdvance x sys job) := by
  unfold jobAdvance Within
  rw [sat_bind]
  refine (jobNextState_blocking job).imp fun r hr => ?_
  exact (jobChangeState_within hR sys r.1 r.2).after hR (hR.same sys hr.1 hr.2.1 hr.2.2)

theorem jobChangeGoal_within (hR : Closed R) (sys : Sys) (job : Job) (goal : JobGoal) :
    Within R sys job (jobChangeGoal x sys job goal) := by
  rw [jobChangeGoal_eq]
  split
  · exact (jobAdvance_within hR sys _).after hR (hR.same sys rfl rfl (.same rfl rfl rfl rfl rfl))
  · exact hR.same sys rfl rfl (.same rfl rfl rfl rfl rfl)

/-! ## The end of a process -/

theorem Terminates.within (hR : Closed R) {p : ProcessType} {status : Int} {ref : JobRef}
    {v : Verdict} (h : Terminates x sys job status p sys' ref v) : R sys job sys' ref.job := by
  have hcatch : R sys job sys (jobProcessCatchRunaway x job).1 := by
    unfold jobProcessCatchRunaway
    repeat' split
    all_goals exact hR.same sys rfl rfl (.same rfl rfl rfl rfl rfl)
  cases h with
  | runaway state goal fail => exact hR.trans hcatch (hR.fails fail)
  | respawnLater => exact hR.trans hcatch (hR.same sys rfl rfl (.same rfl rfl rfl rfl rfl))
  | respawnSpawned state goal change =>
    have hchange := (jobChangeState_within hR sys (jobProcessCatchRunaway x job).1
      .stopping).of_ok change
    exact hR.trans hcatch hchange
  | respawn => exact hcatch
  | _ => exact hR.refl _ _

theorem cancelKill_within (hR : Closed R) (sys : Sys) (job : Job) (p : ProcessType) (pid : Pid) :
    R sys job sys (job.cancelKill.setPid p pid) := by
  unfold Job.cancelKill
  split <;> exact hR.same sys rfl rfl (.same rfl rfl rfl rfl rfl)

theorem Ended.within (hR : Closed R) {p : ProcessType} {status : Int} {failed : Bool}
    (h : Ended sys job p status failed sys' job') : R sys job sys' job' := by
  have hcancel : R sys job sys (job.cancelKill.setPid p 0) := cancelKill_within hR sys job p 0
  cases h with
  | failed fail => exact hR.trans hcancel (hR.fails fail)
  | ok => exact hcancel

theorem afterTerminated_within (hR : Closed R) (sys : Sys) (job : Job) (p : ProcessType)
    (status : Int) (v : Verdict) :
    Within R sys job (afterTerminated x sys job p status false v) := by
  refine afterTerminated_rule (fun _ _ => trivial) (fun sys' job' he _ _ => he.within hR)
    (fun sys' job' he _ _ => (jobAdvance_within hR sys' job').after hR (he.within hR))
    fun sys' job' he _ => ?_
  refine (jobChangeGoal_within hR sys' job' .stop).imp ?_
  rintro ⟨sys₁, ref⟩ h j rfl
  have h₁ : R sys job sys₁ j := hR.trans (he.within hR) h
  exact ⟨fun _ => h₁, fun _ _ => (jobAdvance_within hR sys₁ j).after hR h₁⟩

theorem jobProcessTerminated_within (hR : Closed R) (sys : Sys) (job : Job) (p : ProcessType)
    (status : Int) (hrest : job.state.spawning? = false) :
    Within R sys job (jobProcessTerminated x sys job p status false) :=
  jobProcessTerminated_rule hrest (fun _ _ => trivial) fun sys' job' v ht =>
    (afterTerminated_within hR sys' job' p status v).after hR (ht.within hR)

/-! ## The set-up pipe -/

theorem failAndAdvance_within (hR : Closed R) (sys : Sys) (job : Job) (p : ProcessType) :
    Within R sys job (failAndAdvance x sys job p) := by
  unfold failAndAdvance Within
  rw [sat_bind]
  refine jobFailed_sat.mono (fun r hr => ?_) fun _ _ => trivial
  exact Within.get ((jobChangeGoal_within hR r.1 r.2 .stop).after hR (hR.fails hr))
    fun sys₁ job₁ h₁ => (jobAdvance_within hR sys₁ job₁).after hR h₁

theorem jobChildErrorHandler_within (hR : Closed R) (sys : Sys) (job : Job) (p : ProcessType) :
    Within R sys job (jobChildErrorHandler x sys job p) := by
  have hpid : R sys job sys (job.setPid p 0) := hR.same sys rfl rfl (.same rfl rfl rfl rfl rfl)
  cases p with
  | security =>
    show Sat (jobFailed sys (job.setPid .security 0) _ _ >>= _) _ _
    rw [sat_bind]
    refine jobFailed_sat.mono (fun r hr => ?_) fun _ _ => trivial
    exact (jobChangeGoal_within hR r.1 r.2 .stop).after hR (hR.trans hpid (hR.fails hr))
  | preStart | main | postStop => exact (failAndAdvance_within hR sys _ _).after hR hpid
  | postStart | preStop => exact (jobAdvance_within hR sys _).after hR hpid

theorem jobProcessChildReader_within (hR : Closed R) (sys : Sys) (job : Job) (pid : Pid)
    (permanent : Bool) : Within R sys job (jobProcessChildReader x sys job pid permanent) := by
  unfold jobProcessChildReader
  split
  · trivial
  split
  · exact .ok hR sys job
  · dsimp only
    have hmod : R sys job sys (job.modifyData pid fun d => { d with script := none }) :=
      hR.same sys rfl rfl (.same rfl rfl rfl rfl rfl)
    exact Within.get ((jobChildErrorHandler_within hR sys _ _).after hR hmod)
      fun sys₁ job₁ h₁ =>
        (Within.ok hR sys₁ (job₁.modifyData pid fun d => { d with valid := false })).after hR
          (hR.trans h₁ (hR.same sys₁ rfl rfl (.same rfl rfl rfl rfl rfl)))

theorem jobProcessCloseHandler_within (hR : Closed R) (sys : Sys) (job : Job) (pid : Pid) :
    Within R sys job (jobProcessCloseHandler x sys job pid) := by
  -- where a process is being spawned, `job_process_terminated` only looks at the state
  have hrest : ∀ (sys : Sys) (job : Job) (d : JobProcessData), Within R sys job (
      if job.state.spawning? then jobProcessTerminated x sys job d.process d.status true
      else .ok (sys, .live job)) := by
    intro sys job d
    split
    · rename_i hs
      unfold jobProcessTerminated
      rw [if_pos hs]
      split
      · trivial
      · unfold Within
        rw [sat_bind]
        refine (Sat.and (jobNextState_blocking _) (jobNextState_onwards (by exact hs))).mono
          (fun r hr => ?_) fun _ _ => trivial
        obtain ⟨⟨hid, hblocking, henv⟩, hne, hwaiting, hrunning⟩ := hr
        have hall := henv.trans (.entered r.1 hne (by simp [Job.Arrived, hwaiting, hrunning]))
        exact hR.same sys hid hblocking
          ⟨⟨hall.classId, hall.moves, hall.starting⟩, hall.arrived⟩
    · exact .ok hR sys job
  unfold jobProcessCloseHandler
  split
  · trivial
  split
  · exact .ok hR sys job
  have hmod : R sys job sys
      (job.modifyData pid fun d => { d with valid := false, script := none }) :=
    hR.same sys rfl rfl (.same rfl rfl rfl rfl rfl)
  dsimp only
  split
  · exact Within.get ((jobAdvance_within hR sys _).after hR hmod)
      fun sys₁ job₁ h₁ => (hrest sys₁ job₁ _).after hR h₁
  · exact (hrest sys _ _).after hR hmod

/-! ## Leaving the spawned state -/

theorem jobProcessTraceNew_within (hR : Closed R) (sys : Sys) (job : Job) (p : ProcessType) :
    Within R sys job (jobProcessTraceNew x sys job p) := by
  refine sat_assert (fun _ => trivial) fun _ => ?_
  split
  · exact hR.refl sys job
  split
  · exact hR.refl sys job
  · exact hR.act sys (by simp) rfl rfl (.same rfl rfl rfl rfl rfl)

theorem jobProcessTraceNewChild_within (hR : Closed R) (sys : Sys) (job : Job)
    (p : ProcessType) : Within R sys job (jobProcessTraceNewChild x sys job p) := by
  refine sat_assert (fun _ => trivial) fun _ => ?_
  split
  · exact hR.refl sys job
  dsimp only
  split
  · exact (jobAdvance_within hR _ _).after hR
      (hR.act sys (by simp) rfl rfl (.same rfl rfl rfl rfl rfl))
  · exact (jobProcessTraceNew_within hR sys _ p).after hR
      (hR.same sys rfl rfl (.same rfl rfl rfl rfl rfl))

theorem jobProcessHandler_within (hR : Closed R) (sys : Sys) (job : Job) (p : ProcessType)
    (event : ChildEvent) (hrest : job.state.spawning? = false) :
    Within R sys job (jobProcessHandler x sys job p event) := by
  cases event with
  | exited | killed | dumped =>
    exact (jobProcessTerminated_within hR _ job p _ hrest).after hR
        (hR.act sys (by simp) rfl rfl (.same rfl rfl rfl rfl rfl))
  | stopped signal =>
    dsimp only [jobProcessHandler, jobProcessStopped]
    split
    · split
      · exact .ok hR sys job
      split
      · exact (jobAdvance_within hR _ job).after hR
          (hR.act sys (by simp) rfl rfl (.same rfl rfl rfl rfl rfl))
      · exact .ok hR sys job
    · exact .ok hR sys job
  | continued => exact .ok hR sys job
  | trapped signal =>
    dsimp only [jobProcessHandler, jobProcessTraceSignal]
    split
    · exact jobProcessTraceNew_within hR sys job p
    split
    · exact jobProcessTraceNewChild_within hR sys job p
    split
    · exact .ok hR sys job
    · exact hR.act sys (by simp) rfl rfl (.same rfl rfl rfl rfl rfl)
  | ptraceFork =>
    dsimp only [jobProcessHandler, jobProcessTraceFork]
    split
    · exact .ok hR sys job
    split
    · exact .ok hR sys job
    have hpid : NoAnswer sys { sys with lastPid := sys.lastPid + 1 } := .of_events rfl rfl
    have hforked : R sys job ({ sys with lastPid := sys.lastPid + 1 }.act
        (.detached (job.pid p)))
        { job.setPid p (sys.lastPid + 1) with traceState := .newChild } :=
      hR.quiet (hpid.trans (.act _ (by simp))) rfl rfl (.same rfl rfl rfl rfl rfl)
    split
    · exact hforked
    · exact (jobProcessTraceNewChild_within hR _ _ p).after hR hforked
  | ptraceExec =>
    dsimp only [jobProcessHandler, jobProcessTraceExec]
    split
    · exact .ok hR sys job
    split
    · exact (jobAdvance_within hR _ _).after hR
        (hR.act sys (by simp) rfl rfl (.same rfl rfl rfl rfl rfl))
    · exact hR.act sys (by simp) rfl rfl (.same rfl rfl rfl rfl rfl)

/-! ## Notifications -/

/-- What happens to a job without a request: notifications about its processes, and
the end of the event that it waits for. -/
def Input.happens : Input → Prop
  | .childError _ _ | .childClosed _ | .childEvent _ _ | .readyText _ _ | .killTimer => True
  | .blockerFinished => True
  | _ => False

theorem notification_within (hR : Closed R) {i : Input} (hrest : job.state.spawning? = false)
    (hi : i.happens) : Within R sys job (jobStep x sys job i) := by
  cases i with
  | blockerFinished =>
    exact (jobAdvance_within hR sys _).after hR
      (hR.same sys rfl rfl (.same rfl rfl rfl rfl rfl))
  | childError pid permanent => exact jobProcessChildReader_within hR sys job pid permanent
  | childClosed pid => exact jobProcessCloseHandler_within hR sys job pid
  | childEvent p event => exact jobProcessHandler_within hR sys job p event hrest
  | readyText pid buf =>
    dsimp only [jobStep, jobProcessReadyfdReader]
    split
    · exact jobAdvance_within hR sys job
    · exact .ok hR sys job
  | killTimer =>
    refine sat_assert (fun _ => trivial) fun _ => ?_
    split
    · trivial
    · refine sat_assert (fun _ => trivial) fun _ => ?_
      exact hR.act sys (by simp) rfl rfl (.same rfl rfl rfl rfl rfl)
  | _ => exact hi.elim

end

end Startup
