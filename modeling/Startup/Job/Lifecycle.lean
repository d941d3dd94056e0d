import Startup.Job.Protocol
import Startup.Job.WakeUp
import Startup.Job.Replies
import Startup.Job.Running

/-!
# The life of a job as others see it

A job keeps to the protocol of its class, whatever happens to it.

* `Course`: what a call leaves behind, and where that leads in the protocol.
* `Enters.course`, `jobChangeState_lives`: the passes of `job_change_state`.
* `jobStep_lives`: every call on a job.
* `recorded_follows`: every run.
-/

namespace Startup

open Lib

/-! ## What a call leaves behind -/

/-- The process that an action has spawned. -/
def Action.process? : Action → Option ProcessType
  | .spawned _ p _ => some p
  | _ => none

/-- The signs of a call, which spawns its processes before it emits its event. -/
def signs (procs : List ProcessType) (names : List String) : List Sign :=
  procs.map .spawns ++ names.map .emits

/-- A call has spawned the processes and emitted the events. -/
structure Leaves (sys : Sys) (procs : List ProcessType) (names : List String) (sys' : Sys) :
    Prop where
  log : ∃ acts, sys'.log = acts ++ sys.log ∧ acts.filterMap Action.process? = procs.reverse
  names : sys'.events.map Event.name = sys.events.map Event.name ++ names

/-- A call leaves signs that lead from where the job may have been to where it may be
then.  With `halts` nothing that is called afterwards leaves a sign; only such a call
emits an event. -/
def Course (cls : JobClass) (now : Phase → Prop) (sys sys' : Sys) (later : Phase → Prop)
    (halts : Prop) : Prop :=
  ∃ procs names, Leaves sys procs names sys' ∧ (names = [] ∨ halts) ∧
    ∀ phase, now phase → ∃ phase', phase.walk cls (signs procs names) = some phase' ∧ later phase'

/-- The events that are emitted when a state is entered from `old`. -/
def JobState.eventName (old : JobState) : JobState → List String
  | .starting => ["starting"]
  | .running => if old = .preStop then [] else ["started"]
  | .stopping => ["stopping"]
  | .waiting => ["stopped"]
  | _ => []

/-- The state of init after a pass of the loop. -/
def Pass.sys : Pass → Sys
  | .next sys _ _ => sys
  | .freed sys _ => sys

/-- The job waits for its event, runs or has been freed. -/
def JobRef.halts : JobRef → Prop
  | .live job => job.blocker.isSome = true ∨ job.state = .running
  | .freed _ => True

/-- A call on a job keeps to the protocol. -/
structure Lives (sys : Sys) (job : Job) (r : Sys × JobRef) : Prop where
  course : Course job.cls (Phase.fits job.cls job.state) sys r.1 (r.2.fits job.cls) r.2.halts
  cls : r.2.job.cls = job.cls

/-- What happens to a job shows nothing of it, and leaves its state. -/
structure Idle (sys : Sys) (job : Job) (sys' : Sys) (job' : Job) : Prop where
  leaves : Leaves sys [] [] sys'
  cls : job'.cls = job.cls
  state : job'.state = job.state

section

variable {x : Host} {sys sys' sys'' : Sys} {job job' : Job} {cls : JobClass}

namespace Leaves

theorem refl (sys : Sys) : Leaves sys [] [] sys := ⟨⟨[], rfl, rfl⟩, by simp⟩

theorem trans {procs procs' : List ProcessType} {names names' : List String}
    (h : Leaves sys procs names sys') (h' : Leaves sys' procs' names' sys'') :
    Leaves sys (procs ++ procs') (names ++ names') sys'' := by
  obtain ⟨acts, hlog, hprocs⟩ := h.log
  obtain ⟨acts', hlog', hprocs'⟩ := h'.log
  refine ⟨⟨acts' ++ acts, by rw [hlog', hlog, List.append_assoc], ?_⟩, ?_⟩
  · rw [List.filterMap_append, hprocs, hprocs', List.reverse_append]
  · rw [h'.names, h.names, List.append_assoc]

/-- An action that spawns nothing. -/
theorem act (sys : Sys) {a : Action} (ha : a.process? = none) : Leaves sys [] [] (sys.act a) :=
  ⟨⟨[a], rfl, by simp [ha]⟩, by simp [Sys.act]⟩

theorem spawned (sys : Sys) (job : Job) (p : ProcessType) (proc : Process) :
    Leaves sys [p] [] (processStarted sys job p proc).1 :=
  ⟨⟨[_], rfl, rfl⟩, by simp [processStarted, Sys.act]⟩

theorem of_extends {acts : List Action} (h : Extends sys sys' []) (hlog : sys'.log = acts ++ sys.log)
    (hacts : acts.filterMap Action.process? = []) : Leaves sys [] [] sys' := by
  refine ⟨⟨acts, hlog, hacts⟩, ?_⟩
  have hnames := congrArg (List.map Event.name) h.events
  rw [List.append_nil, List.map_map, List.map_map] at hnames
  rw [List.append_nil]
  exact hnames

theorem touches (h : Touches sys sys') : Leaves sys [] [] sys' :=
  of_extends h.toExtends (show sys'.log = [] ++ sys.log from h.log) rfl

theorem finished {failed : Bool} {bs : List Blocked} (h : Finished failed sys bs sys') :
    Leaves sys [] [] sys' := by
  refine of_extends h.queue h.log (List.filterMap_eq_nil_iff.mpr fun a ha => ?_)
  obtain ⟨m, -, rfl⟩ := List.mem_map.mp (List.mem_reverse.mp ha)
  rfl

theorem fails {p : Option ProcessType} {status : Int} (h : Fails sys job p status sys' job') :
    Leaves sys [] [] sys' := by
  cases h with
  | already => exact refl sys
  | now _ finish => exact finished finish

end Leaves

namespace Course

variable {now mid later : Phase → Prop} {halts halts' : Prop}

/-- No sign. -/
theorem none (h : Leaves sys [] [] sys') (hphase : ∀ phase, now phase → later phase) :
    Course cls now sys sys' later halts :=
  ⟨[], [], h, .inl rfl, fun phase hnow => ⟨phase, rfl, hphase phase hnow⟩⟩

/-- A call goes on after one that does not halt. -/
theorem trans (h : Course cls now sys sys' mid halts) (hgo : ¬ halts)
    (h' : Course cls mid sys' sys'' later halts') : Course cls now sys sys'' later halts' := by
  obtain ⟨procs, names, hleaves, hhalts, hwalk⟩ := h
  obtain ⟨procs', names', hleaves', hhalts', hwalk'⟩ := h'
  obtain rfl : names = [] := hhalts.resolve_right hgo
  refine ⟨procs ++ procs', names', hleaves.trans hleaves', hhalts', fun phase hnow => ?_⟩
  obtain ⟨phase₁, hphase₁, hmid⟩ := hwalk phase hnow
  obtain ⟨phase', hphase', hlater⟩ := hwalk' phase₁ hmid
  refine ⟨phase', ?_, hlater⟩
  rw [signs, List.map_append, List.append_assoc]
  rw [signs, List.map_nil, List.append_nil] at hphase₁
  exact (Phase.walk_append _ hphase₁).trans hphase'

/-- Nothing is shown before a call. -/
theorem after (h : Course cls now sys' sys'' later halts) (hleaves : Leaves sys [] [] sys') :
    Course cls now sys sys'' later halts := by
  have hnone : Course cls now sys sys' now False := none hleaves fun _ h => h
  exact hnone.trans (by simp) h

/-- Nothing is shown after a call. -/
theorem before (h : Course cls now sys sys' mid halts) (hleaves : Leaves sys' [] [] sys'')
    (hphase : ∀ phase, mid phase → later phase) (hhalts : halts → halts') :
    Course cls now sys sys'' later halts' := by
  obtain ⟨procs, names, hleaves', hnames, hwalk⟩ := h
  have hall := hleaves'.trans hleaves
  rw [List.append_nil, List.append_nil] at hall
  refine ⟨procs, names, hall, hnames.imp id hhalts, fun phase hnow => ?_⟩
  obtain ⟨phase', hphase', hmid⟩ := hwalk phase hnow
  exact ⟨phase', hphase', hphase phase' hmid⟩

/-- One event. -/
theorem emits {name : String} (h : Leaves sys [] [name] sys') (hhalts : halts)
    (hphase : ∀ phase, now phase →
      ∃ phase', phase.next cls (.emits name) = some phase' ∧ later phase') :
    Course cls now sys sys' later halts := by
  refine ⟨[], [name], h, .inr hhalts, fun phase hnow => ?_⟩
  obtain ⟨phase', hphase', hlater⟩ := hphase phase hnow
  exact ⟨phase', by simp [signs, Phase.walk, hphase'], hlater⟩

end Course

/-! ## The loop of `job_change_state` -/

theorem jobEmitEvent_names {e : EventId} (h : jobEmitEvent x sys job = .ok (sys', e)) {old : JobState}
    (hold : job.state = .running → old ≠ .preStop) :
    sys'.events.map Event.name = sys.events.map Event.name ++ JobState.eventName old job.state := by
  unfold jobEmitEvent at h
  cases hs : job.state <;> simp only [hs, reduceCtorEq] at h <;> cases h
  case running => simp [JobState.eventName, hold hs]
  all_goals simp [JobState.eventName]

theorem jobFinished_names {failed : Bool} :
    Sat (jobFinished sys job failed)
      (fun r => r.1.events.map Event.name = sys.events.map Event.name) (fun _ => True) := by
  refine jobFinished_sat.mono (fun r hr => ?_) fun _ _ => trivial
  simpa using (Leaves.finished hr.2).names

theorem spawnAndNext_names {p : ProcessType} {cond : Bool} :
    Sat (spawnAndNext sys job p cond) (fun pass => pass.sys.events = sys.events)
      (fun _ => True) := by
  have hgo (r : Sys × Job) (hr : r.1.events = sys.events) :
      Sat (jobNextState r.2 >>= fun next => .ok (Pass.next r.1 next.1 next.2))
        (fun pass => pass.sys.events = sys.events) (fun _ => True) := by
    rw [sat_bind]
    exact (sat_true (m := jobNextState r.2)).imp fun _ _ => hr
  unfold spawnAndNext
  dsimp only
  split
  · unfold jobProcessStart
    split
    · trivial
    · exact hgo _ rfl
  · exact hgo (sys, job) rfl

theorem nextUnless_names {cond : Bool} :
    Sat (nextUnless sys job cond) (fun pass => pass.sys.events = sys.events) (fun _ => True) := by
  unfold nextUnless
  split
  · rfl
  · rw [sat_bind]
    exact (sat_true (m := jobNextState job)).imp fun _ _ => rfl

/-- Entering a state emits its event and no other. -/
theorem jobEnterState_names {old : JobState} :
    Sat (jobEnterState x sys old job) (fun pass => pass.sys.events.map Event.name =
      sys.events.map Event.name ++ JobState.eventName old job.state) (fun _ => True) := by
  have hspawn {p : ProcessType} {cond : Bool} (hnone : JobState.eventName old job.state = []) :
      Sat (spawnAndNext sys job p cond) (fun pass => pass.sys.events.map Event.name =
        sys.events.map Event.name ++ JobState.eventName old job.state) (fun _ => True) :=
    spawnAndNext_names.imp fun pass hp => by rw [hp, hnone, List.append_nil]
  have hnext {cond : Bool} (hnone : JobState.eventName old job.state = []) :
      Sat (nextUnless sys job cond) (fun pass => pass.sys.events.map Event.name =
        sys.events.map Event.name ++ JobState.eventName old job.state) (fun _ => True) :=
    nextUnless_names.imp fun pass hp => by rw [hp, hnone, List.append_nil]
  unfold jobEnterState
  split
  case h_2 hs | h_4 hs | h_6 hs | h_8 hs | h_11 hs =>
    refine sat_assert (fun _ => trivial) fun _ => sat_assert (fun _ => trivial) fun _ => ?_
    exact hspawn (by rw [hs]; rfl)
  case h_3 hs | h_5 hs | h_7 hs | h_9 hs | h_12 hs =>
    refine sat_assert (fun _ => trivial) fun _ => sat_assert (fun _ => trivial) fun _ => ?_
    exact hnext (by rw [hs]; rfl)
  case h_1 hs =>
    refine sat_assert (fun _ => trivial) fun _ => sat_assert (fun _ => trivial) fun _ => ?_
    have hstate : job.renew.state = job.state := rfl
    obtain ⟨sys', e, he⟩ := jobEmitEvent_ok x sys job.renew (by simp [hstate, hs, JobState.emits])
    simp only [he, sat_bind, sat_ok]
    exact hstate ▸ jobEmitEvent_names he (by simp [hstate, hs])
  case h_10 hs =>
    refine sat_assert (fun _ => trivial) fun _ => sat_assert (fun _ => trivial) fun _ => ?_
    split
    · rename_i ho
      rw [sat_bind]
      refine jobFinished_names.imp fun r hr => ?_
      show r.1.events.map Event.name = _
      rw [hr, hs]
      simp [JobState.eventName, ho]
    · rename_i ho
      obtain ⟨sys', e, he⟩ := jobEmitEvent_ok x sys job (by simp [hs, JobState.emits])
      have hnames := jobEmitEvent_names he fun _ => ho
      simp only [he, sat_bind, sat_ok]
      split
      · rw [sat_bind]
        exact jobFinished_names.imp fun r hr => hr.trans hnames
      · exact hnames
  case h_13 hs =>
    refine sat_assert (fun _ => trivial) fun _ => ?_
    obtain ⟨sys', e, he⟩ := jobEmitEvent_ok x sys job (by simp [hs, JobState.emits])
    simp only [he, sat_bind, sat_ok]
    exact jobEmitEvent_names he (by simp [hs])
  case h_14 hs =>
    refine sat_assert (fun _ => trivial) fun _ => ?_
    split
    · rw [sat_bind]
      refine jobProcessKill_sat.mono (fun r hr => ?_) fun _ _ => trivial
      show r.1.events.map Event.name = _
      rw [hr.1, hs]
      simp [Sys.act, JobState.eventName]
    · rw [sat_bind]
      refine (sat_true (m := jobNextState job)).imp fun r _ => ?_
      simp [Pass.sys, hs, JobState.eventName]
  case h_15 hs =>
    refine sat_assert (fun _ => trivial) fun _ => ?_
    exact hspawn (by rw [hs]; rfl)
  case h_16 hs =>
    refine sat_assert (fun _ => trivial) fun _ => ?_
    exact hnext (by rw [hs]; rfl)
  case h_17 hs =>
    refine sat_assert (fun _ => trivial) fun _ => sat_assert (fun _ => trivial) fun _ => ?_
    obtain ⟨sys', e, he⟩ := jobEmitEvent_ok x sys job (by simp [hs, JobState.emits])
    have hnames := @jobEmitEvent_names x sys sys' job e he old (by simp [hs])
    simp only [he, sat_bind, sat_ok]
    exact jobFinished_names.imp fun r hr => hr.trans hnames

/-- Where a pass leaves the job in the protocol. -/
theorem Enters.course {old : JobState} {pass : Pass} (h : Enters x sys old job pass)
    (hw : job.state = .waiting → old = .postStop)
    (hnames : pass.sys.events.map Event.name =
      sys.events.map Event.name ++ JobState.eventName old job.state) :
    pass.Holds
      (fun sys' job' state => Course job.cls (Phase.fits job.cls old) sys sys'
        (Phase.fits job.cls job'.state)
        (job'.state = state ∧ (job'.blocker.isSome = true ∨ job'.state = .running)))
      (fun sys' _ => Course job.cls (Phase.fits job.cls old) sys sys' (· = .stopped) True) := by
  have hsign {sys' : Sys} {name : String} (hlog : ∃ acts, sys'.log = acts ++ sys.log ∧
        acts.filterMap Action.process? = [])
      (hevent : JobState.eventName old job.state = [name])
      (hn : sys'.events.map Event.name = sys.events.map Event.name ++
        JobState.eventName old job.state) : Leaves sys [] [name] sys' := ⟨hlog, hevent ▸ hn⟩
  cases h with
  | starting state goal from_ emit =>
    refine .emits (hsign ⟨[], emit.log, rfl⟩ (by rw [state]; rfl) hnames) ⟨rfl, .inl rfl⟩
      fun phase hphase => ⟨.starting, Phase.next_starting ?_, ?_⟩
    · rcases from_ with rfl | rfl
      · exact .inl hphase
      · exact .inr hphase
    · show Phase.fits job.cls job.state .starting
      rw [state]
      rfl
  | spawn p proc state goal ne from_ runs proc_ =>
    refine ⟨[p], [], .spawned sys job p proc, .inl rfl, fun phase hphase => ?_⟩
    obtain ⟨hnext, hfits⟩ := Phase.spawns_fits (by simp [proc_]) (from_ ▸ hphase)
    refine ⟨.spawned p, by simp [signs, Phase.walk, hnext], ?_⟩
    show Phase.fits job.cls job.state _
    rwa [state]
  | noSpawn p state goal ne from_ runs =>
    refine .none (.refl sys) fun phase hphase => ?_
    have hskip : job.cls.process p = none ∨ p = .security := by
      by_cases hp : p = .security
      · exact .inr hp
      · simp only [Job.runs, Job.has, hp, ne_eq, not_false_eq_true, decide_true, Bool.true_or,
          Bool.and_true, Option.isSome_eq_false_iff, Option.isNone_iff_eq_none] at runs
        exact .inl runs
    rw [state]
    exact Phase.noSpawn_fits hskip (from_ ▸ hphase)
  | wait p state goal from_ runs | skip p state goal ne from_ runs =>
    refine .none (.refl sys) fun phase hphase => ?_
    rw [state]
    exact Phase.fits_spawnState.mp (from_ ▸ hphase)
  | resumed state goal from_ finish =>
    refine .none (.finished finish) fun phase hphase => ?_
    show Phase.fits job.cls job.state phase
    rw [state]
    rw [from_] at hphase
    exact hphase.1
  | running state goal from_ emit task finish =>
    obtain ⟨acts, hlog, hacts⟩ := (Leaves.finished finish).log
    refine .emits (hsign ⟨acts, hlog.trans (by rw [emit.log]), hacts⟩
      (by rw [state, from_]; rfl) hnames) ⟨rfl, .inr state⟩
      fun phase hphase => ⟨.started, Phase.next_started (by rwa [from_] at hphase), ?_⟩
    show Phase.fits job.cls job.state .started
    rw [state]
    rfl
  | runningTask state goal from_ emit =>
    refine .emits (hsign ⟨[], emit.log, rfl⟩ (by rw [state, from_]; rfl) hnames)
      ⟨rfl, .inr state⟩
      fun phase hphase => ⟨.started, Phase.next_started (by rwa [from_] at hphase), ?_⟩
    rw [state]
    rfl
  | stopping state from_ emit =>
    refine .emits (hsign ⟨[], emit.log, rfl⟩ (by rw [state]; rfl) hnames) ⟨rfl, .inl rfl⟩
      fun phase hphase => ⟨.stopping, Phase.next_stopping (Phase.fits_mayStop from_ hphase), ?_⟩
    show Phase.fits job.cls job.state .stopping
    rw [state]
    rfl
  | kill state from_ =>
    refine .none (.act sys rfl) fun phase hphase => ?_
    show Phase.fits job.cls job.state phase
    rw [state]
    rwa [from_] at hphase
  | dead state goal from_ =>
    refine .none (.refl sys) fun phase hphase => ?_
    rw [state]
    rwa [from_] at hphase
  | waiting state goal from_ emit finish =>
    obtain ⟨acts, hlog, hacts⟩ := (Leaves.finished finish).log
    refine .emits (hsign ⟨acts, hlog.trans (by rw [emit.log]), hacts⟩ (by rw [state]; rfl) hnames)
      trivial fun phase hphase => ⟨.stopped, Phase.next_stopped ?_, rfl⟩
    rwa [hw state] at hphase

/-- A pass heads for waiting only from the last of the states. -/
theorem Enters.toWaiting {old : JobState} {pass : Pass} (h : Enters x sys old job pass) :
    pass.Holds (fun _ job' state => job'.state ≠ state → state = .waiting →
      job'.state = .postStop) (fun _ _ => True) := by
  cases h with
  | spawn p | noSpawn p => cases p <;> exact fun _ h => by cases h
  | skip p state =>
    intro _ h
    rw [state]
    cases p with
    | postStop => rfl
    | _ => cases h
  | dead => exact fun _ h => by cases h
  | waiting => trivial
  | _ => exact fun hne => absurd rfl hne

namespace Idle

theorem refl (sys : Sys) (job : Job) : Idle sys job sys job := ⟨.refl sys, rfl, rfl⟩

/-- Only fields of the job are written. -/
theorem same (sys : Sys) (hcls : job'.cls = job.cls) (hstate : job'.state = job.state) :
    Idle sys job sys job' := ⟨.refl sys, hcls, hstate⟩

theorem core (h : Leaves sys [] [] sys') (hc : SameCore job job') : Idle sys job sys' job' :=
  ⟨h, hc.cls, hc.state⟩

theorem trans {job'' : Job} (h : Idle sys job sys' job') (h' : Idle sys' job' sys'' job'') :
    Idle sys job sys'' job'' :=
  ⟨h.leaves.trans h'.leaves, h'.cls.trans h.cls, h'.state.trans h.state⟩

theorem fails {p : Option ProcessType} {status : Int} (h : Fails sys job p status sys' job') :
    Idle sys job sys' job' := core (.fails h) h.core

theorem lives (h : Idle sys job sys' job') : Lives sys job (sys', .live job') := by
  refine ⟨.none h.leaves fun phase hphase => ?_, h.cls⟩
  show Phase.fits job.cls job'.state phase
  rwa [h.state]

end Idle

namespace Lives

variable {r : Sys × JobRef}

theorem after (h : Lives sys' job' r) (hidle : Idle sys job sys' job') : Lives sys job r := by
  refine ⟨Course.after ?_ hidle.leaves, h.cls.trans hidle.cls⟩
  have hcourse := h.course
  rwa [hidle.cls, hidle.state] at hcourse

theorem before (h : Lives sys job (sys', .live job')) {job'' : Job}
    (hidle : Idle sys' job' sys'' job'') (hblocker : job''.blocker = job'.blocker) :
    Lives sys job (sys'', .live job'') := by
  refine ⟨h.course.before hidle.leaves (fun phase hphase => ?_) fun hhalts => ?_,
    hidle.cls.trans h.cls⟩
  · show Phase.fits job.cls job''.state phase
    rw [hidle.state]
    exact hphase
  · show job''.blocker.isSome = true ∨ job''.state = .running
    rw [hblocker, hidle.state]
    exact hhalts

theorem trans (h : Lives sys job (sys', .live job')) (hgo : ¬ (JobRef.live job').halts)
    (h' : Lives sys' job' r) : Lives sys job r := by
  have hcls : job'.cls = job.cls := h.cls
  refine ⟨h.course.trans hgo ?_, h'.cls.trans hcls⟩
  have hcourse := h'.course
  rwa [hcls] at hcourse

end Lives

/-- The loop keeps to the protocol. -/
theorem jobChangeState_lives {state : JobState}
    (hw : job.state ≠ state → state = .waiting → job.state = .postStop) :
    Sat (jobChangeState x sys job state) (Lives sys job) (fun _ => True) := by
  refine (jobChangeState_passes
    (I := fun sys' job' state' => job'.cls = job.cls ∧
      (job'.state ≠ state' → state' = .waiting → job'.state = .postStop) ∧
      Course job.cls (Phase.fits job.cls job.state) sys sys' (Phase.fits job.cls job'.state)
        (job'.state = state' ∧ (job'.blocker.isSome = true ∨ job'.state = .running)))
    (F := fun sys' job' => job'.cls = job.cls ∧
      Course job.cls (Phase.fits job.cls job.state) sys sys' (· = .stopped) True) ?_
    ⟨rfl, hw, .none (.refl sys) fun _ h => h⟩).imp ?_
  · rintro sys' job' state' ⟨hcls, hheads, hcourse⟩ hne hb
    refine ((jobEnterState_enters x sys' job'.state { job' with state := state' }).and
      jobEnterState_names).mono (fun pass hpass => ?_) fun _ _ => trivial
    have hlater := hpass.1.course (fun hs => hheads hne hs) hpass.2
    have hwaiting := hpass.1.toWaiting
    have hgo : ¬ (job'.state = state' ∧ (job'.blocker.isSome = true ∨ job'.state = .running)) :=
      fun h => hne h.1
    cases pass with
    | next sys₁ job₁ state₁ =>
      have hpersists : Persists { job' with state := state' } job₁ := hpass.1.persists
      refine ⟨hpersists.cls.trans hcls, hwaiting, hcourse.trans hgo ?_⟩
      exact hcls ▸ hlater
    | freed sys₁ job₁ =>
      refine ⟨?_, hcourse.trans hgo (hcls ▸ hlater)⟩
      cases hpass.1 with
      | waiting => exact hcls
  · rintro ⟨sys', job' | job'⟩ h
    · obtain ⟨state', ⟨hcls, -, hcourse⟩, hrest⟩ := h
      exact ⟨hcourse.before (.refl sys') (fun _ h => h) fun hhalts => hhalts.2, hcls⟩
    · exact ⟨h.2, h.1⟩

/-! ## Calls on a job -/

theorem jobAdvance_lives (hrest : job.state.spawning? = false) :
    Sat (jobAdvance x sys job) (Lives sys job) (fun _ => True) := by
  have hidle : Idle sys job sys (job.setGoal job.goal.next) := .same sys rfl rfl
  refine jobAdvance_rule hrest (fun _ => trivial) (fun _ => hidle.lives) fun state _ hf => ?_
  refine Sat.imp (jobChangeState_lives ?_) fun r hr => hr.after hidle
  exact fun _ hs => hf.waiting hs

theorem jobChangeGoal_lives {goal : JobGoal} :
    Sat (jobChangeGoal x sys job goal) (Lives sys job) (fun _ => True) := by
  have hidle : Idle sys job sys (job.setGoal goal) := .same sys rfl rfl
  rw [jobChangeGoal_eq]
  split
  · rename_i hm
    have hrest : (job.setGoal goal).state.spawning? = false := by
      rcases hm.2 with ⟨-, hs⟩ | ⟨-, hs⟩ <;> simp [Job.setGoal, hs, JobState.spawning?]
    exact (jobAdvance_lives hrest).imp fun r hr => hr.after hidle
  · exact hidle.lives

/-- A call that is followed by `job_change_state (job, job_next_state (job))`, of a job
that does not run then. -/
theorem Lives.advance {D : ProcessType → Prop} (h : Lives sys job (sys', .live job'))
    (hset : Settled D job') (hrun : job'.state ≠ .running) :
    Sat (jobAdvance x sys' job') (Lives sys job) (fun _ => True) := by
  cases hb : job'.blocker with
  | none =>
    have hgo : ¬ (JobRef.live job').halts := by simp [JobRef.halts, hb, hrun]
    exact (jobAdvance_lives hset.resting).imp fun r hr => h.trans hgo hr
  | some e =>
    refine jobAdvance_rule hset.resting (fun _ => trivial) (fun _ => ?_) fun _ hnone => ?_
    · exact h.before (.same sys' rfl rfl) rfl
    · simp [hb] at hnone

/-- A call that is followed by one of `job_change_goal` for a start. -/
theorem Lives.start {D : ProcessType → Prop} (h : Lives sys job (sys', .live job'))
    (hset : Settled D job') :
    Sat (jobChangeGoal x sys' job' .start) (Lives sys job) (fun _ => True) := by
  by_cases hm : Moves job' .start
  · have hs : job'.state = .waiting := by simpa using hm.2
    have hgo : ¬ (JobRef.live job').halts := by
      have hb : ¬ job'.blocker.isSome = true := fun hb => by
        rcases hset.blocked.mp hb with h | h <;> simp [hs] at h
      simp [JobRef.halts, hb, hs]
    exact jobChangeGoal_lives.imp fun r hr => h.trans hgo hr
  · rw [jobChangeGoal_eq, if_neg hm]
    exact h.before (.same sys' rfl rfl) rfl

/-! ### The end of a process -/

theorem Ended.idle {p : ProcessType} {status : Int} {failed : Bool}
    (h : Ended sys job p status failed sys' job') : Idle sys job sys' job' := by
  have hcancel : Idle sys job sys (job.cancelKill.setPid p 0) :=
    .same sys (cancelKill_core job).cls (cancelKill_core job).state
  cases h with
  | failed fail => exact hcancel.trans (.fails fail)
  | ok => exact hcancel

/-- The `switch` of `job_process_terminated` shows nothing, unless it stops a job that
is to be respawned; nothing follows then. -/
theorem Terminates.lives {p : ProcessType} {status : Int} {v : Verdict}
    (h : Terminates x sys job status p sys' (.live job') v) :
    Idle sys job sys' job' ∨ Lives sys job (sys', .live job') ∧ v = ⟨false, false, false⟩ := by
  have hcatch : Idle sys job sys (jobProcessCatchRunaway x job).1 :=
    .core (.refl sys) (jobProcessCatchRunaway_core x job)
  cases h with
  | runaway state goal fail => exact .inl (hcatch.trans (.fails fail))
  | respawnLater => exact .inl (hcatch.trans (.same sys rfl rfl))
  | respawnSpawned state goal change =>
    have hchange := (jobChangeState_lives fun _ hs => by cases hs).of_ok change
    exact .inr ⟨hchange.after hcatch, rfl⟩
  | respawn => exact .inl hcatch
  | _ => exact .inl (.refl sys job)

theorem afterTerminated_lives {D : ProcessType → Prop} {p : ProcessType} {status : Int}
    {v : Verdict} (h : Settled D job') (hdone : Idle sys job sys' job' ∨
      Lives sys job (sys', .live job') ∧ v = ⟨false, false, false⟩) :
    Sat (afterTerminated x sys' job' p status false v) (Lives sys job) (fun _ => True) := by
  have hended {sys₁ : Sys} {job₁ : Job} (he : Ended sys' job' p status v.failed sys₁ job₁) :
      Settled (fun _ => False) job₁ := ((h.setPid p 0).mono fun _ hq => hq.elim).same he.core
  rcases hdone with hidle | ⟨hlives, rfl⟩
  · refine afterTerminated_rule (fun _ _ => trivial)
      (fun sys₁ job₁ he _ _ => (hidle.trans he.idle).lives) ?_ ?_
    · intro sys₁ job₁ he _ _
      exact (jobAdvance_lives (hended he).resting).imp fun r hr => hr.after (hidle.trans he.idle)
    · intro sys₁ job₁ he _
      refine (jobChangeGoal_lives.and (hended he).changeGoal_stop).mono ?_ fun _ _ => trivial
      rintro ⟨sys₂, ref⟩ ⟨hlives, hset⟩ j rfl
      have hlives := hlives.after (hidle.trans he.idle)
      exact ⟨fun _ => hlives, fun hrun _ => hlives.advance hset hrun⟩
  · refine afterTerminated_rule (fun _ _ => trivial) (fun sys₁ job₁ he _ _ => ?_)
      (fun _ _ _ _ hv => by cases hv) fun _ _ _ hv => by cases hv
    exact hlives.before he.idle he.core.blocker

theorem jobProcessTerminated_lives {D : ProcessType → Prop} {p : ProcessType} {status : Int}
    (h : Settled D job) :
    Sat (jobProcessTerminated x sys job p status false) (Lives sys job) (fun _ => True) :=
  jobProcessTerminated_rule h.resting (fun _ _ => trivial) fun _ _ _ ht =>
    afterTerminated_lives (ht.settled h).1 ht.lives

/-! ### The set-up pipe -/

theorem failAndAdvance_lives {D : ProcessType → Prop} {p : ProcessType} (h : Settled D job) :
    Sat (failAndAdvance x sys job p) (Lives sys job) (fun _ => True) := by
  unfold failAndAdvance
  rw [sat_bind]
  refine jobFailed_sat.mono (fun r hr => ?_) fun _ _ => trivial
  have hset := h.same hr.core
  rw [sat_bind]
  refine ((jobChangeGoal_lives.and hset.changeGoal_stop).and
    (jobChangeGoal_persists (by simp))).mono ?_ fun _ _ => trivial
  rintro ⟨sys', job' | job'⟩ ⟨⟨hlives, hset'⟩, hpersists⟩
  · -- a job that is to stop does not run
    have hrun : job'.state ≠ .running := fun hs => by
      have hgoal : job'.goal = .stop := hpersists.goal
      simp [hset'.running hs] at hgoal
    exact (hlives.after (.fails hr)).advance hset' hrun
  · trivial

theorem jobChildErrorHandler_lives {D : ProcessType → Prop} {p : ProcessType} (h : Settled D job) :
    Sat (jobChildErrorHandler x sys job p) (Lives sys job) (fun _ => True) := by
  have hidle : Idle sys job sys (job.setPid p 0) := .same sys rfl rfl
  have hpid := h.setPid p 0
  cases p with
  | security =>
    show Sat (jobFailed sys (job.setPid .security 0) _ _ >>= _) _ _
    rw [sat_bind]
    refine jobFailed_sat.mono (fun r hr => ?_) fun _ _ => trivial
    exact jobChangeGoal_lives.imp fun r' hr' => hr'.after (hidle.trans (.fails hr))
  | preStart | main | postStop =>
    exact (failAndAdvance_lives hpid).imp fun r hr => hr.after hidle
  | postStart | preStop => exact (jobAdvance_lives hpid.resting).imp fun r hr => hr.after hidle

theorem jobProcessChildReader_lives {D : ProcessType → Prop} {pid : Pid} {permanent : Bool}
    (h : Settled D job) :
    Sat (jobProcessChildReader x sys job pid permanent) (Lives sys job) (fun _ => True) := by
  unfold jobProcessChildReader
  split
  · trivial
  split
  · exact (Idle.refl sys job).lives
  · have hidle (f : JobProcessData → JobProcessData) : Idle sys job sys (job.modifyData pid f) :=
      .same sys rfl rfl
    rw [sat_bind]
    refine (jobChildErrorHandler_lives (h.same (modifyData_core job pid _))).imp ?_
    rintro ⟨sys', job' | job'⟩ hlives
    · exact (hlives.after (hidle _)).before (.same sys' rfl rfl) rfl
    · trivial

theorem jobProcessCloseHandler_lives {D : ProcessType → Prop} {pid : Pid} (h : Settled D job) :
    Sat (jobProcessCloseHandler x sys job pid) (Lives sys job) (fun _ => True) := by
  unfold jobProcessCloseHandler
  split
  · trivial
  split
  · exact (Idle.refl sys job).lives
  rename_i d _ _
  have hmod := h.same (modifyData_core job pid fun d => { d with valid := false, script := none })
  have hidle : Idle sys job sys
      (job.modifyData pid fun d => { d with valid := false, script := none }) := .same sys rfl rfl
  -- a job at rest is in none of the states in which a process is being spawned
  have hrest {r : Sys × JobRef} (hlives : Lives sys job r) (hset : r.2.All (Settled D)) :
      Sat (do
        let job ← r.2.get .jobProcessCloseHandler
        if job.state.spawning? then jobProcessTerminated x r.1 job d.process d.status true
        else .ok (r.1, .live job)) (Lives sys job) (fun _ => True) := by
    obtain ⟨sys', job' | job'⟩ := r
    · have hresting : job'.state.spawning? = false := hset.resting
      simp only [JobRef.get_live, sat_bind, sat_ok, hresting]
      exact hlives
    · trivial
  dsimp only
  split
  · rw [sat_bind]
    have hset : Settling D (jobAdvance x sys _) := hmod.advance
    refine ((jobAdvance_lives hmod.resting).and hset).mono ?_ fun _ _ => trivial
    exact fun r hr => hrest (hr.1.after hidle) hr.2
  · exact hrest hidle.lives hmod

/-! ### Leaving the spawned state -/

theorem jobProcessTraceNew_lives {p : ProcessType} :
    Sat (jobProcessTraceNew x sys job p) (Lives sys job) (fun _ => True) := by
  refine sat_assert (fun _ => trivial) fun _ => ?_
  split
  · exact (Idle.refl sys job).lives
  split
  · exact (Idle.refl sys job).lives
  · exact Idle.lives ⟨.act sys rfl, rfl, rfl⟩

theorem jobProcessTraceNewChild_lives {p : ProcessType} (hrest : job.state.spawning? = false) :
    Sat (jobProcessTraceNewChild x sys job p) (Lives sys job) (fun _ => True) := by
  refine sat_assert (fun _ => trivial) fun _ => ?_
  split
  · exact (Idle.refl sys job).lives
  dsimp only
  split
  · refine Sat.imp (jobAdvance_lives hrest) fun r hr => hr.after ?_
    exact ⟨.act sys rfl, rfl, rfl⟩
  · exact jobProcessTraceNew_lives.imp fun r hr => hr.after (.same sys rfl rfl)

theorem jobProcessHandler_lives {D : ProcessType → Prop} {p : ProcessType} {event : ChildEvent}
    (h : Settled D job) :
    Sat (jobProcessHandler x sys job p event) (Lives sys job) (fun _ => True) := by
  have hact (a : Action) (ha : a.process? = none) : Idle sys job (sys.act a) job :=
    ⟨.act sys ha, rfl, rfl⟩
  cases event with
  | exited | killed | dumped =>
    exact (jobProcessTerminated_lives h).imp fun r hr => hr.after (hact _ rfl)
  | stopped signal =>
    dsimp only [jobProcessHandler, jobProcessStopped]
    split
    · split
      · exact (Idle.refl sys job).lives
      split
      · exact (jobAdvance_lives h.resting).imp fun r hr => hr.after (hact _ rfl)
      · exact (Idle.refl sys job).lives
    · exact (Idle.refl sys job).lives
  | continued => exact (Idle.refl sys job).lives
  | trapped signal =>
    dsimp only [jobProcessHandler, jobProcessTraceSignal]
    split
    · exact jobProcessTraceNew_lives
    split
    · exact jobProcessTraceNewChild_lives h.resting
    split
    · exact (Idle.refl sys job).lives
    · exact (hact _ rfl).lives
  | ptraceFork =>
    dsimp only [jobProcessHandler, jobProcessTraceFork]
    split
    · exact (Idle.refl sys job).lives
    split
    · exact (Idle.refl sys job).lives
    have hforked : Idle sys job ({ sys with lastPid := sys.lastPid + 1 }.act (.detached (job.pid p)))
        { job.setPid p (sys.lastPid + 1) with traceState := .newChild } :=
      ⟨⟨⟨[_], rfl, rfl⟩, by simp [Sys.act]⟩, rfl, rfl⟩
    split
    · exact hforked.lives
    · refine Sat.imp (jobProcessTraceNewChild_lives ?_) fun r hr => hr.after hforked
      exact h.resting
  | ptraceExec =>
    dsimp only [jobProcessHandler, jobProcessTraceExec]
    split
    · exact (Idle.refl sys job).lives
    split
    · refine Sat.imp (jobAdvance_lives h.resting) fun r hr => hr.after ?_
      exact ⟨.act sys rfl, rfl, rfl⟩
    · exact (hact _ rfl).lives

/-! ### Requests -/

theorem replaceBlocking_idle {entry : Blocked} {wait : Bool} :
    Sat (replaceBlocking sys job entry wait)
      (fun r => Idle sys job r.1 r.2 ∧ SameCore job r.2) (fun _ => True) := by
  have hleaves : Sat (replaceBlocking sys job entry wait) (fun r => Leaves sys [] [] r.1)
      (fun _ => True) := by
    unfold replaceBlocking
    rw [sat_bind]
    exact jobFinished_sat.mono (fun r hr => .finished hr.2) fun _ _ => trivial
  exact (hleaves.and replaceBlocking_core).mono (fun r hr => ⟨.core hr.1 hr.2, hr.2⟩)
    fun _ _ => trivial

/-- The reply to a request shows nothing of the job. -/
theorem Lives.reply {r : Sys × JobRef} (h : Lives sys job r) (m : MessageId) (wait : Bool) :
    Lives sys job (replyUnlessWait r.1 m wait, r.2) := by
  cases wait with
  | true => exact h
  | false =>
    exact ⟨h.course.before (.act r.1 rfl) (fun _ hphase => hphase) fun hhalts => hhalts, h.cls⟩

theorem refuse_lives {m : MessageId} :
    Sat (refuse sys job m) (Lives sys job) (fun _ => True) :=
  Idle.lives ⟨.act sys rfl, rfl, rfl⟩

theorem changeGoalFor_lives {entry : Blocked} {m : MessageId} {wait : Bool} {goal : JobGoal} :
    Sat (changeGoalFor x sys job entry m wait goal) (Lives sys job) (fun _ => True) := by
  unfold changeGoalFor
  rw [sat_bind]
  refine replaceBlocking_idle.imp fun r hr => ?_
  rw [sat_bind]
  exact jobChangeGoal_lives.imp fun r' hr' => (hr'.after hr.1).reply m wait

theorem restartFor_lives {D : ProcessType → Prop} {entry : Blocked} {m : MessageId} {wait : Bool}
    (h : Settled D job) :
    Sat (restartFor x sys job entry m wait) (Lives sys job) (fun _ => True) := by
  unfold restartFor
  rw [sat_bind]
  refine replaceBlocking_idle.imp fun r hr => ?_
  rw [sat_bind]
  refine (jobChangeGoal_lives.and (h.same hr.2).changeGoal_stop).mono ?_ fun _ _ => trivial
  rintro ⟨sys', job' | job'⟩ ⟨hlives, hset⟩
  · simp only [JobRef.get_live, sat_bind, sat_ok]
    exact ((hlives.after hr.1).start hset).imp fun r' hr' => hr'.reply m wait
  · trivial

/-- The reply of `job_class_start` and `job_class_restart` reads the path of the job. -/
theorem Lives.replyPath {m : Except Fault (Sys × JobRef)} {fn : SourceFn} {wait : Bool}
    (h : Sat m (Lives sys job) (fun _ => True)) :
    Sat (do
      let (sys, ref) ← m
      if wait then .ok (sys, ref)
      else
        let job ← ref.get fn
        .ok (sys, .live job)) (Lives sys job) (fun _ => True) := by
  rw [sat_bind]
  refine h.imp ?_
  rintro ⟨sys', job' | job'⟩ hlives
  · cases wait <;> exact hlives
  · cases wait
    · trivial
    · exact hlives

theorem jobRequest_lives {D : ProcessType → Prop} {i : Input} {m : MessageId}
    (h : Settled D job) (hi : i.request? = some m) :
    Sat (jobStep x sys job i) (Lives sys job) (fun _ => True) := by
  cases i with
  | start message wait =>
    show Sat (jobStart x sys job message wait) _ _
    unfold jobStart
    split
    · exact refuse_lives
    split
    · exact refuse_lives
    · exact changeGoalFor_lives.imp fun r hr => hr.after (.same sys rfl rfl)
  | stop message wait =>
    show Sat (jobStop x sys job message wait) _ _
    unfold jobStop
    split
    · exact refuse_lives
    · exact changeGoalFor_lives.imp fun r hr => hr.after (.same sys rfl rfl)
  | restart message wait =>
    show Sat (jobRestart x sys job message wait) _ _
    unfold jobRestart
    split
    · exact refuse_lives
    · exact (restartFor_lives (h.setEnv none none)).imp fun r hr => hr.after (.same sys rfl rfl)
  | classStart env message wait =>
    show Sat (jobClassStartInstance x sys job env message wait) _ _
    unfold jobClassStartInstance
    split
    · exact refuse_lives
    · refine Lives.replyPath ?_
      exact changeGoalFor_lives.imp fun r hr => hr.after (.same sys rfl rfl)
  | classStop env message wait =>
    show Sat (jobClassStopInstance x sys job env message wait) _ _
    unfold jobClassStopInstance
    split
    · exact refuse_lives
    · exact changeGoalFor_lives.imp fun r hr => hr.after (.same sys rfl rfl)
  | classRestart env message wait =>
    show Sat (jobClassRestartInstance x sys job env message wait) _ _
    unfold jobClassRestartInstance
    split
    · exact refuse_lives
    · refine Lives.replyPath ?_
      exact (restartFor_lives (h.setEnv (some env) none)).imp fun r hr =>
        hr.after (.same sys rfl rfl)
  | _ => cases hi

/-! ### Events -/

theorem blockOnEvents_leaves {root : EventOperator} {cond : Bool} :
    Sat (blockOnEvents sys job root cond) (fun r => Leaves sys [] [] r.1) (fun _ => True) := by
  unfold blockOnEvents
  split
  · unfold eventOperatorEvents
    rw [sat_bind, sat_bind]
    refine (sat_true (m := filteredEvents _ _ _)).imp fun events _ => ?_
    rw [sat_bind]
    exact (blockAll_touches sys _).imp fun sys' h => .touches h
  · exact .refl sys

theorem takeStopEnv_leaves {root : EventOperator} :
    Sat (takeStopEnv x sys job root) (fun r => Leaves sys [] [] r.1) (fun _ => True) := by
  unfold takeStopEnv
  split
  · rw [sat_bind]
    refine (sat_true (m := eventOperatorEnvironment _ _ _ _ _)).imp fun env _ => ?_
    exact jobFinished_sat.mono (fun r hr => .finished hr.2) fun _ _ => trivial
  · exact .refl sys

theorem takeStartEnv_leaves {root : EventOperator} {env : List String} :
    Sat (takeStartEnv x sys job root env) (fun r => Leaves sys [] [] r.1) (fun _ => True) := by
  unfold takeStartEnv
  split
  · rw [sat_bind]
    refine jobFinished_sat.mono (fun r hr => ?_) fun _ _ => trivial
    rw [sat_bind]
    exact (sat_true (m := eventOperatorFds _ _ _ _ _)).imp fun _ _ => .finished hr.2
  · exact .refl sys

theorem stopForEvents_lives {root : EventOperator} :
    Sat (stopForEvents x sys job root) (Lives sys job) (fun _ => True) := by
  unfold stopForEvents
  rw [sat_bind]
  refine (takeStopEnv_leaves.and takeStopEnv_core).mono (fun r hr => ?_) fun _ _ => trivial
  rw [sat_bind]
  refine (blockOnEvents_leaves.and blockOnEvents_core).mono (fun r' hr' => ?_) fun _ _ => trivial
  dsimp only
  rw [changeGoalIfOther_eq, sat_bind]
  refine jobChangeGoal_lives.imp ?_
  rintro ⟨sys', job' | job'⟩ hlives
  · simp only [JobRef.get_live, sat_bind, sat_ok]
    refine resetOperator_touches.imp fun r'' hr'' => ?_
    have hidle := (Idle.core hr.1 hr.2).trans (.core hr'.1 hr'.2)
    exact (hlives.after hidle).before ⟨.touches hr'', rfl, rfl⟩ rfl
  · trivial

theorem handleStopOn_lives {event : Event} :
    Sat (handleStopOn x sys job event) (Lives sys job) (fun _ => True) := by
  unfold handleStopOn
  split
  · exact (Idle.refl sys job).lives
  · rw [sat_bind]
    refine handleOperator_touches.imp fun r hr => ?_
    have hidle : Idle sys job (r.1.act (.offeredStop event.id job.id))
        { job with stopOn := some r.2.1 } :=
      ⟨(Leaves.touches hr).trans (.act r.1 rfl), rfl, rfl⟩
    dsimp only
    split
    · refine stopForEvents_lives.imp fun r' hr' => hr'.after (hidle.trans ?_)
      exact ⟨.act _ rfl, rfl, rfl⟩
    · exact hidle.lives

theorem inductInstance_lives {root : EventOperator} {env : List String} :
    Sat (inductInstance x sys job root env) (Lives sys job) (fun _ => True) := by
  unfold inductInstance
  rw [sat_bind]
  refine (takeStartEnv_leaves.and takeStartEnv_core).mono (fun r hr => ?_) fun _ _ => trivial
  rw [sat_bind]
  refine (blockOnEvents_leaves.and blockOnEvents_core).mono (fun r' hr' => ?_) fun _ _ => trivial
  dsimp only
  rw [changeGoalIfOther_eq]
  exact jobChangeGoal_lives.imp fun r'' hr'' =>
    hr''.after ((Idle.core hr.1 hr.2).trans (.core hr'.1 hr'.2))

/-- Everything that can happen to a job at rest. -/
theorem jobStep_lives {D : ProcessType → Prop} {i : Input} (h : Settled D job)
    (hi : ∀ sys', i ≠ .elsewhere sys') :
    Sat (jobStep x sys job i) (Lives sys job) (fun _ => True) := by
  cases i with
  | changeGoal => exact jobChangeGoal_lives
  | start | stop | restart | classStart | classStop | classRestart => exact jobRequest_lives h rfl
  | stopEvent => exact handleStopOn_lives
  | induct => exact inductInstance_lives
  | blockerFinished =>
    have hrest : ({ job with blocker := none } : Job).state.spawning? = false := h.resting
    exact (jobAdvance_lives hrest).imp fun r hr => hr.after (.same sys rfl rfl)
  | childError => exact jobProcessChildReader_lives h
  | childClosed => exact jobProcessCloseHandler_lives h
  | childEvent => exact jobProcessHandler_lives h
  | readyText pid buf =>
    dsimp only [jobStep, jobProcessReadyfdReader]
    split
    · exact jobAdvance_lives h.resting
    · exact (Idle.refl sys job).lives
  | killTimer =>
    refine sat_assert (fun _ => trivial) fun _ => ?_
    split
    · trivial
    · refine sat_assert (fun _ => trivial) fun _ => ?_
      exact Idle.lives ⟨.act sys rfl, rfl, rfl⟩
  | elsewhere sys' => exact absurd rfl (hi sys')

/-! ## Runs -/

theorem Leaves.signs_eq {procs : List ProcessType} {names : List String}
    (h : Leaves sys procs names sys') :
    signs ((sys'.log.take (sys'.log.length - sys.log.length)).filterMap Action.process?).reverse
      ((sys'.events.drop sys.events.length).map Event.name) = signs procs names := by
  obtain ⟨acts, hlog, hacts⟩ := h.log
  have hprocs : (sys'.log.take (sys'.log.length - sys.log.length)).filterMap Action.process? =
      procs.reverse := by
    rw [hlog, List.length_append, Nat.add_sub_cancel, List.take_left, hacts]
  have hlength : sys.events.length = (sys.events.map Event.name).length := by simp
  rw [hprocs, List.reverse_reverse, List.map_drop, h.names, hlength, List.drop_left]

end

/-- What a step has shown of the job; the rest of init shows nothing of it. -/
def stepSigns (sys sys' : Sys) : Input → List Sign
  | .elsewhere _ => []
  | _ => signs ((sys'.log.take (sys'.log.length - sys.log.length)).filterMap Action.process?).reverse
      ((sys'.events.drop sys.events.length).map Event.name)

/-- A step of a run, with the signs that the job has left so far. -/
def recordStep (s : (Sys × JobRef) × List Sign) (i : Host × Input) :
    Except Fault ((Sys × JobRef) × List Sign) := do
  let s' ← step s.1 i
  .ok (s', s.2 ++ stepSigns s.1.1 s'.1 i.2)

/-- The states of the runs of a job, with the signs that it has left. -/
abbrev Recorded : (Sys × JobRef) × List Sign → Prop :=
  Reach (fun s => Created s.1 ∧ s.2 = []) (fun s i => Admits Always s.1 i) recordStep

theorem recordStep_eq {s s' : (Sys × JobRef) × List Sign} {i : Host × Input}
    (h : recordStep s i = .ok s') :
    step s.1 i = .ok s'.1 ∧ s'.2 = s.2 ++ stepSigns s.1.1 s'.1.1 i.2 := by
  unfold recordStep at h
  cases hs : step s.1 i with
  | error f => simp [hs, bind, Except.bind] at h
  | ok t =>
    simp only [hs, bind, Except.bind, Except.ok.injEq] at h
    subst h
    exact ⟨rfl, rfl⟩

theorem Recorded.reached {s : (Sys × JobRef) × List Sign} (h : Recorded s) :
    Reached Always s.1 := by
  induction h with
  | init h => exact .init h.1
  | step _ hok hs ih => exact .step ih hok (recordStep_eq hs).1

theorem stepSigns_self (sys : Sys) (i : Input) : stepSigns sys sys i = [] := by
  cases i
  case elsewhere => rfl
  all_goals simp [stepSigns, signs]

/-- In every run what a job has shown of itself follows the protocol, and leads to where
the state of the job has its place. -/
theorem recorded_follows {s : (Sys × JobRef) × List Sign} (h : Recorded s) :
    ∃ phase, Phase.new.walk s.1.2.job.cls s.2 = some phase ∧
      s.1.2.fits s.1.2.job.cls phase := by
  induction h with
  | init h =>
    obtain ⟨⟨id, classId, cls, name, stopOn, href, -⟩, hsigns⟩ := h
    rw [href, hsigns]
    exact ⟨.new, rfl, rfl⟩
  | @step s s' i hrun hok hs ih =>
    obtain ⟨⟨sys, ref⟩, l⟩ := s
    obtain ⟨⟨sys', ref'⟩, l'⟩ := s'
    obtain ⟨hstep, hl⟩ := recordStep_eq hs
    obtain rfl : l' = l ++ stepSigns sys sys' i.2 := hl
    obtain ⟨phase, hwalk, hfits⟩ := ih
    cases ref with
    | freed job =>
      -- nothing happens any more
      cases (show Except.ok (sys, JobRef.freed job) = .ok (sys', ref') from hstep)
      refine ⟨phase, ?_, hfits⟩
      rw [stepSigns_self, List.append_nil]
      exact hwalk
    | live job =>
      have hstep : jobStep i.1 sys job i.2 = .ok (sys', ref') := hstep
      by_cases hi : ∃ sys₁, i.2 = .elsewhere sys₁
      · obtain ⟨sys₁, hi⟩ := hi
        rw [hi] at hstep
        cases (show Except.ok (sys₁, JobRef.live job) = .ok (sys', ref') from hstep)
        refine ⟨phase, ?_, hfits⟩
        simp only [hi, stepSigns, List.append_nil]
        exact hwalk
      · have hset := reached_settled (Recorded.reached hrun)
        have hlives := (jobStep_lives hset fun sys₁ heq => hi ⟨sys₁, heq⟩).of_ok hstep
        obtain ⟨procs, names, hleaves, -, hgo⟩ := hlives.course
        obtain ⟨phase', hphase', hlater⟩ := hgo phase hfits
        have hsigns : stepSigns sys sys' i.2 = signs procs names := by
          rw [← hleaves.signs_eq]
          cases hi' : i.2
          case elsewhere sys₁ => exact absurd ⟨sys₁, hi'⟩ hi
          all_goals rfl
        rw [hlives.cls]
        refine ⟨phase', ?_, hlater⟩
        show Phase.new.walk job.cls (l ++ stepSigns sys sys' i.2) = some phase'
        rw [hsigns]
        exact (Phase.walk_append _ hwalk).trans hphase'

/-- A step of a concrete run on the plain host. -/
theorem Recorded.next {sys : Sys} {job : Job} {l : List Sign}
    (h : Recorded ((sys, .live job), l)) (i : Input) (hi : Enabled sys job i) {s' : Sys × JobRef}
    (hs : jobStep plainHost sys job i = .ok s') : Recorded (s', l ++ stepSigns sys s'.1 i) := by
  refine .step (i := (plainHost, i)) h ⟨hi, trivial⟩ ?_
  show (jobStep plainHost sys job i >>= _) = _
  rw [hs]
  rfl

/-- A job that has been started and runs its main process. -/
theorem recorded_follows_spawned :
    ∃ s, Recorded s ∧ s.2 = [.emits "starting", .spawns .main] ∧
      ∃ phase, Phase.new.walk s.1.2.job.cls s.2 = some phase ∧
        s.1.2.fits s.1.2.job.cls phase := by
  have h₀ : Recorded (newRun (plainClass [.main]), []) :=
    .init ⟨⟨1, 1, plainClass [.main], "", none, rfl, by simp [Job.refs, jobNew],
      by simp [jobNew], by simp [jobNew]⟩, rfl⟩
  have h₁ := h₀.next (.changeGoal .start) (by simp [Enabled]) rfl
  have h₂ := h₁.next .blockerFinished rfl rfl
  exact ⟨_, h₂, rfl, recorded_follows h₂⟩

end Startup
